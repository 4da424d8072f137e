import EditorClient.Uri.Scheme

/-! Which documents a session handles, by the scheme of the URI and the language. -/

namespace EditorClient

structure DocumentFilter where
  scheme : String
  language : String
deriving DecidableEq, Repr

/-- A URI without a scheme, or with one of a single letter as in a drive, is a file. -/
def documentScheme (uri : String) : Except UriProblem (List Char) :=
  (uriScheme uri.toList).map fun scheme => if scheme.length < 2 then "file".toList else scheme

def DocumentFilter.accepts (f : DocumentFilter) (uri language : String) : Except UriProblem Bool :=
  (documentScheme uri).map fun scheme => String.ofList scheme == f.scheme && language == f.language

/-- The filters are tried in order, up to the first that accepts. -/
def anyFilterAccepts (uri language : String) : List DocumentFilter → Except UriProblem Bool
  | [] => .ok false
  | f :: fs => do
    if ← f.accepts uri language then pure true else anyFilterAccepts uri language fs

end EditorClient
