import EditorClient.Path
import EditorClient.Wildcard

/-! Globs for paths. A glob without a root is compared with the last names of a path, one with a
root with the whole path; one leading `**/` is left out before the glob is read. -/

namespace EditorClient

def dropAnyDirectory : List Char → List Char
  | '*' :: '*' :: '/' :: glob => glob
  | glob => glob

def matchesEach (patterns names : List (List Char)) : Bool :=
  (patterns.zip names).all fun pair => matchesWildcard pair.1 pair.2

/-- Whether the path matches a glob that has a root or a name; there is no answer for any other. The
root of a path counts as a part that a glob without a root can match. -/
def Path.matchesPattern? (p : Path) (glob : Path) : Option Bool :=
  if glob.parts.isEmpty then none
  else if glob.isAbsolute then
    some (glob.root == p.root && glob.names.length == p.names.length &&
      matchesEach glob.names p.names)
  else
    some (glob.names.length ≤ p.parts.length &&
      matchesEach glob.names.reverse p.parts.reverse)

def Path.matchesGlob? (p : Path) (glob : String) : Option Bool :=
  p.matchesPattern? (Path.ofChars (dropAnyDirectory glob.toList))

end EditorClient
