import EditorClient.Uri.Authority
import EditorClient.Text.LowerCase

/-! The scheme of a URI. Leading controls and spaces and every tab and line break are not part of
the URI. -/

namespace EditorClient

def isSchemeChar (c : Char) : Bool := c.isAlphanum || c == '+' || c == '-' || c == '.'

def cleanUri (uri : List Char) : List Char :=
  (uri.dropWhile fun c => c.toNat ≤ 0x20).filter fun c => c != '\t' && c != '\r' && c != '\n'

/-- The scheme, empty if there is none, and what follows it. -/
def splitScheme (uri : List Char) : List Char × List Char :=
  match cut ':' uri with
  | (scheme, some rest) =>
    if scheme.head?.any Char.isAlpha && scheme.all isSchemeChar then (scheme.map lowerAscii, rest)
    else ([], uri)
  | (_, none) => ([], uri)

/-- The authority, if what follows the scheme starts with two slashes. -/
def authority? : List Char → Option (List Char)
  | '/' :: '/' :: cs => some (cs.takeWhile fun c => c != '/' && c != '?' && c != '#')
  | _ => none

def uriScheme (uri : List Char) : Except UriProblem (List Char) :=
  let parts := splitScheme (cleanUri uri)
  match (authority? parts.2).bind authorityProblem? with
  | some problem => .error problem
  | none => .ok parts.1

end EditorClient
