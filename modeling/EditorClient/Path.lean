import EditorClient.Text.Fields
import EditorClient.Text.Percent

/-! File paths as a root and a list of names. Repeated slashes, `.` names and a trailing slash say
nothing; `..` is a name like any other, so nothing is ever resolved. -/

namespace EditorClient

/-- Exactly two leading slashes are a root of their own. -/
inductive Root where
  | none
  | single
  | double
deriving DecidableEq, Repr

def Root.chars : Root → List Char
  | .none => []
  | .single => ['/']
  | .double => ['/', '/']

structure Path where
  root : Root
  names : List (List Char)
deriving DecidableEq, Repr

namespace Path

def rootOf : List Char → Root
  | '/' :: '/' :: '/' :: _ => .single
  | '/' :: '/' :: _ => .double
  | '/' :: _ => .single
  | _ => .none

def isName (name : List Char) : Bool := name != [] && name != ['.']

def ofChars (cs : List Char) : Path := ⟨rootOf cs, (fields '/' cs).filter isName⟩

def ofString (s : String) : Path := ofChars s.toList

def chars (p : Path) : List Char :=
  match p.root.chars ++ List.intercalate ['/'] p.names with
  | [] => ['.']
  | cs => cs

def toString (p : Path) : String := String.ofList p.chars

def isAbsolute (p : Path) : Bool := p.root != .none

/-- The names, after the root if there is one. -/
def parts (p : Path) : List (List Char) :=
  if p.isAbsolute then p.root.chars :: p.names else p.names

/-- The last name, empty if there is none. -/
def fileName (p : Path) : String := String.ofList (p.names.getLast?.getD [])

/-- A rooted second path stands alone. -/
def join (p q : Path) : Path :=
  if q.isAbsolute then q else ⟨p.root, p.names ++ q.names⟩

def uri (p : Path) : String := "file://" ++ String.ofList (percentEncode p.chars)

theorem isName_of_mem_ofChars {cs name : List Char} (h : name ∈ (ofChars cs).names) :
    isName name = true := (List.mem_filter.mp h).2

theorem join_names {p q : Path} (h : q.isAbsolute = false) :
    (p.join q).names = p.names ++ q.names := by
  simp [join, h]

end Path

end EditorClient
