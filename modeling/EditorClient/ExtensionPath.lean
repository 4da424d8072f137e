import EditorClient.Mode
import EditorClient.Path

/-! Where the client is installed, as the host says it. -/

namespace EditorClient

/-- Any value from the host, of which only texts are paths, or a path itself. -/
inductive ExtensionPath where
  | value (v : Value)
  | path (p : Path)
deriving Repr

namespace ExtensionPath

def shown : ExtensionPath → String
  | value v => v.shown
  | path p => p.toString

/-- The path, or the name of the kind of the value that is none. -/
def toPath : ExtensionPath → Except String Path
  | value (.text s) => .ok (Path.ofString s)
  | value v => .error v.kindName
  | path p => .ok p

end ExtensionPath

end EditorClient
