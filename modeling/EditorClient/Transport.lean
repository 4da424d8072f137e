import EditorClient.SessionOptions
import EditorClient.Path
import EditorClient.Value

/-! The two ways to a server, and whatever else may be given in their place. -/

namespace EditorClient

inductive Transport where
  | socket (host : String) (port : Int)
  | spawn (command : Value) (args : List String) (directory : Path)
  | foreign (v : Value)
deriving Repr

namespace Transport

def same : Transport → Transport → Bool
  | socket h p, socket h' p' => h == h' && p == p'
  | spawn c as d, spawn c' as' d' => c.same c' && as == as' && d == d'
  | foreign v, foreign v' => v.same v'
  | _, _ => false

end Transport

/-- The server package is a sibling of the client; nothing is looked up on disk. -/
def serverDirectory (extension : Path) : Path :=
  ⟨extension.root, extension.names ++ serverDirectoryNames⟩

def spawnServer (interpreter : Value) (server : String) (extension : Path) : Transport :=
  .spawn interpreter ["-m", server] (serverDirectory extension)

end EditorClient
