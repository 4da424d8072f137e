import EditorClient.Catalogue
import EditorClient.Config
import EditorClient.Notice

/-! What the steps of a run answer. -/

namespace EditorClient

/-- What is shown of a session when it is made. -/
structure SessionSummary where
  name : Value
  transport : Transport
  options : SessionOptions
  channel : String
  running : Bool
deriving Repr

inductive Response where
  | nothing
  | flag (b : Bool)
  | number (n : Int)
  | text (s : String)
  | value (v : Value)
  | mode (m : Mode)
  | transport (t : Transport)
  | path (p : Path)
  | config (c : Config)
  | preflight (r : PreflightResult)
  | preflightShown (r : PreflightResult)
  | faultShown (message literal : String)
  | installationShown (message literal : String) (result : Option PreflightResult)
  | connection (number : Nat)
  | logDirectory (path : String)
  | channel (logger : String) (handlers : Nat) (level : Int)
  | logs (files : List (String × String))
  | context (mode notifier : String)
  | activated (controller : Nat)
  | controller (number : Nat) (state : LifecycleState)
  | session (summary : SessionSummary)
  | catalogue (c : Catalogue)
deriving Repr

abbrev Answer := Except Fault Response

end EditorClient
