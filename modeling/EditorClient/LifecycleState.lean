/-! The states of a session's controller. Stopped and failed are final. -/

namespace EditorClient

inductive LifecycleState where
  | unstarted
  | starting
  | running
  | stopped
  | failed
deriving DecidableEq, Repr

namespace LifecycleState

def all : List LifecycleState := [unstarted, starting, running, stopped, failed]

def name : LifecycleState → String
  | unstarted => "unstarted"
  | starting => "starting"
  | running => "running"
  | stopped => "stopped"
  | failed => "failed"

end LifecycleState

end EditorClient
