import EditorClient.Controller

/-! What the host hands over on activation, and its cleanup registry. A disposable acts at most
once; the registry is drained from the end, also of what is added meanwhile. -/

namespace EditorClient

def addContext (c : Context) (w : World) : World := { w with contexts := w.contexts ++ [c] }

namespace Disposable

def find (i : Nat) : Procedure Disposable := Procedure.find .disposables World.disposables i

def act : CleanUp → Procedure Unit
  | .scripted name reaction => do
    let _ ← Procedure.request (.act name reaction)
    pure ()
  | .stopController controller => Controller.stop controller

def dispose (i : Nat) : Procedure Unit := do
  let d ← find i
  if d.disposed then pure ()
  else do
    Procedure.change fun w => w.modifyDisposable i fun d => { d with disposed := true }
    act d.action

end Disposable

namespace Context

def find (i : Nat) : Procedure Context := Procedure.find .contexts World.contexts i

def modify (i : Nat) (f : Context → Context) : Procedure Unit :=
  Procedure.change fun w => w.modifyContext i f

/-- The section of the settings under a heading; a missing section is empty. -/
def configuration (c : Context) (heading : String) : Except Fault Value :=
  match c.settings with
  | .object sections => .ok ((Value.field? heading sections).getD (.object []))
  | v => .error (.noAttribute v.kindName "get")

/-- The interpreter that the user has set, if the section for it is one. -/
def interpreter (c : Context) : Except Fault Value := do
  match ← c.configuration "python" with
  | .object fields => pure ((Value.field? "pythonPath" fields).getD .null)
  | v => throw (.noAttribute v.kindName "get")

def disposeSubscription (i : Nat) : Procedure Unit :=
  (Disposable.dispose i).recoverOrdinary fun fault => Procedure.remark (.disposalFailed fault)

/-- Takes the last subscription out, if there is one, and disposes it, until none is left. No more
than `limit` are taken out. -/
def dispose : Nat → Nat → Procedure Unit
  | limit, i => do
    match (← find i).subscriptions.getLast? with
    | none => pure ()
    | some last =>
      match limit with
      | 0 => throw .limitReached
      | limit + 1 =>
        modify i fun c => { c with subscriptions := c.subscriptions.dropLast }
        disposeSubscription last
        dispose limit i

end Context

end EditorClient
