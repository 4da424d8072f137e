import EditorClient.Notifier
import EditorClient.Session

/-! A controller owns the one session of an activation. A failed start is final and is shown to
the user; a running session is registered for cleanup and stopped once. -/

namespace EditorClient

def addController (c : Controller) (w : World) : World :=
  { w with controllers := w.controllers ++ [c] }

def newController (notifier : Notifier) : Procedure Nat := do
  let index ← Procedure.ask (·.controllers.length)
  Procedure.change (addController ⟨notifier, none, .unstarted⟩)
  pure index

/-- A new disposable that no context knows of. -/
def addDisposable (action : CleanUp) (w : World) : World :=
  { w with disposables := w.disposables ++ [⟨action, false⟩] }

/-- Makes a disposable the last of a context's subscriptions. -/
def register (context disposable : Nat) (w : World) : World :=
  w.modifyContext context fun c => { c with subscriptions := c.subscriptions ++ [disposable] }

def addSubscription (action : CleanUp) (context : Nat) (w : World) : World :=
  register context w.disposables.length (addDisposable action w)

namespace Controller

def find (i : Nat) : Procedure Controller := Procedure.find .controllers World.controllers i

def modify (i : Nat) (f : Controller → Controller) : Procedure Unit :=
  Procedure.change fun w => w.modifyController i f

/-- What a controller calls on its session is noted as it is called. -/
def startSession (i session : Nat) : Procedure Unit := do
  Procedure.change (·.callSession i (.start session))
  Session.start session

def stopSession (i session : Nat) : Procedure Unit := do
  Procedure.change (·.callSession i (.stop session))
  Session.stop session

/-- The transport may be half open. -/
def release (i session : Nat) : Procedure Unit :=
  (stopSession i session).recoverOrdinary fun fault => Procedure.remark (.releaseFailed fault)

def notifyFailure (notifier : Notifier) (fault : Fault) : Procedure Unit :=
  match notifier with
  | .absent => pure ()
  | n => n.notify (.startFailed fault)

def startFailed (i session : Nat) (name : Value) (fault : Fault) : Procedure Unit := do
  modify i fun c => { c with state := .failed }
  Procedure.remark (.startFailed name fault)
  notifyFailure (← find i).notifier fault
  release i session

/-- Whether the session runs. -/
def start (i session context : Nat) : Procedure Bool := do
  let c ← find i
  if c.state ≠ .unstarted then throw (.startedFrom c.state)
  modify i fun c => { c with state := .starting }
  let name := (← Session.find session).name
  Procedure.remark (.startingClient name)
  let started ← Procedure.recoverOrdinary
    (do
      startSession i session
      pure true)
    fun fault => do
      startFailed i session name fault
      pure false
  if started then
    modify i fun c => { c with session := some session, state := .running }
    Procedure.change (addSubscription (.stopController i) context)
    Procedure.remark (.clientRunning name)
  pure started

/-- Nothing happens unless a session runs. -/
def stop (i : Nat) : Procedure Unit := do
  let c ← find i
  match c.state, c.session with
  | .running, some session =>
    modify i fun c => { c with session := none, state := .stopped }
    Procedure.remark (.stoppingClient (← Session.find session).name)
    stopSession i session
  | state, _ => Procedure.remark (.nothingToStop state)

end Controller

end EditorClient
