import EditorClient.Context
import EditorClient.Preflight

/-! Activation of the client: mode, transport, dependency check, session, start. What goes wrong
before the session is made ends the activation; a session that does not start leaves the client
inactive. -/

namespace EditorClient

def addBootstrap (b : Bootstrap) (w : World) : World := { w with bootstraps := w.bootstraps ++ [b] }

/-- A bootstrap takes a controller in place of the one it has, or drops that. -/
def World.hold (w : World) (i : Nat) (controller : Option Nat) : World :=
  (w.modifyBootstrap i fun b => { b with controller := controller }).happen (.held i controller)

namespace Bootstrap

def find (i : Nat) : Procedure Bootstrap := Procedure.find .bootstraps World.bootstraps i

def hold (i : Nat) (controller : Option Nat) : Procedure Unit :=
  Procedure.change (·.hold i controller)

/-- Stops the session of the current activation, if there is one. -/
def deactivate (i : Nat) : Procedure Unit := do
  match (← find i).controller with
  | none => pure ()
  | some controller =>
    hold i none
    Controller.stop controller

def prepareSpawn (config : Config) (context : Context) (path : Path) : Procedure Transport := do
  let interpreter ← Procedure.ofExcept context.interpreter
  Procedure.remark (.interpreterSetting interpreter)
  let transport ← selectTransport .production config.port (some path) interpreter config.server
  let program ← Procedure.ofExcept (commandWord 0 interpreter)
  let _ ← ensureDependency program config.dependency context.notifier
  Procedure.remark .dependenciesReady
  pure transport

/-- The transport of an activation; nothing but commands and notices has happened when it is ready. -/
def prepare (config : Config) (context : Context) (path : Path) : Procedure Transport := do
  let mode ← resolveMode context.mode config.debugClient
  Procedure.remark (.runningIn mode)
  match mode with
  | .development => selectTransport .development config.port none .null config.server
  | .production => prepareSpawn config context path

/-- Faults of the configuration and of the installation are reported to the log before they go on. -/
def isReported (f : Fault) : Bool := f.kind.isA .configuration || f.kind.isA .installation

def reporting (p : Procedure Transport) : Procedure Transport :=
  p.recover fun fault => do
    if isReported fault then Procedure.remark (.activationAborted fault)
    throw fault

def replacePrevious (i : Nat) : Procedure Unit := do
  if (← find i).controller.isSome then
    Procedure.remark .alreadyActivated
    deactivate i

/-- The index of the controller that owns the new session, whether or not it runs. -/
def activate (i context : Nat) : Procedure Nat := do
  let config := (← find i).config
  let c ← Context.find context
  match c.path.toPath with
  | .error kindName => throw (.badConfiguration (.extensionPathNotPath kindName))
  | .ok path =>
    Procedure.remark (.extensionPath c.path)
    let transport ← reporting (prepare config c path)
    replacePrevious i
    let session ← buildSession transport config.options
    let controller ← newController c.notifier
    hold i (some controller)
    let _ ← Controller.start controller session context
    pure controller

end Bootstrap

end EditorClient
