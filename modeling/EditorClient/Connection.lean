import EditorClient.Procedure

/-! The choice of a transport from the run mode, and the connection to a server that already
listens. -/

namespace EditorClient

/-- A client that is debugged spawns its server itself. -/
def underDebugging (debugClient : Bool) (m : Mode) : Procedure Mode :=
  if m = .development ∧ debugClient = true then do
    Procedure.remark .debuggingClient
    pure .production
  else pure m

def resolveMode (mode : HostMode) (debugClient : Bool) : Procedure Mode :=
  match mode with
  | .mode m => underDebugging debugClient m
  | .value v =>
    match mode.mode? with
    | some m => underDebugging debugClient m
    | none => throw (.badConfiguration (.unknownMode v))

def selectTransport (mode : Mode) (port : Int) (extension : Option Path) (interpreter : Value)
    (server : String) : Procedure Transport :=
  match mode with
  | .development => do
    Procedure.remark (.connectingTo port)
    pure (.socket loopbackHost port)
  | .production =>
    if interpreter.isSet then
      match extension with
      | none => throw (.badConfiguration .extensionPathMissing)
      | some path => do
        Procedure.remark (.spawning interpreter server)
        Procedure.remark (.serverDirectory (serverDirectory path))
        pure (spawnServer interpreter server path)
    else throw (.badConfiguration .interpreterNotSet)

def countConnection (w : World) : World := { w with connections := w.connections + 1 }

/-- The number of the new connection, which carries both directions. -/
def connect (host : String) (port : Int) : Procedure Nat := do
  let _ ← (Procedure.request (.connect host port)).recoverOs fun fault => do
    Procedure.remark (.connectFailed host port fault)
    throw (.notConnected host port fault)
  Procedure.change countConnection
  let number ← Procedure.ask (·.connections)
  Procedure.remark (.connected port)
  pure number

end EditorClient
