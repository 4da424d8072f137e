import EditorClient.Channel
import EditorClient.Connection

/-! Sessions with a language server. A session is started at most once and never again after a
stop; it runs from the end of its handshake until it is stopped. -/

namespace EditorClient

def addSession (s : Session) (w : World) : World := { w with sessions := w.sessions ++ [s] }

/-- The index of a new session, which is not started. -/
def newSession (name : Value) (transport : Transport) (options : SessionOptions) :
    Procedure Nat := do
  let slug ← openChannel options.channelName
  let _ ← Procedure.request (.makeClient slug)
  let index ← Procedure.ask (·.sessions.length)
  Procedure.change (addSession ⟨name, transport, options, slug, none, false, false, false, 0⟩)
  Procedure.happen (.madeClient index)
  pure index

/-- The display name of the session and of the transport itself. -/
def transportNames : Transport → Except Fault (Value × String)
  | .socket _ port => .ok (.text ("tcp lang server (port " ++ toString port ++ ")"), "socket")
  | .spawn command _ _ => .ok (command, "spawn")
  | .foreign v => .error (.unsupportedTransport v)

def buildSession (transport : Transport) (options : SessionOptions) : Procedure Nat := do
  let names ← Procedure.ofExcept (transportNames transport)
  Procedure.remark (.buildingSession names.1 names.2)
  newSession names.1 transport options

namespace Session

def find (i : Nat) : Procedure Session := Procedure.find .sessions World.sessions i

def modify (i : Nat) (f : Session → Session) : Procedure Unit :=
  Procedure.change fun w => w.modifySession i f

def request (i : Nat) (r : Request) : Procedure Unit := do
  let _ ← Procedure.request (.client i r)
  pure ()

def openSocket (i : Nat) (host : String) (port : Int) : Procedure Unit := do
  let connection ← connect host port
  modify i fun s => { s with writer := some connection }
  let _ ← Procedure.request (.setWriter i connection)
  let _ ← Procedure.request (.readLoop i connection)
  modify i fun s => { s with tasks := s.tasks + 1 }

def spawn (i : Nat) (command : Value) (args : List String) (directory : Path) : Procedure Unit :=
  (request i (.startServer command args directory)).recoverOs fun fault =>
    throw (.notSpawned command directory fault)

def openTransport (i : Nat) : Transport → Procedure Unit
  | .socket host port => openSocket i host port
  | .spawn command args directory => spawn i command args directory
  | .foreign v => throw (.noAttribute v.kindName "command")

def handshake (i : Nat) (name : Value) : Procedure Unit :=
  Procedure.recoverOrdinary
    (do
      request i .beginHandshake
      request i .finishHandshake)
    fun fault => throw (.handshakeFailed name fault)

def start (i : Nat) : Procedure Unit := do
  let s ← find i
  if s.started || s.stopped then throw (.startedTwice s.name)
  modify i fun s => { s with started := true }
  openTransport i s.transport
  handshake i s.name
  modify i fun s => { s with initialized := true }
  Procedure.post (.sessionStarted s.slug s.name)

/-- The server is told to shut down only after a handshake. -/
def shutDown (i : Nat) (name : Value) : Procedure Unit :=
  Procedure.recoverOrdinary
    (do
      request i .shutdown
      request i .exit)
    fun fault => Procedure.remark (.shutdownFailed name fault)

def closeWriter (i : Nat) : Procedure Unit := do
  match (← find i).writer with
  | some connection =>
    let _ ← Procedure.request (.closeWriter connection)
    modify i fun s => { s with writer := none }
  | none => pure ()

/-- Only the first stop does anything. -/
def stop (i : Nat) : Procedure Unit := do
  let s ← find i
  if s.stopped then pure ()
  else do
    modify i fun s => { s with stopped := true }
    if s.initialized then shutDown i s.name
    closeWriter i
    request i (.stop (← find i).tasks)
    Procedure.post (.sessionStopped s.slug s.name)

def handles (i : Nat) (uri language : String) : Procedure Bool := do
  match anyFilterAccepts uri language (← find i).options.documents with
  | .ok b => pure b
  | .error problem => throw (.badUri problem)

/-- Whether one of the globs matches, tried in order. -/
def isWatched (path : Path) : List String → Except Fault Bool
  | [] => .ok false
  | glob :: globs =>
    match path.matchesGlob? glob with
    | none => .error .emptyGlob
    | some true => .ok true
    | some false => isWatched path globs

/-- The URI of a file; a relative path starts in the working directory. -/
def fileUri (workingDirectory path : Path) : Except Fault String :=
  let file := workingDirectory.join path
  if file.isAbsolute then .ok file.uri else .error .relativePath

/-- Whether the server was told of the change. -/
def changeFile (i : Nat) (path : Path) (change : Int) : Procedure Bool := do
  let s ← find i
  if ← Procedure.ofExcept (isWatched path s.options.watchGlobs) then
    if s.isRunning then do
      let uri ← Procedure.ofExcept (fileUri (← Procedure.ask (·.workingDirectory)) path)
      request i (.fileEvent uri change)
      pure true
    else do
      Procedure.remark (.changeDropped s.name path)
      pure false
  else pure false

/-- The log level of a message from the server, by the protocol's number for its severity. -/
def messageLevel (severity : Int) : Int :=
  if severity = 1 then Level.error
  else if severity = 2 then Level.warning
  else if severity = 3 then Level.info
  else if severity = 4 then Level.debug
  else Level.info

def serverMessage (i : Nat) (severity : Int) (text : String) : Procedure Unit := do
  Procedure.post (.message (← find i).slug (messageLevel severity) text)

def serverExit (i : Nat) (process code : Option Int) : Procedure Unit := do
  Procedure.post (.serverExited (← find i).slug process code)

def serverError (i : Nat) (fault : Fault) (source : String) : Procedure Unit := do
  Procedure.post (.serverError (← find i).slug source fault)

def summary (s : Session) : SessionSummary :=
  ⟨s.name, s.transport, s.options, Logger.channel s.slug, s.isRunning⟩

end Session

end EditorClient
