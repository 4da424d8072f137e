import EditorClient.Posting
import EditorClient.Remark
import EditorClient.Script

/-! Everything that outlives a call: what the host and the client have made, the log files, and
the trace of what happened. Objects are numbered from zero here and never removed. -/

namespace EditorClient

/-- What the client asks of a session's language server. -/
inductive Request where
  | startServer (command : Value) (args : List String) (directory : Path)
  | beginHandshake
  | finishHandshake
  | shutdown
  | exit
  | stop (tasks : Nat)
  | fileEvent (uri : String) (change : Int)
deriving Repr

/-- A call on a collaborator, which may react in any way. -/
inductive Call where
  | process (command : List String)
  | makeClient (slug : String)
  | connect (host : String) (port : Int)
  | setWriter (session connection : Nat)
  | readLoop (session connection : Nat)
  | client (session : Nat) (request : Request)
  | closeWriter (connection : Nat)
  | notify (notice : Notice)
  | act (name : String) (reaction : Reaction)

inductive Event where
  | began (step : Step)
  | ended (answer : Answer)
  | remarked (remark : Remark)
  | posted (posting : Posting)
  | refused (posting : Posting)
  | called (call : Call)
  | madeClient (session : Nat)
  | held (bootstrap : Nat) (controller : Option Nat)
  | askedLogDirectory

/-- A disposable stops a controller, or does what the host scripted. -/
inductive CleanUp where
  | scripted (name : String) (reaction : Reaction)
  | stopController (controller : Nat)

structure Disposable where
  action : CleanUp
  disposed : Bool

structure Context where
  path : ExtensionPath
  mode : HostMode
  settings : Value
  notifier : Notifier
  subscriptions : List Nat

structure Bootstrap where
  config : Config
  controller : Option Nat

structure Controller where
  notifier : Notifier
  session : Option Nat
  state : LifecycleState

/-- What a controller calls on a session. -/
inductive SessionCall where
  | start (session : Nat)
  | stop (session : Nat)
deriving DecidableEq, Repr

structure Session where
  name : Value
  transport : Transport
  options : SessionOptions
  slug : String
  writer : Option Nat
  started : Bool
  initialized : Bool
  stopped : Bool
  tasks : Nat

/-- The handler that writes a channel's records to a file. -/
structure FileHandler where
  slug : String
  directory : String
deriving DecidableEq, Repr

structure LogFile where
  handler : FileHandler
  text : String
deriving DecidableEq, Repr

structure World where
  contexts : List Context
  configs : List Config
  bootstraps : List Bootstrap
  controllers : List Controller
  /-- What the controllers have called on sessions, each call beside its controller. Nothing reads it
  but theorems. -/
  sessionCalls : List (Nat × SessionCall)
  sessions : List Session
  disposables : List Disposable
  /-- The disposables that the host made. -/
  subscribed : List Nat
  handlers : List FileHandler
  /-- The levels that loggers have been given, the latest first. -/
  levels : List (String × Int)
  files : List LogFile
  logDirectory : LogDirectory
  /-- The log directories of before, the latest first. -/
  formerDirectories : List LogDirectory
  workingDirectory : Path
  connections : Nat
  trace : List Event

def Session.isRunning (s : Session) : Bool := s.initialized && !s.stopped

def Controller.isRunning (c : Controller) : Bool := c.state == .running

def FileHandler.fileName (h : FileHandler) : String := h.slug ++ ".log"

def FileHandler.file (h : FileHandler) : String := h.directory ++ "/" ++ h.fileName

/-- File systems take names of up to 255 bytes. -/
def FileHandler.fits (h : FileHandler) : Bool := h.fileName.utf8ByteSize ≤ 255

namespace World

def initial (workingDirectory : String) (directory : LogDirectory) : World where
  contexts := []
  configs := []
  bootstraps := []
  controllers := []
  sessionCalls := []
  sessions := []
  disposables := []
  subscribed := []
  handlers := []
  levels := []
  files := []
  logDirectory := directory
  formerDirectories := []
  workingDirectory := .ofString workingDirectory
  connections := 0
  trace := []

def happen (w : World) (e : Event) : World := { w with trace := w.trace ++ [e] }

def modifyContext (w : World) (i : Nat) (f : Context → Context) : World :=
  { w with contexts := w.contexts.modify i f }

def modifyBootstrap (w : World) (i : Nat) (f : Bootstrap → Bootstrap) : World :=
  { w with bootstraps := w.bootstraps.modify i f }

def modifyController (w : World) (i : Nat) (f : Controller → Controller) : World :=
  { w with controllers := w.controllers.modify i f }

def callSession (w : World) (controller : Nat) (c : SessionCall) : World :=
  { w with sessionCalls := w.sessionCalls ++ [(controller, c)] }

def modifySession (w : World) (i : Nat) (f : Session → Session) : World :=
  { w with sessions := w.sessions.modify i f }

def modifyDisposable (w : World) (i : Nat) (f : Disposable → Disposable) : World :=
  { w with disposables := w.disposables.modify i f }

def hasHandler (w : World) (slug : String) : Bool := w.handlers.any fun h => h.slug == slug

def addToFile (files : List LogFile) (h : FileHandler) (line : String) : List LogFile :=
  match files with
  | [] => [⟨h, line⟩]
  | f :: fs =>
    if f.handler = h then { f with text := f.text ++ line } :: fs
    else f :: addToFile fs h line

/-- A remark belongs to the trace and to no channel's file (`reached_remark`). -/
def remark (w : World) (r : Remark) : World := w.happen (.remarked r)

/-- The handlers of the record's logger and of the loggers above it. -/
def reached (w : World) (r : LogRecord) : List FileHandler :=
  w.handlers.filter fun h => Logger.reaches (Logger.channel h.slug) r.logger

theorem reached_remark (w : World) (r : Remark) :
    Logger.reaches Logger.root r.record.logger = true ∧ w.reached r.record = [] := by
  refine ⟨Logger.reaches_root_of_own _ r.logger_mem_own, List.filter_eq_nil_iff.mpr fun h _ => ?_⟩
  rw [Logger.not_reaches_channel_of_own r.logger_mem_own]
  exact Bool.false_ne_true

/-- The level that a logger has itself. -/
def level (w : World) (logger : String) : Int := (w.levels.lookup logger).getD Level.unset

/-- The level of the nearest logger upwards that has one. The host has given the client's root logger the
debug level. -/
def threshold (w : World) (logger : String) : Int :=
  (((Logger.upwards logger).map w.level).find? fun n => n != Level.unset).getD Level.debug

/-- Records below the threshold of their logger are dropped. -/
def emits (w : World) (r : LogRecord) : Bool := w.threshold r.logger ≤ r.level

theorem emits_of_levels {w w' : World} (h : w'.levels = w.levels) (r : LogRecord) :
    w'.emits r = w.emits r := by
  unfold emits threshold level
  rw [h]

/-- Why no file can be opened in a directory at present. -/
def closure? (w : World) (directory : String) : Option OsFault :=
  ((w.logDirectory :: w.formerDirectories).find? fun d => d.path == directory).bind
    LogDirectory.closure

/-- Why the file of a handler cannot be opened. Once open it stays so. -/
def opening? (w : World) (h : FileHandler) : Option OsFault :=
  if w.files.any fun f => f.handler == h then none
  else
    match w.closure? h.directory with
    | some fault => some fault
    | none => if h.fits then none else some (.fileNameTooLong h.file)

/-- Why an emitted record cannot be written: a handler that it reaches has a file that cannot be
opened. -/
def refusal? (w : World) (r : LogRecord) : Option Fault :=
  if w.emits r then ((w.reached r).findSome? w.opening?).map OsFault.fault else none

def write (w : World) (r : LogRecord) : World :=
  { w with files := (w.reached r).foldl (fun files h => addToFile files h r.line) w.files }

/-- Only what is said under the client's own root logger belongs to the trace. -/
def post (w : World) (p : Posting) : World :=
  if w.emits p.record then
    let written := w.write p.record
    if Logger.reaches Logger.root p.record.logger then written.happen (.posted p) else written
  else w

/-- The text of each file in a log directory. -/
def logFiles (w : World) (directory : String) : List (String × String) :=
  (w.files.filter fun f => f.handler.directory == directory).map fun f =>
    (f.handler.fileName, f.text)

end World

/-- The index of the object of this number, if there are so many. -/
def objectIndex (sort : ObjectSort) (count : Nat) (number : Int) : Except Fault Nat :=
  if 1 ≤ number ∧ number ≤ count then .ok (number.toNat - 1) else .error (.missing sort number)

end EditorClient
