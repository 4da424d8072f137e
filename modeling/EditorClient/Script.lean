import EditorClient.Enquiry
import EditorClient.ExtensionPath

/-! Steps that a host takes, and how its collaborators react to the client's calls. A reaction may
take steps of its own before the call ends, and may end it with a fault. -/

namespace EditorClient

/-- The collaborators whose reactions a script gives, each in its own queue. -/
inductive Queue where
  | process
  | makeClient
  | connect
  | setWriter
  | readLoop
  | startServer
  | beginHandshake
  | finishHandshake
  | shutdown
  | exit
  | stopClient
  | closeWriter
  | fileEvent
  | notify (severity : Severity)
deriving DecidableEq, Repr

/-- Where the host keeps log files, with why it cannot be made and why no file can be opened in it. -/
structure LogDirectory where
  path : String
  refusal : Option Fault
  closure : Option OsFault
deriving Repr

namespace LogDirectory

def usable (path : String) : LogDirectory := ⟨path, none, none⟩

def refused (path : String) (fault : Fault) : LogDirectory :=
  ⟨path, some fault, OsFault.ofFault? fault⟩

end LogDirectory

/-- A run mode as a step gives it: any value, or a member of the modes by name. -/
inductive ModeChoice where
  | value (v : Value)
  | member (v : Value)
deriving Repr

def ModeChoice.hostMode : ModeChoice → Except Fault HostMode
  | value v => .ok (.value v)
  | member v =>
    match Mode.ofValue? v with
    | some m => .ok (.mode m)
    | none => .error (.notMember v.literal "Mode")

mutual

/-- Numbers name objects from one, in the order in which they were made. -/
inductive Step where
  | enquire (e : Enquiry)
  | resolveMode (mode : ModeChoice) (debugClient : Bool)
  | selectTransport (mode : Value) (port : Int) (extension : Option Path) (interpreter : Value)
      (server : String)
  | runCommand (command : List Value)
  | isImportable (interpreter : Value) (module : String)
  | install (interpreter : Value) (module : String)
  | ensureDependency (interpreter : Value) (module : String) (notifier : Notifier)
  | connect (host : String) (port : Int)
  | notify (notifier : Notifier) (notice : Notice)
  | extendScript (additions : List (Queue × List Reaction))
  | setLogDirectory (directory : LogDirectory)
  | logDirectory
  | openChannel (name : String)
  | writeChannel (name : String) (level : Int) (text : String)
  | readLogs (directory : String)
  | newContext (path : ExtensionPath) (mode : ModeChoice) (settings : Value) (notifier : Notifier)
  | configuration (context : Int) (heading : String)
  | subscribe (name : String) (reaction : Reaction) (context : Option Int)
  | dispose (disposable : Int)
  | disposeAt (context index : Int)
  | disposeContext (context : Int)
  | newConfig (c : Config)
  | newConfigFrom (env : Config.Environment)
  | newBootstrap (config : Option Int)
  | activate (bootstrap context : Int)
  | deactivate (bootstrap : Int)
  | newController (notifier : Notifier)
  | startController (controller session context : Int)
  | stopController (controller : Int)
  | buildSession (transport : Transport) (options : SessionOptions)
  | newSession (name : Value) (transport : Transport) (options : SessionOptions)
  | startSession (session : Int)
  | stopSession (session : Int)
  | handles (session : Int) (uri language : String)
  | changeFile (session : Int) (path : Path) (change : Int)
  | serverMessage (session : Int) (severity : Int) (text : String)
  | serverExit (session : Int) (process code : Option Int)
  | serverError (session : Int) (fault : Fault) (source : String)

/-- The steps taken during a call, the fault that ends it if there is one, and what a command leaves
behind. -/
inductive Reaction where
  | mk (steps : List Step) (fault : Option Fault) (exitCode : Int) (output : List UInt8)

end

namespace Reaction

def steps : Reaction → List Step
  | mk steps _ _ _ => steps

def fault : Reaction → Option Fault
  | mk _ fault _ _ => fault

def exitCode : Reaction → Int
  | mk _ _ exitCode _ => exitCode

def output : Reaction → List UInt8
  | mk _ _ _ output => output

/-- The call just ends. -/
def plain : Reaction := mk [] none 0 []

end Reaction

abbrev Script := Queue → List Reaction

namespace Script

def empty : Script := fun _ => []

def append (s : Script) (queue : Queue) (reactions : List Reaction) : Script :=
  fun q => if q = queue then s q ++ reactions else s q

def extend (s : Script) (additions : List (Queue × List Reaction)) : Script :=
  additions.foldl (fun s a => s.append a.1 a.2) s

def rest (s : Script) (queue : Queue) : Script :=
  fun q => if q = queue then (s q).tail else s q

/-- A queue that has run out gives plain reactions. -/
def next (s : Script) (queue : Queue) : Reaction := (s queue).headD .plain

end Script

mutual

/-- The number of steps in a step, with those of the reactions it brings. -/
def Step.size : Step → Nat
  | .subscribe _ reaction _ => reaction.size + 1
  | .extendScript additions => Step.additionsSize additions + 1
  | _ => 1

def Reaction.size : Reaction → Nat
  | .mk steps _ _ _ => Step.sizes steps

def Step.sizes : List Step → Nat
  | [] => 0
  | s :: ss => s.size + Step.sizes ss

def Reaction.sizes : List Reaction → Nat
  | [] => 0
  | r :: rs => r.size + Reaction.sizes rs

def Step.additionsSize : List (Queue × List Reaction) → Nat
  | [] => 0
  | (_, reactions) :: rest => Reaction.sizes reactions + Step.additionsSize rest

end

end EditorClient
