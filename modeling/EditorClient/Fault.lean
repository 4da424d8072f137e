import EditorClient.Fault.Kind
import EditorClient.Preflight.Result
import EditorClient.LifecycleState
import EditorClient.Transport

/-! What can go wrong, by its cause. Wording and kind are functions of the cause. -/

namespace EditorClient

/-- What is wrong with the user's configuration. -/
inductive ConfigurationProblem where
  | unknownMode (mode : Value)
  | interpreterNotSet
  | extensionPathMissing
  | extensionPathNotPath (kindName : String)
  | portOutOfRange (port : Int)
  | portNotNumber (text : String)
  | serverModuleEmpty
deriving Repr

namespace ConfigurationProblem

def message : ConfigurationProblem → String
  | unknownMode mode => "Unknown extension mode: " ++ mode.literal
  | interpreterNotSet => "`python.pythonPath` is not set in the editor settings."
  | extensionPathMissing => "Extension path is required to locate the language server"
  | extensionPathNotPath kindName => "extension_path must be a path, got " ++ kindName
  | portOutOfRange port => "dev_port must be 1-65535, got " ++ toString port
  | portNotNumber text => "MFDLS_DEV_PORT is not a port number: " ++ quoted text
  | serverModuleEmpty => "server_module must not be empty"

end ConfigurationProblem

def UriProblem.message : UriProblem → String
  | brackets => "Invalid IPv6 URL"
  | futureAddress => "IPvFuture address is invalid"
  | unknownAddress host => quoted host ++ " does not appear to be an IPv4 or IPv6 address"
  | bracketedOctets => "An IPv4 address cannot be in brackets"
  | normalization authority =>
    "netloc '" ++ authority ++ "' contains invalid characters under NFKC normalization"

/-- The sorts of things that a run numbers. -/
inductive ObjectSort where
  | contexts
  | configs
  | bootstraps
  | controllers
  | sessions
  | disposables
  | subscription
deriving DecidableEq, Repr

def ObjectSort.name : ObjectSort → String
  | contexts => "contexts"
  | configs => "configs"
  | bootstraps => "bootstraps"
  | controllers => "controllers"
  | sessions => "sessions"
  | disposables => "disposables"
  | subscription => "subscription"

/-- Collaborators raise faults of any kind and text; the others arise in the client. -/
inductive Fault where
  | raised (kind : FaultKind) (text : String)
  | badConfiguration (problem : ConfigurationProblem)
  | notInstalled (result : PreflightResult)
  | notConnected (host : String) (port : Int) (cause : Fault)
  | notSpawned (command : Value) (directory : Path) (cause : Fault)
  | handshakeFailed (session : Value) (cause : Fault)
  | startedTwice (session : Value)
  | startedFrom (state : LifecycleState)
  | unsupportedTransport (v : Value)
  | notText (position : Nat) (kindName : String)
  | commandEmpty
  | noAttribute (kindName name : String)
  | notMember (shown enumeration : String)
  | notInteger (text : String)
  | badUri (problem : UriProblem)
  | emptyGlob
  | relativePath
  | fileNameTooLong (file : String)
  | missing (sort : ObjectSort) (number : Int)
  | limitReached
deriving Repr

namespace Fault

def kind : Fault → FaultKind
  | raised kind _ => kind
  | badConfiguration _ => .configuration
  | notInstalled _ => .installation
  | notConnected .. | notSpawned .. => .transportConnect
  | handshakeFailed .. | startedTwice _ | startedFrom _ => .sessionStart
  | unsupportedTransport _ | notText .. => .type
  | commandEmpty => .index
  | noAttribute .. => .missingAttribute
  | notMember .. | notInteger _ | badUri _ | emptyGlob | relativePath => .value
  | fileNameTooLong _ => .os
  | missing .. => .missingObject
  | limitReached => .limitReached

def message : Fault → String
  | raised _ text => text
  | badConfiguration problem => problem.message
  | notInstalled result => "could not install " ++ result.module
  | notConnected host port cause =>
    "Could not connect to language server at " ++ host ++ ":" ++ toString port ++ ": " ++
      cause.message
  | notSpawned command directory cause =>
    "Could not spawn " ++ command.shown ++ " in " ++ directory.toString ++ ": " ++ cause.message
  | handshakeFailed session cause =>
    "Initialize handshake with " ++ session.literal ++ " failed: " ++ cause.message
  | startedTwice session => "Session " ++ session.literal ++ " cannot be started twice"
  | startedFrom state => "Cannot start a session from state " ++ state.name
  | unsupportedTransport v => "Unsupported transport: " ++ v.literal
  | notText position kindName =>
    "sequence item " ++ toString position ++ ": expected str instance, " ++ kindName ++ " found"
  | commandEmpty => "tuple index out of range"
  | noAttribute kindName name => "'" ++ kindName ++ "' object has no attribute '" ++ name ++ "'"
  | notMember shown enumeration => shown ++ " is not a valid " ++ enumeration
  | notInteger text => "not a decimal integer: " ++ quoted text
  | badUri problem => problem.message
  | emptyGlob => "empty pattern"
  | relativePath => "relative path can't be expressed as a file URI"
  | fileNameTooLong file => "[Errno 36] File name too long: " ++ quoted file
  | missing sort number => sort.name ++ " " ++ toString number
  | limitReached => "limit reached"

/-- The fault that a fault reports, if it reports one. -/
def cause : Fault → Option Fault
  | notConnected _ _ cause | notSpawned _ _ cause | handshakeFailed _ cause => some cause
  | badConfiguration (.portNotNumber text) => some (notInteger text)
  | _ => none

/-- The result that a failed installation carries. -/
def result : Fault → Option PreflightResult
  | notInstalled result => some result
  | _ => none

def isOrdinary (f : Fault) : Bool := f.kind.isOrdinary

def isOs (f : Fault) : Bool := f.kind.isOs

/-- The literal form of a fault of a kind, with a message. -/
def literal (kind : FaultKind) (message : String) (result : Option PreflightResult) : String :=
  match kind with
  | .installation =>
    "InstallationError(" ++ quoted message ++ ", result=" ++
      (result.map PreflightResult.shown).getD "None" ++ ")"
  | kind => kind.label ++ "(" ++ quoted message ++ ")"

/-- The fault that a collaborator raises. A number is shown before the message, and may settle the
kind; the message of a missing key is quoted. -/
def ofCollaborator (kind : FaultKind) (message : Option String) (number : Option Int) : Fault :=
  match number with
  | some n =>
    raised (if kind = .os then .ofErrorNumber n else kind)
      ("[Errno " ++ toString n ++ "] " ++ message.getD "")
  | none =>
    match kind, message with
    | .key, some message => raised .key (quoted message)
    | kind, message => raised kind (message.getD "")

end Fault

/-- A fault that the operating system reports. -/
structure OsFault where
  fault : Fault
  isOs : fault.isOs = true
deriving Repr

namespace OsFault

def ofFault? (f : Fault) : Option OsFault :=
  if h : f.isOs = true then some ⟨f, h⟩ else none

def fileNameTooLong (file : String) : OsFault := ⟨.fileNameTooLong file, rfl⟩

end OsFault

end EditorClient
