import EditorClient.Fault

/-! Messages that the user sees, and who shows them. -/

namespace EditorClient

inductive Severity where
  | information
  | warning
  | error
deriving DecidableEq, Repr

namespace Severity

def name : Severity → String
  | information => "information"
  | warning => "warning"
  | error => "error"

def all : List Severity := [information, warning, error]

/-- The log level of a message of this severity. -/
def level : Severity → Int
  | information => 20
  | warning => 30
  | error => 40

/-- The name under which a host offers to show such messages. -/
def method (s : Severity) : String := "show_" ++ s.name ++ "_message"

end Severity

inductive Notice where
  | dependencyMissing (module interpreter : String)
  | installationFailed (module : String)
  | installationDone (module : String)
  | startFailed (cause : Fault)
  | plain (severity : Severity) (text : String)
deriving Repr

namespace Notice

def severity : Notice → Severity
  | dependencyMissing .. => .warning
  | installationFailed _ | startFailed _ => .error
  | installationDone _ => .information
  | plain severity _ => severity

def text : Notice → String
  | dependencyMissing module interpreter =>
    "Could not find " ++ module ++ " in " ++ interpreter ++ ", attempting to install now"
  | installationFailed module => "Could not install " ++ module
  | installationDone module => "Successfully installed " ++ module
  | startFailed cause => "Failed to start the MEDFORD language server: " ++ cause.message
  | plain _ text => text

end Notice

/-- A host without a user interface has its messages written to a log; a host may also have nobody
to show them. -/
inductive Notifier where
  | host
  | log (logger : String)
  | absent
deriving DecidableEq, Repr

end EditorClient
