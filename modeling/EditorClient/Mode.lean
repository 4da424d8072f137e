import EditorClient.Text.LowerCase
import EditorClient.Value

/-! How the server is reached, and the run mode that the host gives. -/

namespace EditorClient

inductive Mode where
  | development
  | production
deriving DecidableEq, Repr

namespace Mode

def all : List Mode := [development, production]

def name : Mode → String
  | development => "development"
  | production => "production"

def ofValue? : Value → Option Mode
  | .text s => all.find? fun m => m.name == s
  | _ => none

end Mode

/-- The run mode of the host: any value from its settings, or a mode itself. -/
inductive HostMode where
  | value (v : Value)
  | mode (m : Mode)
deriving Repr

namespace HostMode

def shown : HostMode → String
  | value v => v.shown
  | mode m => m.name

/-- Hosts under test run in production; upper case does not matter. -/
def mode? : HostMode → Option Mode
  | mode m => some m
  | value v =>
    match String.ofList (lowerCase v.shown.toList) with
    | "development" => some .development
    | "production" => some .production
    | "test" => some .production
    | _ => none

end HostMode

end EditorClient
