import EditorClient.Text.Quoted

/-! What the check of a server dependency found or did. -/

namespace EditorClient

inductive PreflightStatus where
  | present
  | installed
  | installFailed
deriving DecidableEq, Repr

namespace PreflightStatus

def all : List PreflightStatus := [present, installed, installFailed]

def name : PreflightStatus → String
  | present => "present"
  | installed => "installed"
  | installFailed => "install_failed"

def memberName : PreflightStatus → String
  | present => "PRESENT"
  | installed => "INSTALLED"
  | installFailed => "INSTALL_FAILED"

def ofName? (s : String) : Option PreflightStatus := all.find? fun status => status.name == s

end PreflightStatus

/-- A reason is given when the installation failed. -/
structure PreflightResult where
  status : PreflightStatus
  interpreter : String
  module : String
  reason : Option String
deriving DecidableEq, Repr

namespace PreflightResult

def ok (r : PreflightResult) : Bool := r.status != .installFailed

def shown (r : PreflightResult) : String :=
  "PreflightResult(status=<PreflightStatus." ++ r.status.memberName ++ ": '" ++ r.status.name ++
    "'>, interpreter=" ++ quoted r.interpreter ++ ", module=" ++ quoted r.module ++
    ", reason=" ++ (r.reason.map quoted).getD "None" ++ ")"

end PreflightResult

end EditorClient
