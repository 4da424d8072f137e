import EditorClient.Notifier
import EditorClient.Text.Blank
import EditorClient.Text.Utf8

/-! The dependency of a spawned server must be importable by its interpreter. If it is not, one
installation is tried. Only exit codes count. -/

namespace EditorClient

/-- The words of a command line are texts. -/
def commandWord (position : Nat) : Value → Except Fault String
  | .text s => .ok s
  | v => .error (.notText position v.kindName)

def commandWords (position : Nat) : List Value → Except Fault (List String)
  | [] => .ok []
  | v :: vs => do
    let word ← commandWord position v
    let words ← commandWords (position + 1) vs
    pure (word :: words)

def runCommand (command : List String) : Procedure Int := do
  Procedure.remark (.commandStarted command)
  let reply ← Procedure.request (.process command)
  if !reply.output.isEmpty then
    Procedure.remark (.commandOutput (String.ofList (trimEnd isBlank (readUtf8 reply.output))))
  match command with
  | [] => throw .commandEmpty
  | program :: _ =>
    Procedure.remark (.commandExited program reply.exitCode)
    pure reply.exitCode

/-- An interpreter that cannot be launched counts as a failed command. -/
def succeeds (interpreter : String) (args : List String) : Procedure Bool :=
  Procedure.recoverOs
    (do
      let code ← runCommand (interpreter :: args)
      pure (code == 0))
    fun fault => do
      Procedure.remark (.notLaunched interpreter fault)
      pure false

def isImportable (interpreter module : String) : Procedure Bool :=
  succeeds interpreter ["-c", "import " ++ module]

def installModule (interpreter module : String) : Procedure Bool :=
  succeeds interpreter ["-m", "pip", "install", module]

def failedInstallation (interpreter module : String) : PreflightResult where
  status := .installFailed
  interpreter := interpreter
  module := module
  reason := some ("`" ++ interpreter ++ " -m pip install " ++ module ++ "` failed")

def ensureDependency (interpreter module : String) (notifier : Notifier) :
    Procedure PreflightResult := do
  if ← isImportable interpreter module then
    Procedure.remark (.dependencyPresent module interpreter)
    pure ⟨.present, interpreter, module, none⟩
  else
    Procedure.remark (.dependencyMissing module interpreter)
    notifier.notify (.dependencyMissing module interpreter)
    if ← installModule interpreter module then
      Procedure.remark (.installationDone module interpreter)
      notifier.notify (.installationDone module)
      pure ⟨.installed, interpreter, module, none⟩
    else
      Procedure.remark (.installationFailed module interpreter)
      notifier.notify (.installationFailed module)
      throw (.notInstalled (failedInstallation interpreter module))

end EditorClient
