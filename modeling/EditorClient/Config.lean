import EditorClient.Fault
import EditorClient.Text.Blank
import EditorClient.Text.Integer

/-! The configuration of a bootstrap, checked when it is made or read from the environment. -/

namespace EditorClient

structure Config where
  port : Int
  server : String
  dependency : String
  debugClient : Bool
  options : SessionOptions
deriving DecidableEq, Repr

namespace Config

def standard : Config where
  port := developmentPort
  server := serverModule
  dependency := dependencyModule
  debugClient := false
  options := .standard

def checked (c : Config) : Except ConfigurationProblem Config :=
  if c.port ≤ 0 ∨ 65536 ≤ c.port then .error (.portOutOfRange c.port)
  else if c.server = "" then .error .serverModuleEmpty
  else .ok c

abbrev Environment := List (String × String)

def setting (env : Environment) (name : String) : List Char :=
  strip ((env.lookup name).getD "").toList

/-- The configured port; nothing but blanks means the standard one. -/
def environmentPort (env : Environment) : Except ConfigurationProblem Int :=
  match setting env "MFDLS_DEV_PORT" with
  | [] => .ok developmentPort
  | raw =>
    match integer? raw with
    | some n => .ok n
    | none => .error (.portNotNumber (String.ofList raw))

def affirmatives : List String := ["1", "true", "yes", "on"]

def environmentDebug (env : Environment) : Bool :=
  affirmatives.contains (String.ofList (lowerCase (setting env "MFDLS_DEBUG_CLIENT")))

def ofEnvironment (env : Environment) : Except ConfigurationProblem Config := do
  let port ← environmentPort env
  checked { standard with port := port, debugClient := environmentDebug env }

end Config

end EditorClient
