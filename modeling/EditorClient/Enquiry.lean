import EditorClient.Glob
import EditorClient.Response
import EditorClient.Text.Slug

/-! Questions that need no session and leave no mark. -/

namespace EditorClient

/-- A preflight result whose status is still a text. -/
structure PreflightDraft where
  status : String
  interpreter : String
  module : String
  reason : Option String
deriving DecidableEq, Repr

def PreflightDraft.result (d : PreflightDraft) : Except Fault PreflightResult :=
  match PreflightStatus.ofName? d.status with
  | some status => .ok ⟨status, d.interpreter, d.module, d.reason⟩
  | none => .error (.notMember (quoted d.status) "PreflightStatus")

inductive Enquiry where
  | catalogue
  | isKindOf (kind base : FaultKind)
  | faultText (kind : FaultKind) (message : String)
  | installationFault (message : String) (result : Option PreflightDraft)
  | preflightResult (draft : PreflightDraft)
  | serverDirectory (extension : Path)
  | sameTransport (a b : Transport)
  | sameOptions (a b : SessionOptions)
  | acceptsDocument (filter : DocumentFilter) (uri language : String)
  | slug (name : String)
  | matchesGlob (path : Path) (glob : String)
  | config (c : Config)
  | environmentConfig (env : Config.Environment)
deriving Repr

namespace Enquiry

def ofConfig : Except ConfigurationProblem Config → Answer
  | .ok c => .ok (.config c)
  | .error problem => .error (.badConfiguration problem)

def answer : Enquiry → Answer
  | catalogue => .ok (.catalogue .standard)
  | isKindOf kind base => .ok (.flag (kind.isA base))
  | faultText kind message =>
    .ok (.faultShown (Fault.ofCollaborator kind (some message) none).message
      (Fault.literal kind message none))
  | installationFault message draft => do
    let result ← draft.mapM PreflightDraft.result
    pure (.installationShown message (Fault.literal .installation message result) result)
  | preflightResult draft => draft.result.map .preflightShown
  | serverDirectory extension => .ok (.path (EditorClient.serverDirectory extension))
  | sameTransport a b => .ok (.flag (a.same b))
  | sameOptions a b => .ok (.flag (a == b))
  | acceptsDocument filter uri language =>
    match filter.accepts uri language with
    | .ok b => .ok (.flag b)
    | .error problem => .error (.badUri problem)
  | slug name => .ok (.text (channelSlug name))
  | matchesGlob path glob =>
    match path.matchesGlob? glob with
    | some b => .ok (.flag b)
    | none => .error .emptyGlob
  | config c => ofConfig c.checked
  | environmentConfig env => ofConfig (Config.ofEnvironment env)

end Enquiry

end EditorClient
