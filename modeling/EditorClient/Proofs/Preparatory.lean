import EditorClient.Bootstrap
import EditorClient.Proofs.Passage

/-! The first part of an activation, before it replaces anything. What is true of remarks, notices and
commands one by one is true of all of it. -/

namespace EditorClient

open Procedure

/-- What is true of remarks and of whatever may go wrong between them. -/
structure Remarking (good : ∀ {α : Type}, Procedure α → Prop) : Prop where
  bind : ∀ {α β : Type} {p : Procedure α} {k : α → Procedure β}, good p → (∀ a, good (k a)) →
    good (p >>= k)
  pure : ∀ {α : Type} (a : α), good (Pure.pure a : Procedure α)
  throw : ∀ {α : Type} (f : Fault), good (throw f : Procedure α)
  remark : ∀ r, good (Procedure.remark r)

/-- What is true of remarks, notices and commands. The check of a dependency finds no fault with the
configuration, so that only faults of other kinds matter here. -/
structure Checking (good : ∀ {α : Type}, Procedure α → Prop) : Prop where
  bind : ∀ {α β : Type} {p : Procedure α} {k : α → Procedure β}, good p → (∀ a, good (k a)) →
    good (p >>= k)
  recoverOs : ∀ {α : Type} {p : Procedure α} {h : Fault → Procedure α}, good p →
    (∀ f, good (h f)) → good (p.recoverOs h)
  pure : ∀ {α : Type} (a : α), good (Pure.pure a : Procedure α)
  fail : ∀ {α : Type} (f : Fault), f.kind.isA .configuration = false → good (throw f : Procedure α)
  remark : ∀ r, good (Procedure.remark r)
  post : ∀ p, good (Procedure.post p)
  notice : ∀ n, good (request (.notify n))
  command : ∀ words, good (request (.process words))

/-- What is true of all that an activation does before it replaces anything. -/
structure Preparing (good : ∀ {α : Type}, Procedure α → Prop) : Prop extends Remarking good,
    Checking good where
  recover : ∀ {α : Type} {p : Procedure α} {h : Fault → Procedure α}, good p →
    (∀ f, good (h f)) → good (p.recover h)
  find : ∀ {α : Type} (sort : ObjectSort) (objects : World → List α) (i : Nat),
    good (Procedure.find sort objects i)

variable {good : ∀ {α : Type}, Procedure α → Prop}

namespace Remarking

variable (h : Remarking good)
include h

theorem ofExcept {α : Type} (r : Except Fault α) : good (Procedure.ofExcept r) := by
  cases r with
  | ok a => exact h.pure a
  | error f => exact h.throw f

theorem underDebugging (debugClient : Bool) (m : Mode) : good (underDebugging debugClient m) := by
  unfold EditorClient.underDebugging
  split
  · exact h.bind (h.remark _) fun _ => h.pure _
  · exact h.pure _

theorem resolveMode (mode : HostMode) (debugClient : Bool) : good (resolveMode mode debugClient) := by
  cases mode with
  | mode m => exact h.underDebugging _ _
  | value v =>
    unfold EditorClient.resolveMode
    dsimp only
    split
    · exact h.underDebugging _ _
    · exact h.throw _

theorem selectTransport (mode : Mode) (port : Int) (extension : Option Path) (interpreter : Value)
    (server : String) : good (selectTransport mode port extension interpreter server) := by
  cases mode with
  | development => exact h.bind (h.remark _) fun _ => h.pure _
  | production =>
    unfold EditorClient.selectTransport
    dsimp only
    split
    · cases extension with
      | none => exact h.throw _
      | some path => exact h.bind (h.remark _) fun _ => h.bind (h.remark _) fun _ => h.pure _
    · exact h.throw _

end Remarking

namespace Checking

variable (h : Checking good)
include h

theorem notify (n : Notifier) (notice : Notice) : good (n.notify notice) := by
  cases n with
  | host => exact h.bind (h.notice notice) fun _ => h.pure ()
  | log logger => exact h.post _
  | absent => exact h.fail _ rfl

theorem runCommand (command : List String) : good (runCommand command) := by
  refine h.bind (h.remark _) fun _ => h.bind (h.command _) fun reply => ?_
  cases command with
  | nil =>
    dsimp only
    split
    · exact h.bind (h.remark _) fun _ => h.fail _ rfl
    · exact h.fail _ rfl
  | cons program args =>
    dsimp only
    split
    · exact h.bind (h.remark _) fun _ => h.bind (h.remark _) fun _ => h.pure _
    · exact h.bind (h.remark _) fun _ => h.pure _

theorem succeeds (interpreter : String) (args : List String) : good (succeeds interpreter args) :=
  h.recoverOs (h.bind (h.runCommand _) fun _ => h.pure _) fun _ =>
    h.bind (h.remark _) fun _ => h.pure _

theorem ensureDependency (interpreter module : String) (notifier : Notifier) :
    good (ensureDependency interpreter module notifier) := by
  refine h.bind (h.succeeds _ _) fun present => ?_
  cases present with
  | true => exact h.bind (h.remark _) fun _ => h.pure _
  | false =>
    refine h.bind (h.remark _) fun _ => h.bind (h.notify _ _) fun _ =>
      h.bind (h.succeeds _ _) fun installed => ?_
    cases installed with
    | true => exact h.bind (h.remark _) fun _ => h.bind (h.notify _ _) fun _ => h.pure _
    | false => exact h.bind (h.remark _) fun _ => h.bind (h.notify _ _) fun _ => h.fail _ rfl

end Checking

namespace Preparing

variable (h : Preparing good)
include h

theorem prepareSpawn (config : Config) (context : Context) (path : Path) :
    good (Bootstrap.prepareSpawn config context path) :=
  h.bind (h.ofExcept _) fun _ => h.bind (h.remark _) fun _ =>
    h.bind (h.selectTransport _ _ _ _ _) fun _ => h.bind (h.ofExcept _) fun _ =>
      h.bind (h.ensureDependency _ _ _) fun _ => h.bind (h.remark _) fun _ => h.pure _

theorem prepare (config : Config) (context : Context) (path : Path) :
    good (Bootstrap.prepare config context path) := by
  refine h.bind (h.resolveMode _ _) fun mode => h.bind (h.remark _) fun _ => ?_
  cases mode with
  | development => exact h.selectTransport _ _ _ _ _
  | production => exact h.prepareSpawn _ _ _

theorem reporting {p : Procedure Transport} (hp : good p) : good (Bootstrap.reporting p) := by
  refine h.recover hp fun f => ?_
  dsimp only
  split
  · exact h.bind (h.remark _) fun _ => h.throw _
  · exact h.throw _

end Preparing

namespace Bootstrap

/-- What an activation needs to replace what there was before. -/
def preparation (i context : Nat) : Procedure (Config × Context × Transport) := do
  let config := (← find i).config
  let c ← Context.find context
  match c.path.toPath with
  | .error kindName => throw (.badConfiguration (.extensionPathNotPath kindName))
  | .ok path =>
    Procedure.remark (.extensionPath c.path)
    let transport ← reporting (prepare config c path)
    pure (config, c, transport)

/-- The rest of an activation, once it is prepared. -/
def succession (i context : Nat) (prepared : Config × Context × Transport) : Procedure Nat := do
  replacePrevious i
  let session ← buildSession prepared.2.2 prepared.1.options
  let controller ← newController prepared.2.1.notifier
  hold i (some controller)
  let _ ← Controller.start controller session context
  pure controller

/-- Reporting a fault adds no more than a remark. -/
theorem leads_reporting {σ : Type} {way : Passage σ} {p : Procedure Transport} {s : σ}
    {post : Except Fault Transport → σ → Prop} (hp : p.Leads way s post)
    (hremark : ∀ f s', post (.error f) s' →
      post (.error f) (way.update (·.remark (.activationAborted f)) s')) :
    (reporting p).Leads way s post := by
  rw [reporting, leads_recover]
  refine hp.mono fun r s' hr => ?_
  cases r with
  | ok transport => exact hr
  | error f =>
    dsimp only [onError]
    split
    · exact hremark f s' hr
    · exact hr

theorem activate_eq (i context : Nat) :
    activate i context = preparation i context >>= succession i context := by
  rw [activate, preparation, LawfulMonad.bind_assoc]
  refine congrArg (Bind.bind (find i)) (funext fun b => ?_)
  rw [LawfulMonad.bind_assoc]
  refine congrArg (Bind.bind (Context.find context)) (funext fun c => ?_)
  cases c.path.toPath with
  | error kindName => rfl
  | ok path => simp only [LawfulMonad.bind_assoc, LawfulMonad.pure_bind, succession]

end Bootstrap

theorem Preparing.preparation (h : Preparing good) (i context : Nat) :
    good (Bootstrap.preparation i context) := by
  refine h.bind (h.find _ _ _) fun b => h.bind (h.find _ _ _) fun c => ?_
  split
  · exact h.throw _
  · exact h.bind (h.remark _) fun _ => h.bind (h.reporting (h.prepare _ _ _)) fun _ => h.pure _

end EditorClient
