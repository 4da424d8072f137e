import EditorClient.Proofs.Preparatory
import EditorClient.Step

/-! Steps by which a host only asks for something, tells something or keeps a configuration. What is true
of the few things that they do is true of all of them. -/

namespace EditorClient

open Procedure

def Step.isIncidental : Step → Bool
  | enquire _ | resolveMode .. | selectTransport .. | runCommand _ | isImportable .. | install ..
  | ensureDependency .. | notify .. | extendScript _ | logDirectory | readLogs _ | configuration ..
  | newConfig _ | newConfigFrom _ | handles .. | serverMessage .. | serverExit .. | serverError .. => true
  | _ => false

structure Incidental (good : ∀ {α : Type}, Procedure α → Prop) : Prop extends Preparing good where
  ask : ∀ {α : Type} (f : World → α), good (Procedure.ask f)
  index : ∀ {α : Type} (sort : ObjectSort) (objects : World → List α) (number : Int),
    good (Procedure.index sort objects number)
  askDirectory : good (Procedure.happen .askedLogDirectory)
  addConfig : ∀ c, good (change (Host.addConfig c))

namespace Incidental

variable {good : ∀ {α : Type}, Procedure α → Prop}

section Parts

variable (h : Incidental good)
include h

theorem makeLogDirectory : good makeLogDirectory := by
  refine h.bind h.askDirectory fun _ => h.bind (h.ask _) fun directory => ?_
  split
  · exact h.pure _
  · exact h.throw _

theorem modeOf (v : Value) : good (Host.modeOf v) := by
  unfold Host.modeOf
  split
  · exact h.pure _
  · exact h.throw _

theorem keepConfig (c : Except ConfigurationProblem Config) : good (Host.keepConfig c) := by
  cases c with
  | error problem => exact h.throw _
  | ok c => exact h.bind (h.addConfig c) fun _ => h.pure _

theorem handles (i : Nat) (uri language : String) : good (Session.handles i uri language) := by
  refine h.bind (h.find _ _ _) fun s => ?_
  split
  · exact h.pure _
  · exact h.throw _

/-- What a server says is posted to the channel of its session. -/
theorem postFor (session : Int) (p : Session → Posting) :
    good (Host.sessionIndex session >>= fun i => Host.answerNothing do
      Procedure.post (p (← Session.find i))) :=
  h.bind (h.index _ _ _) fun _ =>
    h.bind (h.bind (h.find _ _ _) fun _ => h.post _) fun _ => h.pure _

end Parts

theorem procedure (h : Incidental good) (limit : Nat) {step : Step} (hstep : step.isIncidental = true) :
    good (step.procedure limit) := by
  cases step with
  | enquire e => exact h.ofExcept _
  | resolveMode choice debugClient =>
    exact h.bind (h.ofExcept _) fun _ => h.bind (h.resolveMode _ _) fun _ => h.pure _
  | selectTransport v port extension interpreter server =>
    exact h.bind (h.modeOf v) fun _ => h.bind (h.selectTransport _ _ _ _ _) fun _ => h.pure _
  | runCommand command =>
    exact h.bind (h.ofExcept _) fun _ => h.bind (h.runCommand _) fun _ => h.pure _
  | isImportable interpreter module =>
    exact h.bind (h.ofExcept _) fun _ => h.bind (h.succeeds _ _) fun _ => h.pure _
  | install interpreter module =>
    exact h.bind (h.ofExcept _) fun _ => h.bind (h.succeeds _ _) fun _ => h.pure _
  | ensureDependency interpreter module notifier =>
    exact h.bind (h.ofExcept _) fun _ => h.bind (h.ensureDependency _ _ _) fun _ => h.pure _
  | notify notifier notice => exact h.bind (h.notify _ _) fun _ => h.pure _
  | extendScript additions => exact h.pure _
  | logDirectory => exact h.bind h.makeLogDirectory fun _ => h.pure _
  | readLogs directory => exact h.bind (h.ask _) fun _ => h.pure _
  | configuration context heading =>
    exact h.bind (h.index _ _ _) fun _ => h.bind (h.find _ _ _) fun _ =>
      h.bind (h.ofExcept _) fun _ => h.pure _
  | newConfig c => exact h.keepConfig _
  | newConfigFrom env => exact h.keepConfig _
  | handles session uri language =>
    exact h.bind (h.index _ _ _) fun i => h.bind (h.handles i uri language) fun _ => h.pure _
  | serverMessage session severity text =>
    exact h.postFor session fun s => .message s.slug (Session.messageLevel severity) text
  | serverExit session process code => exact h.postFor session fun s => .serverExited s.slug process code
  | serverError session fault source => exact h.postFor session fun s => .serverError s.slug source fault
  | _ => cases hstep

end Incidental

end EditorClient
