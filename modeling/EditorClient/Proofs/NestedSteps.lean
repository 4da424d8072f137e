import EditorClient.Proofs.AbortedActivation
import EditorClient.Proofs.ParallelSteps

/-! Two runs in which the same steps are taken during calls, all of them of a sort that cannot tell the
runs apart. -/

namespace EditorClient

mutual

/-- Whether a step is of a sort, or every step in the reactions that it brings is. -/
def Step.Every (sort : Step → Prop) : Step → Prop
  | .subscribe _ reaction _ => reaction.Every sort
  | .extendScript additions => Step.EveryAddition sort additions
  | step => sort step

def Reaction.Every (sort : Step → Prop) : Reaction → Prop
  | .mk steps _ _ _ => Step.EveryStep sort steps

def Step.EveryStep (sort : Step → Prop) : List Step → Prop
  | [] => True
  | s :: ss => s.Every sort ∧ Step.EveryStep sort ss

def Reaction.EveryReaction (sort : Step → Prop) : List Reaction → Prop
  | [] => True
  | r :: rs => r.Every sort ∧ Reaction.EveryReaction sort rs

def Step.EveryAddition (sort : Step → Prop) : List (Queue × List Reaction) → Prop
  | [] => True
  | (_, reactions) :: rest => Reaction.EveryReaction sort reactions ∧ Step.EveryAddition sort rest

end

def CleanUp.Every (sort : Step → Prop) : CleanUp → Prop
  | scripted _ reaction => reaction.Every sort
  | stopController _ => True

/-- The same steps, of a sort, as far as any are taken during calls. -/
def Step.Same (nested : Prop) (sort : Step → Prop) (step step' : Step) : Prop :=
  nested ∧ step = step' ∧ step.Every sort

def Reaction.Same (nested : Prop) (sort : Step → Prop) (r r' : Reaction) : Prop :=
  r = r' ∧ (nested → r.Every sort)

variable {nested : Prop} {sort : Step → Prop}

theorem Step.everyStep_iff {steps : List Step} :
    EveryStep sort steps ↔ ∀ s ∈ steps, s.Every sort := by
  induction steps with
  | nil => simp [EveryStep]
  | cons s ss ih => simp [EveryStep, ih]

theorem Reaction.everyReaction_iff {reactions : List Reaction} :
    EveryReaction sort reactions ↔ ∀ r ∈ reactions, r.Every sort := by
  induction reactions with
  | nil => simp [EveryReaction]
  | cons r rs ih => simp [EveryReaction, ih]

theorem Step.everyAddition_iff {additions : List (Queue × List Reaction)} :
    EveryAddition sort additions ↔ ∀ a ∈ additions, ∀ r ∈ a.2, r.Every sort := by
  induction additions with
  | nil => simp [EveryAddition]
  | cons a rest ih => simp [EveryAddition, ih, Reaction.everyReaction_iff]

theorem Reaction.every_iff {r : Reaction} : r.Every sort ↔ ∀ s ∈ r.steps, s.Every sort := by
  cases r with
  | mk steps fault exitCode output => exact Step.everyStep_iff

mutual

theorem Step.every_of_forall (h : ∀ s, sort s) (s : Step) : s.Every sort := by
  cases s with
  | subscribe name reaction context => exact Reaction.every_of_forall h reaction
  | extendScript additions => exact Step.everyAddition_of_forall h additions
  | _ => exact h _

theorem Reaction.every_of_forall (h : ∀ s, sort s) : ∀ r : Reaction, r.Every sort
  | .mk steps _ _ _ => Step.everyStep_of_forall h steps

theorem Step.everyStep_of_forall (h : ∀ s, sort s) : ∀ steps, Step.EveryStep sort steps
  | [] => trivial
  | s :: ss => ⟨s.every_of_forall h, Step.everyStep_of_forall h ss⟩

theorem Reaction.everyReaction_of_forall (h : ∀ s, sort s) : ∀ rs, Reaction.EveryReaction sort rs
  | [] => trivial
  | r :: rs => ⟨r.every_of_forall h, Reaction.everyReaction_of_forall h rs⟩

theorem Step.everyAddition_of_forall (h : ∀ s, sort s) : ∀ l, Step.EveryAddition sort l
  | [] => trivial
  | (_, reactions) :: rest =>
    ⟨Reaction.everyReaction_of_forall h reactions, Step.everyAddition_of_forall h rest⟩

end

/-- A reaction meets itself if the steps in it are of the sort, or if it takes none. -/
theorem Reaction.meets_same {r : Reaction} (h : nested → r.Every sort)
    (hflat : nested ∨ r.steps = []) : r.Meets (Step.Same nested sort) r := by
  refine ⟨List.forall₂_same.mpr fun s hs => ?_, rfl, rfl, rfl⟩
  rcases hflat with hn | hflat
  · exact ⟨hn, rfl, every_iff.mp (h hn) s hs⟩
  · rw [hflat] at hs
    cases hs

theorem Reaction.eq_of_meets {steps : Step → Step → Prop} (h : ∀ s s', steps s s' → s = s')
    {r r' : Reaction} (hr : r.Meets steps r') : r = r' := by
  obtain ⟨hsteps, hfault, hcode, houtput⟩ := hr
  cases r with
  | mk ss f n o =>
    cases r' with
    | mk ss' f' n' o' =>
      have heq : ss = ss' := List.forall₂_eq_eq_eq ▸ hsteps.imp h
      simp only [fault, exitCode, output] at hfault hcode houtput
      rw [heq, hfault, hcode, houtput]

theorem Call.eq_of_meets {steps : Step → Step → Prop} (h : ∀ s s', steps s s' → s = s')
    {c c' : Call} (hc : c.Meets steps c') : c = c' := by
  cases hc with
  | same => rfl
  | act name hr => rw [Reaction.eq_of_meets h hr]

theorem Event.eq_of_meets {steps : Step → Step → Prop} (h : ∀ s s', steps s s' → s = s')
    {e f : Event} (he : e.Meets steps f) : e = f := by
  cases he with
  | same => rfl
  | began hs => rw [h _ _ hs]
  | called hc => rw [Call.eq_of_meets h hc]

theorem Step.eq_of_same (s s' : Step) (h : Step.Same nested sort s s') : s = s' := h.2.1

/-- Either no step is taken during a call, or all that are taken, then or in reactions that come of them,
are of a sort. Only these queues matter. -/
inductive Setting.Nests (queues : Queue → Prop) (sort : Step → Prop) (s : Setting) : Prop
  | flat (h : ∀ q, queues q → s.script.IsFlat q)
  | every (hscript : ∀ q, queues q → ∀ r ∈ s.script q, r.Every sort)
    (hactions : ∀ d ∈ s.world.disposables, d.action.Every sort)

theorem Setting.nests_of_forall {queues : Queue → Prop} (h : ∀ step, sort step) (s : Setting) :
    s.Nests queues sort := by
  refine .every (fun _ _ r _ => r.every_of_forall h) fun d _ => ?_
  cases d.action with
  | scripted name reaction => exact reaction.every_of_forall h
  | stopController controller => trivial

theorem Setting.Nests.mono {queues queues' : Queue → Prop} {s : Setting} (h : s.Nests queues sort)
    (hqueues : ∀ q, queues' q → queues q) : s.Nests queues' sort := by
  cases h with
  | flat hflat => exact .flat fun q hq => hflat q (hqueues q hq)
  | every hscript hactions => exact .every (fun q hq => hscript q (hqueues q hq)) hactions

theorem Setting.Nests.exists_same {queues : Queue → Prop} {s : Setting} (h : s.Nests queues sort) :
    ∃ nested : Prop,
      (∀ q, queues q →
        List.Forall₂ (Reaction.Meets (Step.Same nested sort)) (s.script q) (s.script q)) ∧
      List.Forall₂ (Disposable.Meets (Reaction.Same nested sort)) s.world.disposables
        s.world.disposables := by
  have hdisposables : ∀ nested : Prop,
      (∀ d ∈ s.world.disposables, nested → d.action.Every sort) →
        List.Forall₂ (Disposable.Meets (Reaction.Same nested sort)) s.world.disposables
          s.world.disposables := by
    intro nested hactions
    refine List.forall₂_same.mpr fun d hd => ⟨?_, rfl⟩
    have haction := hactions d hd
    cases ha : d.action with
    | scripted name reaction =>
      rw [ha] at haction
      exact .scripted name ⟨rfl, haction⟩
    | stopController controller => exact .stopController controller
  cases h with
  | flat hflat =>
    refine ⟨False, fun q hq => ?_, hdisposables False fun _ _ => False.elim⟩
    exact List.forall₂_same.mpr fun r hr => Reaction.meets_same False.elim (.inr (hflat q hq r hr))
  | every hscript hactions =>
    refine ⟨True, fun q hq => ?_, hdisposables True fun d hd _ => hactions d hd⟩
    exact List.forall₂_same.mpr fun r hr =>
      Reaction.meets_same (fun _ => hscript q hq r hr) (.inl trivial)

theorem Step.not_isExtension_of_not_isReactive {step : Step} (h : step.isReactive = false) :
    step.isExtension = false := by
  cases step <;> simp_all [isReactive, isExtension]

/-- An activation may run commands to check a dependency. -/
def Step.mayRunCommand : Step → Bool
  | activate .. => true
  | step => step.runsCommand

theorem Step.mayRunCommand_of_runsCommand {step : Step} (h : step.runsCommand = true) :
    step.mayRunCommand = true := by
  unfold mayRunCommand
  split
  · rfl
  · exact h

namespace Contrast

variable {κ : Contrast}

/-- The steps of the sort correspond to themselves, and so do those that bring reactions. -/
theorem nests_same (hsteps : κ.steps = Step.Same nested sort)
    (hactions : κ.actions = Reaction.Same nested sort)
    (hcommands : ∀ {l l' m m'}, κ.commands l l' → List.Forall₂ (Reaction.Meets κ.steps) m m' →
      κ.commands (l ++ m) (l' ++ m')) :
    κ.Nests fun step step' => nested ∧ step = step' ∧ step.isReactive = false ∧ sort step where
  commands := hcommands
  pairs := by
    intro step step' h
    rw [hsteps] at h
    obtain ⟨hn, rfl, hevery⟩ := h
    cases step with
    | subscribe name reaction context =>
      refine .subscribe name context ?_
      rw [hactions]
      exact ⟨rfl, fun _ => hevery⟩
    | extendScript additions =>
      refine .extendScript (List.forall₂_same.mpr fun a ha => ⟨rfl, ?_⟩)
      refine List.forall₂_same.mpr fun r hr => ?_
      rw [hsteps]
      exact Reaction.meets_same (fun _ => Step.everyAddition_iff.mp hevery a ha r hr) (.inl hn)
    | _ => exact .plain ⟨hn, rfl, rfl, hevery⟩

/-- Nested steps of a sort keep two runs together if those that may run commands find these coming to
the same, and if those that look at how a context is fitted find nothing else there. -/
theorem keeps_same (hsteps : κ.steps = Step.Same nested sort)
    (hactions : κ.actions = Reaction.Same nested sort) (hlogs : κ.logs = Eq)
    (happend : ∀ {l l' m m'}, κ.commands l l' → List.Forall₂ (Reaction.Meets κ.steps) m m' →
      κ.commands (l ++ m) (l' ++ m'))
    (hcommand : ∀ step, sort step → step.mayRunCommand = true →
      ∀ l l', κ.commands l l' ↔ List.Forall₂ (Reaction.Meets κ.steps) l l')
    (hconfiguration : ∀ (c : Nat) heading x, sort (.configuration (c + 1) heading) →
      (κ.context = c → κ.fitted x.fitting) →
      (κ.contextAt c x).configuration heading = x.configuration heading)
    (harrange : ∀ (take : Step → Setting → Setting) (i c : Nat) b x,
      sort (.activate (i + 1) (c + 1)) →
      (∀ program module notifier, κ.Blind take (ensureDependency program module notifier)) →
      (κ.bootstrap = i → κ.debugging b.config.debugClient) →
      (κ.context = c → κ.fitted x.fitting) →
      κ.Parallel take Eq (Bootstrap.arrange b.config x)
        (Bootstrap.arrange (κ.bootstrapAt i b).config (κ.contextAt c x)))
    (limit depth : Nat) : κ.Keeps (Step.leave limit depth) := by
  refine ⟨remembers_leave limit depth, fun step step' s t hstep hst hs ht => ?_⟩
  refine ((nests_same hsteps hactions happend).perform (fun ⟨_, heq, hreactive, _⟩ => ?_)
    (fun depth step step' hkeeps ⟨hn, heq, hreactive, hsort⟩ => ?_) depth hstep hst hs ht).2
  · exact heq ▸ ⟨Step.not_isExtension_of_not_isReactive hreactive,
      Step.not_isExtension_of_not_isReactive hreactive⟩
  · subst heq
    have hupheld : κ.Upheld (Step.leave limit depth) := hkeeps.upheld hlogs
    refine hupheld.procedure limit hreactive (fun hr => ?_)
      (fun hc => hkeeps.blind_process (hcommand step hsort (Step.mayRunCommand_of_runsCommand hc)))
      (hupheld.logging limit hlogs) fun hf => ?_
    · rw [hactions] at hr
      rw [hsteps]
      exact hr.1 ▸ Reaction.meets_same hr.2 (.inl hn)
    · cases step with
      | configuration context heading =>
        exact Upheld.configuration limit heading fun c x hc => hconfiguration c heading x (hc ▸ hsort)
      | activate bootstrap context =>
        have hchecking := hupheld.checking (hkeeps.blind_process (hcommand _ hsort rfl))
        refine hupheld.activation limit fun i c b x hi hc => ?_
        subst hi hc
        exact harrange _ i c b x hsort hchecking.ensureDependency
      | _ => cases hf

/-- All that a contrast may set apart. -/
theorem Worlds.frame {v w : World} (h : κ.Worlds v w) :
    w = { v with
      contexts := v.contexts.modify κ.context κ.refit
      bootstraps := v.bootstraps.modify κ.bootstrap κ.reset
      disposables := w.disposables
      handlers := w.handlers
      levels := w.levels
      files := w.files
      logDirectory := w.logDirectory
      formerDirectories := w.formerDirectories
      trace := w.trace } := by
  cases w with
  | mk =>
    simp only [World.mk.injEq]
    exact ⟨h.contexts, h.configs, h.bootstraps, h.controllers, h.sessionCalls, h.sessions, trivial,
      h.subscribed, trivial, trivial, trivial, trivial, trivial, h.workingDirectory, h.connections, trivial⟩

/-- Where only the fittings of a context, the debugging of a client and the traces differ, these are all
the differences. -/
theorem Worlds.eq {v w : World} (h : κ.Worlds v w) (hactions : ∀ r r', κ.actions r r' → r = r')
    (hlogs : κ.logs = Eq) :
    w = { v with
      contexts := v.contexts.modify κ.context κ.refit
      bootstraps := v.bootstraps.modify κ.bootstrap κ.reset
      trace := w.trace } := by
  have hdisposables : w.disposables = v.disposables := by
    refine (List.forall₂_eq_eq_eq ▸ h.disposables.imp fun d d' hd => ?_ :
      v.disposables = w.disposables).symm
    obtain ⟨haction, hdisposed⟩ := hd
    cases d with
    | mk action disposed =>
      cases d' with
      | mk action' disposed' =>
        cases haction with
        | scripted name hr => rw [hactions _ _ hr, show disposed = disposed' from hdisposed]
        | stopController controller => rw [show disposed = disposed' from hdisposed]
  have hlog := h.logState_eq hlogs
  simp only [World.logState, LogState.mk.injEq] at hlog
  refine h.frame.trans ?_
  rw [hdisposables, hlog.1, hlog.2.1, hlog.2.2.1, hlog.2.2.2.1, hlog.2.2.2.2]

/-- Conversely, worlds with no other differences may be those of two runs. -/
theorem Worlds.of_eq {v w : World}
    (hw : w = { v with
      contexts := v.contexts.modify κ.context κ.refit
      bootstraps := v.bootstraps.modify κ.bootstrap κ.reset
      trace := w.trace })
    (hcontext : κ.LeavesContexts ∨ ∃ x, v.contexts[κ.context]? = some x ∧ κ.fitted x.fitting)
    (hbootstrap : κ.LeavesBootstraps ∨
      ∃ b, v.bootstraps[κ.bootstrap]? = some b ∧ κ.debugging b.config.debugClient)
    (hdisposables : List.Forall₂ (Disposable.Meets κ.actions) v.disposables v.disposables)
    (hlogs : κ.logs = Eq) (htrace : κ.traces v.trace w.trace) :
    κ.Worlds v w where
  contexts := by rw [hw]
  context := hcontext
  bootstraps := by rw [hw]
  bootstrap := hbootstrap
  configs := by rw [hw]
  controllers := by rw [hw]
  sessionCalls := by rw [hw]
  sessions := by rw [hw]
  disposables := by
    rw [hw]
    exact hdisposables
  subscribed := by rw [hw]
  workingDirectory := by rw [hw]
  connections := by rw [hw]
  logs := by
    rw [hlogs, hw]
    rfl
  trace := htrace

/-- Scripts whose steps correspond only to themselves differ in what commands come to. -/
theorem Scripts.eq {s t : Script} (h : κ.Scripts s t) (hsteps : ∀ s s', κ.steps s s' → s = s')
    {q : Queue} (hq : q ≠ .process) : s q = t q :=
  List.forall₂_eq_eq_eq ▸ (h.queue q hq).imp fun _ _ => Reaction.eq_of_meets hsteps

end Contrast

end EditorClient
