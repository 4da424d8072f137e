import EditorClient.Proofs.Evolution
import EditorClient.Proofs.Moment
import EditorClient.Proofs.TraceGrowth
import Mathlib.Data.List.Forall2

/-! What may set two runs apart: how the host configured one context, whether one bootstrap debugs its
client, what commands come to, where logs are kept, and the steps that are taken during calls. All
else is the same, and stays so while both do the same. -/

namespace EditorClient

/-- Related steps are taken during the two calls, which end in the same way. -/
structure Reaction.Meets (steps : Step → Step → Prop) (r r' : Reaction) : Prop where
  steps : List.Forall₂ steps r.steps r'.steps
  fault : r.fault = r'.fault
  exitCode : r.exitCode = r'.exitCode
  output : r.output = r'.output

inductive Call.Meets (steps : Step → Step → Prop) : Call → Call → Prop
  | same (c : Call) : Call.Meets steps c c
  | act (name : String) {r r' : Reaction} (h : r.Meets steps r') :
    Call.Meets steps (.act name r) (.act name r')

inductive Event.Meets (steps : Step → Step → Prop) : Event → Event → Prop
  | same (e : Event) : Event.Meets steps e e
  | began {step step' : Step} (h : steps step step') : Event.Meets steps (.began step) (.began step')
  | called {c c' : Call} (h : c.Meets steps c') : Event.Meets steps (.called c) (.called c')

inductive CleanUp.Meets (reactions : Reaction → Reaction → Prop) : CleanUp → CleanUp → Prop
  | scripted (name : String) {r r' : Reaction} (h : reactions r r') :
    CleanUp.Meets reactions (.scripted name r) (.scripted name r')
  | stopController (controller : Nat) :
    CleanUp.Meets reactions (.stopController controller) (.stopController controller)

structure Disposable.Meets (reactions : Reaction → Reaction → Prop) (d d' : Disposable) : Prop where
  action : d.action.Meets reactions d'.action
  disposed : d.disposed = d'.disposed

theorem Reaction.meets_headD {steps : Step → Step → Prop} {l l' : List Reaction}
    (h : List.Forall₂ (Reaction.Meets steps) l l') :
    (l.headD .plain).Meets steps (l'.headD .plain) := by
  cases h with
  | nil => exact ⟨.nil, rfl, rfl, rfl⟩
  | cons hr _ => exact hr

theorem forall₂_tail {α β : Type} {R : α → β → Prop} {l : List α} {l' : List β}
    (h : List.Forall₂ R l l') : List.Forall₂ R l.tail l'.tail := by
  cases h with
  | nil => exact .nil
  | cons _ hrest => exact hrest

/-- The log files, the handlers that write them, the levels of loggers, and where new files are made. -/
structure LogState where
  handlers : List FileHandler
  levels : List (String × Int)
  files : List LogFile
  directory : LogDirectory
  formerDirectories : List LogDirectory

def World.logState (w : World) : LogState :=
  ⟨w.handlers, w.levels, w.files, w.logDirectory, w.formerDirectories⟩

theorem World.refusal?_congr {v w : World} (h : w.logState = v.logState) (r : LogRecord) :
    w.refusal? r = v.refusal? r := by
  have hemits := World.emits_of_levels (congrArg LogState.levels h) r
  simp only [logState, LogState.mk.injEq] at h
  have hopening : w.opening? = v.opening? := by
    funext x
    simp only [opening?, closure?, h]
  unfold refusal? reached
  rw [hemits, hopening, h.1]

theorem Context.id_notifier (x : Context) : (id x).notifier = x.notifier := rfl

theorem Context.id_subscriptions (x : Context) (l : List Nat) :
    id { x with subscriptions := l } = { id x with subscriptions := l } := rfl

/-- What a host says of a context, but for whom it notifies. -/
structure Fitting where
  path : ExtensionPath
  mode : HostMode
  settings : Value

def Context.fitting (x : Context) : Fitting := ⟨x.path, x.mode, x.settings⟩

/-- What sets a second run apart from a first. One context that is fitted like this is fitted
differently, though the same notifier serves it, and one bootstrap that debugs its client or not may
differ in that; nested steps, scripted actions, outcomes of commands, logs and traces are related as
given, as long as both traces keep to their bounds. -/
structure Contrast where
  context : Nat := 0
  fitted : Fitting → Prop := fun _ => True
  refit : Context → Context := id
  bootstrap : Nat := 0
  debugging : Bool → Prop := fun _ => True
  debugClient : Bool → Bool := id
  steps : Step → Step → Prop
  actions : Reaction → Reaction → Prop
  commands : List Reaction → List Reaction → Prop
  logs : LogState → LogState → Prop := Eq
  traces : List Event → List Event → Prop
  bounds : List Event → Prop := fun _ => True
  refit_notifier : ∀ x, (refit x).notifier = x.notifier := by exact Context.id_notifier
  refit_subscriptions : ∀ x l, refit { x with subscriptions := l } =
    { refit x with subscriptions := l } := by exact Context.id_subscriptions
  traces_snoc : ∀ {t u e f}, traces t u → Event.Meets steps e f → traces (t ++ [e]) (u ++ [f])
  bounds_prefix : ∀ {t u}, t <+: u → bounds u → bounds t := by exact fun _ _ => trivial

theorem modify_comm {α : Type} (l : List α) (i j : Nat) {f g : α → α}
    (h : ∀ x, f (g x) = g (f x)) : (l.modify i f).modify j g = (l.modify j g).modify i f := by
  by_cases hij : i = j
  · subst hij
    rw [List.modify_modify_eq, List.modify_modify_eq]
    exact congrArg (l.modify i) (funext fun x => (h x).symm)
  · exact List.modify_modify_ne f g l hij

theorem modify_append_of_some {α : Type} {l : List α} {i : Nat} (l' : List α) {f : α → α}
    (h : (∀ x, f x = x) ∨ ∃ x, l[i]? = some x) :
    (l ++ l').modify i f = l.modify i f ++ l' := by
  rcases h with h | ⟨x, hx⟩
  · rw [show f = id from funext h, List.modify_id, List.modify_id]
  · have hi := (List.getElem?_eq_some_iff.mp hx).1
    refine List.ext_getElem? fun j => ?_
    simp only [List.getElem?_modify, List.getElem?_append, List.length_modify]
    by_cases hj : j < l.length
    · simp only [hj, if_true]
    · have hne : i ≠ j := by omega
      simp [hj, hne]

namespace Contrast

variable {κ : Contrast}

/-- The contrast says nothing of a context. -/
def LeavesContexts (κ : Contrast) : Prop := (∀ x, κ.refit x = x) ∧ ∀ f, κ.fitted f

/-- The contrast says nothing of a bootstrap. -/
def LeavesBootstraps (κ : Contrast) : Prop :=
  (∀ d, κ.debugClient d = d) ∧ ∀ d, κ.debugging d

def reset (κ : Contrast) (b : Bootstrap) : Bootstrap :=
  { b with config := { b.config with debugClient := κ.debugClient b.config.debugClient } }

theorem reset_eq_self (κ : Contrast) (h : ∀ d, κ.debugClient d = d) (b : Bootstrap) :
    κ.reset b = b := by
  rw [reset, h]

theorem refit_subscriptions_eq (κ : Contrast) (x : Context) :
    (κ.refit x).subscriptions = x.subscriptions := by
  rw [show x = { x with subscriptions := x.subscriptions } from rfl, κ.refit_subscriptions]

/-- How the second run finds the context at this index, which the first finds like this. -/
def contextAt (κ : Contrast) (i : Nat) (x : Context) : Context :=
  if κ.context = i then κ.refit x else x

def bootstrapAt (κ : Contrast) (i : Nat) (b : Bootstrap) : Bootstrap :=
  if κ.bootstrap = i then κ.reset b else b

theorem contextAt_eq_self (h : ∀ x, κ.refit x = x) (i : Nat) (x : Context) :
    κ.contextAt i x = x := by
  unfold contextAt
  split
  · exact h x
  · rfl

theorem bootstrapAt_eq_self (h : ∀ d, κ.debugClient d = d) (i : Nat) (b : Bootstrap) :
    κ.bootstrapAt i b = b := by
  unfold bootstrapAt
  split
  · exact κ.reset_eq_self h b
  · rfl

@[simp]
theorem contextAt_notifier (i : Nat) (x : Context) :
    (κ.contextAt i x).notifier = x.notifier := by
  unfold contextAt
  split
  · exact κ.refit_notifier x
  · rfl

@[simp]
theorem contextAt_subscriptions (i : Nat) (x : Context) :
    (κ.contextAt i x).subscriptions = x.subscriptions := by
  unfold contextAt
  split
  · exact κ.refit_subscriptions_eq x
  · rfl

@[simp]
theorem bootstrapAt_options (i : Nat) (b : Bootstrap) :
    (κ.bootstrapAt i b).config.options = b.config.options := by
  unfold bootstrapAt
  split
  · rfl
  · rfl

@[simp]
theorem bootstrapAt_controller (i : Nat) (b : Bootstrap) :
    (κ.bootstrapAt i b).controller = b.controller := by
  unfold bootstrapAt
  split
  · rfl
  · rfl

/-- The reactions of the collaborators meet, those of commands as far as the contrast says. -/
structure Scripts (κ : Contrast) (s t : Script) : Prop where
  queue : ∀ q, q ≠ .process → List.Forall₂ (Reaction.Meets κ.steps) (s q) (t q)
  process : κ.commands (s .process) (t .process)

/-- The worlds of two runs at moments that correspond. -/
structure Worlds (κ : Contrast) (v w : World) : Prop where
  contexts : w.contexts = v.contexts.modify κ.context κ.refit
  context : κ.LeavesContexts ∨ ∃ x, v.contexts[κ.context]? = some x ∧ κ.fitted x.fitting
  bootstraps : w.bootstraps = v.bootstraps.modify κ.bootstrap κ.reset
  bootstrap : κ.LeavesBootstraps ∨
    ∃ b, v.bootstraps[κ.bootstrap]? = some b ∧ κ.debugging b.config.debugClient
  configs : w.configs = v.configs
  controllers : w.controllers = v.controllers
  sessionCalls : w.sessionCalls = v.sessionCalls
  sessions : w.sessions = v.sessions
  disposables : List.Forall₂ (Disposable.Meets κ.actions) v.disposables w.disposables
  subscribed : w.subscribed = v.subscribed
  workingDirectory : w.workingDirectory = v.workingDirectory
  connections : w.connections = v.connections
  logs : κ.logs v.logState w.logState
  trace : κ.traces v.trace w.trace

/-- The settings of two runs at moments that correspond. -/
structure Settings (κ : Contrast) (s t : Setting) : Prop where
  world : κ.Worlds s.world t.world
  script : κ.Scripts s.script t.script

namespace Scripts

variable {s t : Script}

theorem next (h : κ.Scripts s t) {q : Queue} (hq : q ≠ .process) :
    (s.next q).Meets κ.steps (t.next q) := Reaction.meets_headD (h.queue q hq)

theorem rest (h : κ.Scripts s t) {q : Queue} (hq : q ≠ .process) :
    κ.Scripts (s.rest q) (t.rest q) where
  queue := by
    intro q' hq'
    unfold Script.rest
    split
    · exact forall₂_tail (h.queue q' hq')
    · exact h.queue q' hq'
  process := by
    unfold Script.rest
    rw [if_neg hq.symm, if_neg hq.symm]
    exact h.process

end Scripts

namespace Worlds

variable {v w : World}

theorem happen (h : κ.Worlds v w) {e f : Event} (he : e.Meets κ.steps f) :
    κ.Worlds (v.happen e) (w.happen f) :=
  { h with trace := κ.traces_snoc h.trace he }

theorem remark (h : κ.Worlds v w) (r : Remark) : κ.Worlds (v.remark r) (w.remark r) :=
  h.happen (.same _)

/-- A posting is the same in both worlds if it is written alike. -/
theorem post (h : κ.Worlds v w) {p : Posting} (hemits : w.emits p.record = v.emits p.record)
    (hwrite : κ.Worlds (v.write p.record) (w.write p.record)) : κ.Worlds (v.post p) (w.post p) := by
  dsimp only [World.post]
  rw [hemits]
  split
  · split
    · exact hwrite.happen (.same _)
    · exact hwrite
  · exact h

theorem logState_eq (h : κ.Worlds v w) (hlogs : κ.logs = Eq) : w.logState = v.logState := by
  have hlog := h.logs
  rw [hlogs] at hlog
  exact hlog.symm

theorem getElem?_contexts (h : κ.Worlds v w) (i : Nat) :
    w.contexts[i]? = v.contexts[i]?.map (κ.contextAt i) := by
  rw [h.contexts, List.getElem?_modify]
  rfl

theorem getElem?_bootstraps (h : κ.Worlds v w) (i : Nat) :
    w.bootstraps[i]? = v.bootstraps[i]?.map (κ.bootstrapAt i) := by
  rw [h.bootstraps, List.getElem?_modify]
  rfl

theorem length_contexts (h : κ.Worlds v w) : v.contexts.length = w.contexts.length := by
  rw [h.contexts, List.length_modify]

theorem length_bootstraps (h : κ.Worlds v w) : v.bootstraps.length = w.bootstraps.length := by
  rw [h.bootstraps, List.length_modify]

theorem length_disposables (h : κ.Worlds v w) : v.disposables.length = w.disposables.length :=
  h.disposables.length_eq

/-- How the context is fitted that the contrast is about. -/
theorem fitted (h : κ.Worlds v w) {x : Context} (hx : v.contexts[κ.context]? = some x) :
    κ.fitted x.fitting := by
  rcases h.context with ⟨_, hall⟩ | ⟨y, hy, hfitted⟩
  · exact hall _
  · rw [hx, Option.some.injEq] at hy
    exact hy ▸ hfitted

theorem debugging (h : κ.Worlds v w) {b : Bootstrap} (hb : v.bootstraps[κ.bootstrap]? = some b) :
    κ.debugging b.config.debugClient := by
  rcases h.bootstrap with ⟨_, hall⟩ | ⟨y, hy, hdebug⟩
  · exact hall _
  · rw [hb, Option.some.injEq] at hy
    exact hy ▸ hdebug

/-! What both runs do alike to their worlds. -/

theorem modifySession (h : κ.Worlds v w) (i : Nat) (f : Session → Session) :
    κ.Worlds (v.modifySession i f) (w.modifySession i f) :=
  { h with sessions := congrArg (List.modify · i f) h.sessions }

theorem addSession (h : κ.Worlds v w) (x : Session) :
    κ.Worlds (EditorClient.addSession x v) (EditorClient.addSession x w) :=
  { h with sessions := congrArg (· ++ [x]) h.sessions }

theorem modifyController (h : κ.Worlds v w) (i : Nat) (f : Controller → Controller) :
    κ.Worlds (v.modifyController i f) (w.modifyController i f) :=
  { h with controllers := congrArg (List.modify · i f) h.controllers }

theorem callSession (h : κ.Worlds v w) (i : Nat) (c : SessionCall) :
    κ.Worlds (v.callSession i c) (w.callSession i c) :=
  { h with sessionCalls := congrArg (· ++ [(i, c)]) h.sessionCalls }

theorem addController (h : κ.Worlds v w) (x : Controller) :
    κ.Worlds (EditorClient.addController x v) (EditorClient.addController x w) :=
  { h with controllers := congrArg (· ++ [x]) h.controllers }

theorem countConnection (h : κ.Worlds v w) :
    κ.Worlds (EditorClient.countConnection v) (EditorClient.countConnection w) :=
  { h with connections := congrArg (· + 1) h.connections }

theorem numberDisposable (h : κ.Worlds v w) (i : Nat) :
    κ.Worlds (Host.numberDisposable i v) (Host.numberDisposable i w) :=
  { h with subscribed := congrArg (· ++ [i]) h.subscribed }

theorem addConfig (h : κ.Worlds v w) (c : Config) :
    κ.Worlds (Host.addConfig c v) (Host.addConfig c w) :=
  { h with configs := congrArg (· ++ [c]) h.configs }

theorem addDisposable (h : κ.Worlds v w) {a a' : CleanUp} (ha : a.Meets κ.actions a') :
    κ.Worlds (EditorClient.addDisposable a v) (EditorClient.addDisposable a' w) :=
  { h with disposables := List.rel_append h.disposables (.cons ⟨ha, rfl⟩ .nil) }

theorem markDisposed (h : κ.Worlds v w) (i : Nat) :
    κ.Worlds (v.modifyDisposable i fun d => { d with disposed := true })
      (w.modifyDisposable i fun d => { d with disposed := true }) := by
  refine { h with disposables := ?_ }
  have hl := h.disposables
  change List.Forall₂ _ (v.disposables.modify i _) (w.disposables.modify i _)
  generalize v.disposables = l at hl
  generalize w.disposables = l' at hl
  induction hl generalizing i with
  | nil => simp
  | cons hd hrest ih =>
    cases i with
    | zero => exact .cons ⟨hd.action, rfl⟩ hrest
    | succ i => exact .cons hd (ih i)

theorem addContext (h : κ.Worlds v w) (x : Context) :
    κ.Worlds (EditorClient.addContext x v) (EditorClient.addContext x w) :=
  { h with
    contexts := (congrArg (· ++ [x]) h.contexts).trans
      (modify_append_of_some _ (h.context.imp (·.1) fun ⟨y, hy, _⟩ => ⟨y, hy⟩)).symm
    context := h.context.imp_right fun ⟨y, hy, hfitted⟩ =>
      ⟨y, getElem?_append_of_some hy, hfitted⟩ }

/-- A context's subscriptions are changed in the same way in both worlds. -/
theorem modifySubscriptions (h : κ.Worlds v w) (i : Nat) (f : List Nat → List Nat) :
    κ.Worlds (v.modifyContext i fun x => { x with subscriptions := f x.subscriptions })
      (w.modifyContext i fun x => { x with subscriptions := f x.subscriptions }) :=
  { h with
    contexts := by
      refine (congrArg (List.modify · i _) h.contexts).trans (modify_comm _ _ _ fun x => ?_)
      rw [κ.refit_subscriptions, κ.refit_subscriptions_eq]
    context := h.context.imp_right fun ⟨y, hy, hfitted⟩ =>
      ⟨_, getElem?_modify_of_some _ hy, by split <;> exact hfitted⟩ }

theorem register (h : κ.Worlds v w) (i d : Nat) :
    κ.Worlds (EditorClient.register i d v) (EditorClient.register i d w) :=
  h.modifySubscriptions i (· ++ [d])

theorem addBootstrap (h : κ.Worlds v w) (b : Bootstrap) :
    κ.Worlds (EditorClient.addBootstrap b v) (EditorClient.addBootstrap b w) :=
  { h with
    bootstraps := by
      refine (congrArg (· ++ [b]) h.bootstraps).trans (modify_append_of_some _ ?_).symm
      exact h.bootstrap.imp (κ.reset_eq_self ·.1) fun ⟨y, hy, _⟩ => ⟨y, hy⟩
    bootstrap := h.bootstrap.imp_right fun ⟨y, hy, hdebug⟩ =>
      ⟨y, getElem?_append_of_some hy, hdebug⟩ }

theorem hold (h : κ.Worlds v w) (i : Nat) (controller : Option Nat) :
    κ.Worlds (v.hold i controller) (w.hold i controller) :=
  { h.happen (.same (.held i controller)) with
    bootstraps := (congrArg (List.modify · i _) h.bootstraps).trans (modify_comm _ _ _ fun _ => rfl)
    bootstrap := h.bootstrap.imp_right fun ⟨y, hy, hdebug⟩ =>
      ⟨_, getElem?_modify_of_some _ hy, by split <;> exact hdebug⟩ }

end Worlds

namespace Settings

variable {s t : Setting}

/-- What both runs do to their worlds leaves the scripts alone. -/
theorem change (h : κ.Settings s t) {f g : World → World}
    (hfg : κ.Worlds s.world t.world → κ.Worlds (f s.world) (g t.world)) :
    κ.Settings { s with world := f s.world } { t with world := g t.world } :=
  ⟨hfg h.world, h.script⟩

end Settings

def InBounds (κ : Contrast) (w : World) : Prop := κ.bounds w.trace

theorem InBounds.mono {v w : World} (h : κ.InBounds w) (ht : v.trace <+: w.trace) : κ.InBounds v :=
  κ.bounds_prefix ht h

variable {take : Step → Setting → Setting}

/-- Steps that correspond leave settings that correspond, unless they leave the bounds, and no step takes
back what has happened. -/
structure Keeps (κ : Contrast) (take : Step → Setting → Setting) : Prop where
  remembers : ∀ step s, s.world.trace <+: (take step s).world.trace
  settings : ∀ step step' s t, κ.steps step step' → κ.Settings s t → κ.InBounds (take step s).world →
    κ.InBounds (take step' t).world → κ.Settings (take step s) (take step' t)

theorem Keeps.foldl (h : κ.Keeps take) {steps steps' : List Step}
    (hsteps : List.Forall₂ κ.steps steps steps') {s t : Setting} (hst : κ.Settings s t)
    (hs : κ.InBounds (steps.foldl (fun s step => take step s) s).world)
    (ht : κ.InBounds (steps'.foldl (fun s step => take step s) t).world) :
    κ.Settings (steps.foldl (fun s step => take step s) s)
      (steps'.foldl (fun s step => take step s) t) := by
  induction hsteps generalizing s t with
  | nil => exact hst
  | cons hstep _ ih =>
    have hrest := fun step s steps => Step.trace_foldl h.remembers steps (take step s)
    exact ih (h.settings _ _ _ _ hstep hst (hs.mono (hrest _ _ _)) (ht.mono (hrest _ _ _))) hs ht

/-- Calls that correspond come to the same if the reactions to them do. -/
theorem Keeps.respond (h : κ.Keeps take) {c c' : Call} (hc : c.Meets κ.steps c') {s t : Setting}
    (hst : κ.Settings s t) (hreaction : (c.react s.script).1.Meets κ.steps (c'.react t.script).1)
    (hrest : κ.Scripts (c.react s.script).2 (c'.react t.script).2)
    (hs : κ.InBounds (c.respond take s).2.world) (ht : κ.InBounds (c'.respond take t).2.world) :
    (c.respond take s).1 = (c'.respond take t).1 ∧
      κ.Settings (c.respond take s).2 (c'.respond take t).2 := by
  constructor
  · simp only [Call.respond, hreaction.fault, hreaction.exitCode, hreaction.output]
    cases (c'.react t.script).1.fault with
    | none => rfl
    | some f => rfl
  · rw [Call.respond_snd] at hs ht ⊢
    rw [Call.respond_snd]
    exact h.foldl hreaction.steps ⟨hst.world.happen (.called hc), hrest⟩ hs ht

/-- Two procedures that take no notice of the contrast between them. -/
abbrev Parallel (κ : Contrast) (take : Step → Setting → Setting) {α β : Type} (rel : α → β → Prop)
    (p : Procedure α) (q : Procedure β) : Prop :=
  p.Parallel (Call.respond take) κ.InBounds κ.Settings rel q

/-- A procedure that takes no notice of the contrast. -/
abbrev Blind (κ : Contrast) (take : Step → Setting → Setting) {α : Type} (p : Procedure α) : Prop :=
  p.Blind (Call.respond take) κ.InBounds κ.Settings

/-- Only commands are answered from the queue of commands. -/
theorem Keeps.blind_request (h : κ.Keeps take) {c : Call} {q : Queue} (hq : q ≠ .process)
    (hc : ∀ script, c.react script = (script.next q, script.rest q)) :
    κ.Blind take (Procedure.request c) :=
  Procedure.parallel_request fun s t hst hs ht => by
    refine h.respond (.same c) hst ?_ ?_ hs ht
    · rw [hc, hc]
      exact hst.script.next hq
    · rw [hc, hc]
      exact hst.script.rest hq

theorem Keeps.parallel_act (h : κ.Keeps take) (name : String) {r r' : Reaction}
    (hr : r.Meets κ.steps r') :
    κ.Parallel take Eq (Procedure.request (.act name r)) (Procedure.request (.act name r')) :=
  Procedure.parallel_request fun _ _ hst => h.respond (.act name hr) hst hr hst.script

/-- Commands come to the same if their reactions correspond as all others do. -/
theorem Keeps.blind_process (h : κ.Keeps take)
    (hcommands : ∀ l l', κ.commands l l' ↔ List.Forall₂ (Reaction.Meets κ.steps) l l')
    (words : List String) : κ.Blind take (Procedure.request (.process words)) :=
  Procedure.parallel_request fun s t hst hs ht => by
    have hprocess := (hcommands _ _).mp hst.script.process
    refine h.respond (.same _) hst (Reaction.meets_headD hprocess) ⟨fun q hq => ?_, ?_⟩ hs ht
    · change List.Forall₂ _ (s.script.rest .process q) (t.script.rest .process q)
      simp only [Script.rest, if_neg hq]
      exact hst.script.queue q hq
    · exact (hcommands _ _).mpr (forall₂_tail hprocess)

end Contrast

end EditorClient
