import EditorClient.Proofs.NestedSteps
import EditorClient.Proofs.UnusedQueue

/-! Activation in development. What a host says of the context but for its notifier, and what commands
would come to, make no difference to it, apart from the one remark that shows the extension path. -/

namespace EditorClient

open Procedure

/-- The context as another host would have it. -/
def Context.refitted (f : Fitting) (x : Context) : Context :=
  { x with path := f.path, mode := f.mode, settings := f.settings }

def World.refit (c : Nat) (f : Fitting) (w : World) : World := w.modifyContext c (·.refitted f)

/-- Adds to the subscriptions of a context. -/
def World.entrust (c : Nat) (ds : List Nat) (w : World) : World :=
  w.modifyContext c fun x => { x with subscriptions := x.subscriptions ++ ds }

theorem World.entrust_nil (c : Nat) (w : World) : w.entrust c [] = w := by
  simp only [entrust, modifyContext, List.append_nil]
  rw [show (fun x : Context => { x with subscriptions := x.subscriptions }) = id from rfl,
    List.modify_id]

/-- The client is to connect to a server that listens. -/
structure Context.IsDeveloped (x : Context) : Prop where
  path : ∃ path, x.path.toPath = .ok path
  mode : x.mode.mode? = some .development

/-- What an activation reads of a context but the notifier. -/
structure Context.SameTransport (x y : Context) : Prop where
  path : y.path = x.path
  mode : y.mode = x.mode
  interpreter : y.interpreter = x.interpreter

/-- The step does not read what differs in how a context is fitted, unless it repeats the activation that
the runs are about. -/
def Step.Overlooks (once : Prop) (i c : Nat) (y y' : Context) : Step → Prop
  | configuration n heading => n = c + 1 → y'.configuration heading = y.configuration heading
  | activate n m => m = c + 1 → (¬once ∧ n = i + 1) ∨ y.SameTransport y'
  | _ => True

/-- Fitted as it is, the context hides nothing from a step. -/
theorem Step.overlooks_fitting (step : Step) (once : Prop) (i c : Nat) (y : Context) :
    step.Overlooks once i c y (y.refitted y.fitting) := by
  cases step with
  | configuration n heading => exact fun _ => rfl
  | activate n m => exact fun _ => .inr ⟨rfl, rfl, rfl⟩
  | _ => trivial

/-- Nothing can be nested in what an empty queue would give. -/
theorem Setting.Nests.without {queues : Queue → Prop} {sort : Step → Prop} {queue : Queue} {v : World}
    {script : Script} (h : Setting.Nests queues sort ⟨v, script⟩)
    (hqueues : ∀ q, q ≠ queue → queues q) :
    Setting.Nests (fun _ => True) sort ⟨v, script.without queue⟩ := by
  cases h with
  | flat hflat =>
    refine .flat fun q _ r hr => ?_
    obtain ⟨hq, hr⟩ := Script.mem_without.mp hr
    exact hflat q (hqueues q hq) r hr
  | every hscript hactions =>
    refine .every (fun q _ r hr => ?_) hactions
    obtain ⟨hq, hr⟩ := Script.mem_without.mp hr
    exact hscript q (hqueues q hq) r hr

/-- The same event, or the remark that shows one extension path and the one that shows the other. -/
def Event.Reroutes (path path' : ExtensionPath) (e e' : Event) : Prop :=
  e' = e ∨ e = .remarked (.extensionPath path) ∧ e' = .remarked (.extensionPath path')

/-- The same events but for the extension path that is shown, and even that if it is shown only once. -/
structure Reroutes (once : Prop) (path path' : ExtensionPath) (es es' : List Event) : Prop where
  each : List.Forall₂ (Event.Reroutes path path') es es'
  all : once → es' = es

namespace Reroutes

variable {once : Prop} {path path' : ExtensionPath} {es es' : List Event}

theorem nil : Reroutes once path path' [] [] := ⟨.nil, fun _ => rfl⟩

theorem snoc (h : Reroutes once path path' es es') (e : Event) :
    Reroutes once path path' (es ++ [e]) (es' ++ [e]) where
  each := List.rel_append h.each (.cons (.inl rfl) .nil)
  all := fun ho => by rw [h.all ho]

theorem remark (h : Reroutes once path path' es es') (honce : ¬once) :
    Reroutes once path path' (es ++ [.remarked (.extensionPath path)])
      (es' ++ [.remarked (.extensionPath path')]) where
  each := List.rel_append h.each (.cons (.inr ⟨rfl, rfl⟩) .nil)
  all := fun ho => absurd ho honce

theorem not_draws (h : Reroutes once path path' es es') {queue : Queue}
    (hes : ∀ e ∈ es, e.draws queue = false) : ∀ e ∈ es', e.draws queue = false := by
  have heach := h.each
  clear h
  induction heach with
  | nil => exact List.forall_mem_nil _
  | cons hd _ ih =>
    rw [List.forall_mem_cons] at hes ⊢
    refine ⟨?_, ih hes.2⟩
    rcases hd with rfl | ⟨_, rfl⟩
    · exact hes.1
    · rfl

end Reroutes

namespace Controller

/-- What a session that runs leads to, but for the context's knowledge of it. -/
def enrol (i session : Nat) (outcome : Value × Bool) (w : World) : World :=
  if outcome.2 then
    (addDisposable (.stopController i)
      (w.modifyController i fun c => { c with session := some session, state := .running })).remark
        (.clientRunning outcome.1)
  else w

theorem run_settle {respond : Call → Setting → Except Fault Reply × Setting}
    (i session context : Nat) (outcome : Value × Bool) (s : Setting) :
    (settle i session context outcome).run respond s =
      (.ok outcome.2, { s with
        world := (enrol i session outcome s.world).entrust context
          (if outcome.2 then [s.world.disposables.length] else []) }) := by
  obtain ⟨name, started⟩ := outcome
  cases started with
  | true => rfl
  | false =>
    simp only [settle, enrol, Bool.false_eq_true, if_false, World.entrust_nil]
    rfl

end Controller

theorem Contrast.Worlds.enrol {κ : Contrast} {v w : World} (h : κ.Worlds v w) (i session : Nat)
    (outcome : Value × Bool) :
    κ.Worlds (Controller.enrol i session outcome v) (Controller.enrol i session outcome w) := by
  unfold Controller.enrol
  split
  · exact ((h.modifyController i _).addDisposable (.stopController i)).remark _
  · exact h

namespace Bootstrap

/-- The transport for development, once the path is known to be one. -/
def arrangeConnection (config : Config) : Procedure Transport :=
  reporting do
    Procedure.remark (.runningIn .development)
    selectTransport .development config.port none .null config.server

theorem arrange_of_isDeveloped {config : Config} {x : Context} (hx : x.IsDeveloped)
    (hdebug : config.debugClient = false) :
    arrange config x = (do
      Procedure.remark (.extensionPath x.path)
      arrangeConnection config) := by
  obtain ⟨path, hpath⟩ := hx.path
  rw [arrange, hpath]
  simp only [prepare, resolveMode_of_mode? hx.mode, hdebug, underDebugging, Bool.false_eq_true,
    and_false, if_false, LawfulMonad.pure_bind]
  rfl

end Bootstrap

/-- Two runs of an activation in development, once each has remarked upon its extension path. -/
def developmentContrast (once nested : Prop) (i c : Nat) (y : Context) (f : Fitting)
    (t₁ t₂ : List Event) : Contrast where
  context := c
  fitted := fun g => g = y.fitting
  refit := Context.refitted f
  bootstrap := i
  debugging := fun d => d = false
  steps := Step.Same nested (Step.Overlooks once i c y (y.refitted f))
  actions := Reaction.Same nested (Step.Overlooks once i c y (y.refitted f))
  commands := List.Forall₂
    (Reaction.Meets (Step.Same nested (Step.Overlooks once i c y (y.refitted f))))
  traces := fun t u => ∃ es es', t = t₁ ++ es ∧ u = t₂ ++ es' ∧ Reroutes once y.path f.path es es'
  refit_notifier := fun _ => rfl
  refit_subscriptions := fun _ _ => rfl
  traces_snoc := by
    rintro t u e e' ⟨es, es', rfl, rfl, h⟩ he
    rw [← Event.eq_of_meets Step.eq_of_same he]
    exact ⟨es ++ [e], es' ++ [e], by simp, by simp, h.snoc e⟩

section Development

variable {once nested : Prop} {i c : Nat} {y : Context} {f : Fitting} {t₁ t₂ : List Event}
  {take : Step → Setting → Setting}

theorem parallel_remarkPath (honce : ¬once) :
    (developmentContrast once nested i c y f t₁ t₂).Parallel take Eq
      (Procedure.remark (.extensionPath y.path)) (Procedure.remark (.extensionPath f.path)) := by
  refine parallel_change fun s t hst => ⟨?_, hst.script⟩
  have hw := hst.world
  obtain ⟨es, es', ht, hu, h⟩ := hw.trace
  refine { hw with trace := ⟨_, _, ?_, ?_, h.remark honce⟩ }
  · simp [World.remark, World.happen, ht]
  · simp [World.remark, World.happen, hu]

theorem blind_arrangeConnection (config : Config) :
    (developmentContrast once nested i c y f t₁ t₂).Blind take (Bootstrap.arrangeConnection config) :=
  Contrast.Upheld.reporting <| (Contrast.blind_remark _).bind_eq fun _ =>
    (Contrast.remarking _ take).selectTransport _ _ _ _ _

/-- The context is fitted as it was before, so that each run reads the same of it as then. -/
theorem Context.configuration_of_fitting {x : Context} (hx : x.fitting = y.fitting)
    (heading : String) : x.configuration heading = y.configuration heading ∧
      (x.refitted f).configuration heading = (y.refitted f).configuration heading := by
  rw [fitting, fitting, Fitting.mk.injEq] at hx
  exact ⟨by rw [configuration, configuration, hx.2.2], rfl⟩

theorem arrange_of_sameTransport {config : Config} {x : Context} (hx : x.fitting = y.fitting)
    (h : y.SameTransport (y.refitted f)) :
    Bootstrap.arrange config (x.refitted f) = Bootstrap.arrange config x := by
  have hinterpreter : (x.refitted f).interpreter = x.interpreter := by
    have hpython := Context.configuration_of_fitting (f := f) hx "python"
    have hsame := h.interpreter
    unfold Context.interpreter at hsame ⊢
    rw [hpython.1, hpython.2, hsame]
  rw [Context.fitting, Context.fitting, Fitting.mk.injEq] at hx
  have hpath : (x.refitted f).path = x.path := h.path.trans hx.1.symm
  have hmode : (x.refitted f).mode = x.mode := h.mode.trans hx.2.1.symm
  unfold Bootstrap.arrange Bootstrap.prepare Bootstrap.prepareSpawn
  rw [hpath, hmode, hinterpreter]
  rfl

theorem keeps_development
    (hrepeats : ¬once → y.IsDeveloped ∧ (y.refitted f).IsDeveloped) (limit depth : Nat) :
    (developmentContrast once nested i c y f t₁ t₂).Keeps (Step.leave limit depth) := by
  refine Contrast.keeps_same rfl rfl rfl (fun hl hm => List.rel_append hl hm) (fun _ _ _ _ _ => Iff.rfl)
    (fun c' heading x hstep hfitted => ?_)
    (fun take i' c' b x hstep hensure hdebug hfitted => ?_) limit depth
  · unfold Contrast.contextAt
    split
    · rename_i heq
      obtain ⟨hx, hx'⟩ := Context.configuration_of_fitting (f := f) (hfitted heq) heading
      change (x.refitted f).configuration heading = _
      rw [hx, hx', hstep (by rw [show c = c' from heq])]
    · rfl
  · rw [Contrast.bootstrapAt_eq_self fun _ => rfl]
    unfold Contrast.contextAt
    split
    · rename_i heq
      have hx : x.fitting = y.fitting := hfitted heq
      rcases hstep (by rw [show c = c' from heq]) with ⟨honce, hi⟩ | hsame
      · obtain ⟨hy, hy'⟩ := hrepeats honce
        have hoff : b.config.debugClient = false := hdebug (show i = i' by omega)
        have hxy := hx
        rw [Context.fitting, Context.fitting, Fitting.mk.injEq] at hxy
        have hdeveloped : x.IsDeveloped := ⟨hxy.1 ▸ hy.path, hxy.2.1 ▸ hy.mode⟩
        have hrefitted : (x.refitted f).IsDeveloped := ⟨hy'.path, hy'.mode⟩
        change Contrast.Parallel _ _ _ _ (Bootstrap.arrange b.config (x.refitted f))
        rw [Bootstrap.arrange_of_isDeveloped hdeveloped hoff,
          Bootstrap.arrange_of_isDeveloped hrefitted hoff, hxy.1]
        exact (parallel_remarkPath honce).bind_eq fun _ => blind_arrangeConnection _
      · exact Contrast.Upheld.parallel_arrange_of_eq hensure (arrange_of_sameTransport hx hsame)
    · exact Contrast.Upheld.parallel_arrange_of_eq hensure rfl

/-- The worlds of the two runs differ in how the context is fitted, and in their traces. -/
theorem Contrast.Worlds.eq_refit {v w : World}
    (h : (developmentContrast once nested i c y f t₁ t₂).Worlds v w) :
    w = { v.refit c f with trace := w.trace } := by
  refine (h.eq (fun _ _ hr => hr.1) rfl).trans ?_
  have hreset : (developmentContrast once nested i c y f t₁ t₂).reset = id := rfl
  rw [hreset, List.modify_id]
  rfl

end Development

/-- After the same launch in both runs, each gives its own context the same new subscriptions. -/
theorem Contrast.Settings.run_settle {κ : Contrast} {take : Step → Setting → Setting}
    {p : Procedure (Nat × Nat × Value × Bool)} (hp : κ.Blind take p)
    (hbounds : ∀ w, κ.InBounds w) (c c' : Nat) {s t : Setting}
    (hst : κ.Settings s t) :
    let settled := fun c => do
      let launched ← p
      let _ ← Controller.settle launched.2.1 launched.1 c launched.2.2
      pure launched.2.1
    ((settled c).run (Call.respond take) s).1 = ((settled c').run (Call.respond take) t).1 ∧
      ∃ s' t' ds, κ.Settings s' t' ∧
        ((settled c).run (Call.respond take) s).2 = { s' with world := s'.world.entrust c ds } ∧
        ((settled c').run (Call.respond take) t).2 = { t' with world := t'.world.entrust c' ds } := by
  intro settled
  obtain ⟨hr, hst'⟩ := hp.unbounded hbounds hst
  simp only [settled, run_bind]
  generalize p.run (Call.respond take) s = r₁ at hr hst' ⊢
  generalize p.run (Call.respond take) t = r₂ at hr hst' ⊢
  obtain ⟨r, s'⟩ := r₁
  obtain ⟨r', t'⟩ := r₂
  rw [corresponds_eq] at hr
  dsimp only at hr hst'
  subst hr
  cases r with
  | error f => exact ⟨rfl, s', t', [], hst', by rw [World.entrust_nil], by rw [World.entrust_nil]⟩
  | ok launched =>
    simp only [Controller.run_settle, ← hst'.world.length_disposables]
    exact ⟨rfl, _, _, _, hst'.change fun hw => hw.enrol launched.2.1 launched.1 launched.2.2, rfl, rfl⟩

namespace Bootstrap

variable {once : Prop} {i c c' limit depth : Nat} {f : Fitting} {v : World} {script script' : Script}
  {b : Bootstrap} {x y : Context}

/-- What an activation in development leads to, once it has remarked upon the extension path. -/
theorem perform_in_development (hb : v.bootstraps[i]? = some b) (hx : v.contexts[c]? = some x)
    (hdeveloped : x.IsDeveloped) (hdebug : b.config.debugClient = false) (limit depth : Nat)
    (script : Script) :
    let r := (do
      let launched ← arrangeConnection b.config >>= launch i b.config x.notifier
      let _ ← Controller.settle launched.2.1 launched.1 c launched.2.2
      pure launched.2.1).run (Call.respond (Step.leave limit depth))
        ⟨{ v with trace := v.trace ++ opening i c x.path }, script⟩
    (Step.activate (i + 1) (c + 1)).perform limit (depth + 1) ⟨v, script⟩ =
      (r.1.map .activated, r.2.happen (.ended (r.1.map .activated))) := by
  have hperform := Step.perform_activate (s := ⟨v, script⟩) hb hx limit depth
  simp only [arrange_of_isDeveloped hdeveloped hdebug, succession_eq_launch,
    LawfulMonad.bind_assoc] at hperform
  rw [← remark_opening]
  simp only [LawfulMonad.bind_assoc]
  exact hperform

/-- The two runs of an activation, once both have remarked upon their extension paths. -/
theorem settings_in_development (hb : v.bootstraps[i]? = some b)
    (hdebug : b.config.debugClient = false) (hy : v.contexts[c']? = some y)
    (hnested : Setting.Nests (fun _ => True) (Step.Overlooks once i c' y (y.refitted f)) ⟨v, script⟩)
    (t₁ t₂ : List Event) :
    ∃ nested, (developmentContrast once nested i c' y f t₁ t₂).Settings
      ⟨{ v with trace := t₁ }, script⟩ ⟨{ v.refit c' f with trace := t₂ }, script⟩ := by
  obtain ⟨nested, hqueue, hdisposables⟩ := hnested.exists_same
  refine ⟨nested, ⟨?_, fun q _ => hqueue q trivial, hqueue .process trivial⟩⟩
  refine .of_eq ?_ (.inr ⟨y, hy, rfl⟩) (.inr ⟨b, hb, hdebug⟩) hdisposables rfl
    ⟨[], [], by simp, by simp, .nil⟩
  rw [show (developmentContrast ..).reset = id from rfl, List.modify_id]
  rfl

theorem blind_connection {nested : Prop} {t₁ t₂ : List Event}
    (hrepeats : ¬once → y.IsDeveloped ∧ (y.refitted f).IsDeveloped) (limit depth : Nat)
    (config : Config) (notifier : Notifier) :
    (developmentContrast once nested i c' y f t₁ t₂).Blind (Step.leave limit depth)
      (arrangeConnection config >>= launch i config notifier) :=
  (blind_arrangeConnection config).bind_eq fun transport =>
    ((keeps_development hrepeats limit depth).upheld rfl).launch i config notifier transport

/-- Activations alike up to their answers are alike with them. -/
theorem answers_alike {nested : Prop} {t₁ t₂ : List Event} {s' t' : Setting} {ds : List Nat}
    {r₁ r₂ : Except Fault Nat × Setting} {first second : Answer × Setting}
    (hst : (developmentContrast once nested i c' y f t₁ t₂).Settings s' t') (hr : r₁.1 = r₂.1)
    (hs : r₁.2 = { s' with world := s'.world.entrust c ds })
    (ht : r₂.2 = { t' with world := t'.world.entrust c' ds })
    (hfirst : first = (r₁.1.map .activated, r₁.2.happen (.ended (r₁.1.map .activated))))
    (hsecond : second = (r₂.1.map .activated, r₂.2.happen (.ended (r₂.1.map .activated)))) :
    first.1 = second.1 ∧
      (∃ (w : World) (ds : List Nat) (rest rest' : List Event),
        first.2.world = { w.entrust c ds with trace := t₁ ++ rest } ∧
        second.2.world = { (w.refit c' f).entrust c' ds with trace := t₂ ++ rest' } ∧
        Reroutes once y.path f.path rest rest') ∧
      ∀ q, q ≠ .process → first.2.script q = second.2.script q := by
  obtain ⟨es, es', htrace, htrace', hreroutes⟩ := hst.world.trace
  subst hfirst hsecond
  rw [hs, ht, hr]
  refine ⟨rfl, ⟨s'.world, ds, es ++ [.ended (r₂.1.map .activated)],
    es' ++ [.ended (r₂.1.map .activated)], ?_, ?_, hreroutes.snoc _⟩, fun q hq => ?_⟩
  · simp only [Setting.happen, World.happen, World.entrust, World.modifyContext, htrace,
      List.append_assoc]
  · rw [hst.world.eq_refit, htrace', ← List.append_assoc]
    rfl
  · exact hst.script.eq (fun _ _ => Step.eq_of_same _ _) hq

/-- Commands come to the same in both runs. -/
theorem activate_in_development_alike (hb : v.bootstraps[i]? = some b)
    (hdebug : b.config.debugClient = false) (hx : v.contexts[c]? = some x)
    (hy : v.contexts[c']? = some y) (hnotifier : y.notifier = x.notifier) (hdeveloped : x.IsDeveloped)
    (hdeveloped' : (y.refitted f).IsDeveloped) (hrepeats : once ∨ c' = c) (limit depth : Nat)
    (hnested : Setting.Nests (fun _ => True) (Step.Overlooks once i c' y (y.refitted f))
      ⟨v, script⟩) :
    let first := (Step.activate (i + 1) (c + 1)).perform limit (depth + 1) ⟨v, script⟩
    let second := (Step.activate (i + 1) (c' + 1)).perform limit (depth + 1) ⟨v.refit c' f, script⟩
    first.1 = second.1 ∧
      (∃ (w : World) (ds : List Nat) (rest rest' : List Event),
        first.2.world = { w.entrust c ds with trace := v.trace ++ opening i c x.path ++ rest } ∧
        second.2.world = { (w.refit c' f).entrust c' ds with
          trace := v.trace ++ opening i c' f.path ++ rest' } ∧
        Reroutes once y.path f.path rest rest') ∧
      ∀ q, q ≠ .process → first.2.script q = second.2.script q := by
  have hy' : (v.refit c' f).contexts[c']? = some (y.refitted f) := by
    rw [World.refit, World.modifyContext, getElem?_modify_of_some _ hy, if_pos rfl]
  have hboth : ¬once → y.IsDeveloped ∧ (y.refitted f).IsDeveloped := fun honce => by
    have hsame := hrepeats.resolve_left honce
    subst hsame
    rw [hx, Option.some.injEq] at hy
    exact ⟨hy ▸ hdeveloped, hdeveloped'⟩
  obtain ⟨nested, hst⟩ := settings_in_development hb hdebug hy hnested
    (v.trace ++ opening i c x.path) (v.trace ++ opening i c' f.path)
  obtain ⟨hr, s', t', ds, hst', hs', ht'⟩ :=
    hst.run_settle (blind_connection hboth limit depth b.config x.notifier) (fun _ => trivial) c c'
  have hfirst := perform_in_development hb hx hdeveloped hdebug limit depth script
  have hsecond := perform_in_development (v := v.refit c' f) hb hy' hdeveloped' hdebug limit depth script
  rw [show (y.refitted f).notifier = x.notifier from hnotifier] at hsecond
  exact answers_alike hst' hr hs' ht' hfirst hsecond

theorem not_draws_opening (path : ExtensionPath) {queue : Queue} :
    ∀ e ∈ opening i c path, e.draws queue = false := by
  simp [opening, Event.draws]

/-- A session of the bootstrap runs, and there are two contexts. -/
def connectedSetting : Setting :=
  Step.leaveAll 9 9
    [.newContext (.path ⟨.none, []⟩) (.member (.text "development")) .null .host,
      .newContext (.path ⟨.none, []⟩) (.member (.text "production")) (.object []) .host,
      .newBootstrap none, .activate 1 1]
    (.unlogged .empty)

/-- Another extension path, another way to say the mode, and settings. -/
def elsewhere : Fitting := ⟨.value (.text "elsewhere"), .value (.text "DEVELOPMENT"), .object []⟩

def showsPath : Event → Bool
  | .remarked (.extensionPath _) => true
  | _ => false

def readsNothing : Event → Bool
  | .ended (.ok (.value (.object []))) => true
  | _ => false

/-- A context in development and one in production, both with an interpreter, and two bootstraps of which
the second debugs its client. -/
def mixedSetting : Setting :=
  let settings : Value := .object [("python", .object [("pythonPath", .text "py")])]
  Step.leaveAll 9 9
    [.newContext (.path ⟨.none, []⟩) (.member (.text "development")) settings .host,
      .newContext (.path ⟨.none, []⟩) (.member (.text "production")) settings .host,
      .newBootstrap none, .newConfig { Config.standard with debugClient := true }, .newBootstrap (some 1)]
    (.unlogged .empty)

end Bootstrap

end EditorClient
