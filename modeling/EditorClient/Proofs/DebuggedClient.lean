import EditorClient.Proofs.NestedSteps

/-! There are several ways to come to production: the host says so, it is under test, or it is in
development and the client is debugged. An activation is the same whichever it is, apart from the remark
that announces the debugging. -/

namespace EditorClient

open Procedure

/-- Whether a client runs in production. -/
def HostMode.IsProductive (mode : HostMode) (debugClient : Bool) : Prop :=
  mode.mode? = some .production ∨ mode.mode? = some .development ∧ debugClient = true

/-- What an activation remarks when it comes to production by way of debugging. -/
def HostMode.announcement (mode : HostMode) : List Event :=
  match mode.mode? with
  | some .development => [.remarked .debuggingClient]
  | _ => []

def HostMode.announce (mode : HostMode) : Procedure Unit :=
  match mode.mode? with
  | some .development => Procedure.remark .debuggingClient
  | _ => pure ()

/-- What an activation of a context announces: nothing if its path is none. -/
def Context.announcement (x : Context) : List Event :=
  match x.path.toPath with
  | .ok _ => x.mode.announcement
  | .error _ => []

def Event.isAnnouncement : Event → Bool
  | remarked .debuggingClient => true
  | _ => false

theorem HostMode.isAnnouncement_of_mem {mode : HostMode} {e : Event} (h : e ∈ mode.announcement) :
    e.isAnnouncement = true := by
  unfold announcement at h
  split at h
  · rw [List.mem_singleton.mp h]
    rfl
  · cases h

/-- The same events but for announcements, and even with them if these are made only once. -/
structure Rejoins (once : Prop) (es es' : List Event) : Prop where
  others : es.filter (!·.isAnnouncement) = es'.filter (!·.isAnnouncement)
  all : once → es = es'

namespace Rejoins

variable {once : Prop} {es es' : List Event}

theorem nil : Rejoins once [] [] := ⟨rfl, fun _ => rfl⟩

theorem snoc (h : Rejoins once es es') (e : Event) : Rejoins once (es ++ [e]) (es' ++ [e]) where
  others := by rw [List.filter_append, List.filter_append, h.others]
  all := fun ho => by rw [h.all ho]

theorem announce (h : Rejoins once es es') {mode mode' : HostMode}
    (hmode : once → mode.mode? = mode'.mode?) :
    Rejoins once (es ++ mode.announcement) (es' ++ mode'.announcement) where
  others := by
    have hnone : ∀ m : HostMode, m.announcement.filter (!·.isAnnouncement) = [] := fun m =>
      List.filter_eq_nil_iff.mpr fun e he => by simp [HostMode.isAnnouncement_of_mem he]
    rw [List.filter_append, List.filter_append, hnone, hnone, h.others]
  all := fun ho => by
    unfold HostMode.announcement
    rw [h.all ho, hmode ho]

end Rejoins

/-- The world in which the host gives another mode for a context, and the client of a bootstrap is
debugged or not. -/
def World.rehost (c : Nat) (mode : HostMode) (i : Nat) (debugClient : Bool) (w : World) : World :=
  { w with
    contexts := w.contexts.modify c fun x => { x with mode := mode }
    bootstraps := w.bootstraps.modify i fun b =>
      { b with config := { b.config with debugClient := debugClient } } }

/-- The step does not activate a bootstrap whose debugging is not the same in both runs, nor with a
context whose modes are not, unless it repeats the activation that the runs are about. -/
def Step.Spares (once : Prop) (i c : Nat) (mode mode' : HostMode) (debugClient debugClient' : Bool) :
    Step → Prop
  | activate n m =>
    (¬ once ∧ n = i + 1 ∧ m = c + 1) ∨
      (n = i + 1 → debugClient = debugClient') ∧ (m = c + 1 → mode.mode? = mode'.mode?)
  | _ => True

/-- Two runs of an activation in production, once what announces a debugging is said. -/
def productionContrast (once nested : Prop) (i c : Nat) (mode mode' : HostMode)
    (debugClient debugClient' : Bool) (t₁ t₂ : List Event) : Contrast where
  context := c
  fitted := fun f => f.mode = mode
  refit := fun x => { x with mode := mode' }
  bootstrap := i
  debugging := fun d => d = debugClient
  debugClient := fun _ => debugClient'
  steps := Step.Same nested (Step.Spares once i c mode mode' debugClient debugClient')
  actions := Reaction.Same nested (Step.Spares once i c mode mode' debugClient debugClient')
  commands := List.Forall₂ (Reaction.Meets
    (Step.Same nested (Step.Spares once i c mode mode' debugClient debugClient')))
  refit_notifier := fun _ => rfl
  refit_subscriptions := fun _ _ => rfl
  traces := fun t u => ∃ es es', t = t₁ ++ es ∧ u = t₂ ++ es' ∧ Rejoins once es es'
  traces_snoc := by
    rintro t u e f ⟨es, es', rfl, rfl, h⟩ he
    rw [← Event.eq_of_meets Step.eq_of_same he]
    exact ⟨es ++ [e], es' ++ [e], by simp, by simp, h.snoc e⟩

theorem run_announce {respond : Call → Setting → Except Fault Reply × Setting} (mode : HostMode)
    (s : Setting) :
    mode.announce.run respond s =
      (.ok (), { s with world := { s.world with trace := s.world.trace ++ mode.announcement } }) := by
  unfold HostMode.announce HostMode.announcement
  split
  · rfl
  · rw [List.append_nil]
    rfl

namespace Bootstrap

/-- The transport for production, for a path. -/
def arrangeSpawn (config : Config) (context : Context) (path : Path) : Procedure Transport :=
  reporting do
    Procedure.remark (.runningIn .production)
    prepareSpawn config context path

/-- Whichever way an activation comes to production, it then arranges the same transport. -/
theorem arrange_of_isProductive {config : Config} {x : Context} {path : Path}
    (hpath : x.path.toPath = .ok path) (hmode : x.mode.IsProductive config.debugClient) :
    arrange config x = (do
      Procedure.remark (.extensionPath x.path)
      x.mode.announce
      arrangeSpawn config x path) := by
  rw [arrange, hpath]
  rcases hmode with hmode | ⟨hmode, hdebug⟩
  · simp only [prepare, HostMode.announce, resolveMode_of_mode? hmode, hmode, underDebugging,
      reduceCtorEq, false_and, if_false, LawfulMonad.pure_bind]
    rfl
  · simp only [prepare, HostMode.announce, resolveMode_of_mode? hmode, hmode, hdebug, underDebugging,
      and_self, if_true, LawfulMonad.bind_assoc, LawfulMonad.pure_bind]
    rfl

theorem arrange_congr {config : Config} {x : Context} {mode : HostMode} {debugClient : Bool}
    (h : resolveMode mode debugClient = resolveMode x.mode config.debugClient) :
    arrange { config with debugClient := debugClient } { x with mode := mode } = arrange config x := by
  unfold arrange prepare
  dsimp only
  rw [h]
  rfl

end Bootstrap

section Production

variable {once nested : Prop} {i c : Nat} {mode mode' : HostMode} {debugClient debugClient' : Bool}
  {t₁ t₂ : List Event} {take : Step → Setting → Setting}

theorem parallel_announce (hmode : once → mode.mode? = mode'.mode?) :
    (productionContrast once nested i c mode mode' debugClient debugClient' t₁ t₂).Parallel take Eq
      mode.announce mode'.announce := by
  intro s t hst _ _
  rw [run_announce, run_announce]
  obtain ⟨es, es', ht, hu, h⟩ := hst.world.trace
  refine ⟨.ok rfl, { hst.world with trace := ⟨_, _, ?_, ?_, h.announce hmode⟩ }, hst.script⟩
  · rw [ht, List.append_assoc]
  · rw [hu, List.append_assoc]

/-- An activation that is repeated comes to production in each run as it did before. -/
theorem parallel_arrange_of_repeated
    (hensure : ∀ program module notifier,
      (productionContrast once nested i c mode mode' debugClient debugClient' t₁ t₂).Blind take
        (ensureDependency program module notifier))
    (honce : ¬ once) (hmode : mode.IsProductive debugClient) (hmode' : mode'.IsProductive debugClient')
    {config : Config} {x : Context} (hx : x.mode = mode) (hdebug : config.debugClient = debugClient) :
    (productionContrast once nested i c mode mode' debugClient debugClient' t₁ t₂).Parallel take Eq
      (Bootstrap.arrange config x)
      (Bootstrap.arrange { config with debugClient := debugClient' } { x with mode := mode' }) := by
  subst hx hdebug
  cases hpath : x.path.toPath with
  | error kindName =>
    unfold Bootstrap.arrange
    rw [hpath]
    exact parallel_throw _
  | ok path =>
    rw [Bootstrap.arrange_of_isProductive hpath hmode,
      Bootstrap.arrange_of_isProductive (x := { x with mode := mode' }) hpath hmode']
    refine (Contrast.blind_remark _).bind_eq fun _ => (parallel_announce (absurd · honce)).bind_eq
      fun _ => Contrast.Upheld.reporting ?_
    exact (Contrast.blind_remark _).bind_eq fun _ =>
      Contrast.Upheld.prepareSpawn hensure config x path

/-- Where the ways differ in nothing that an activation depends on, it arranges the same transport. -/
theorem arrange_of_spared {i' c' : Nat} {b : Bootstrap} {x : Context} {m : Mode}
    (hmode : mode.mode? = some m) (hdebug : i = i' → b.config.debugClient = debugClient')
    (hx : c = c' → x.mode = mode) (hsame : c = c' → mode.mode? = mode'.mode?) :
    let κ := productionContrast once nested i c mode mode' debugClient debugClient' t₁ t₂
    Bootstrap.arrange (κ.bootstrapAt i' b).config (κ.contextAt c' x) =
      Bootstrap.arrange b.config x := by
  intro κ
  have hb : κ.bootstrapAt i' b = b := by
    unfold Contrast.bootstrapAt
    split
    · rename_i heq
      change { b with config := { b.config with debugClient := debugClient' } } = b
      rw [← hdebug heq]
    · rfl
  rw [hb]
  unfold Contrast.contextAt
  split
  · rename_i heq
    refine @Bootstrap.arrange_congr b.config x mode' _ ?_
    have hm : x.mode.mode? = some m := hx heq ▸ hmode
    have hm' : mode'.mode? = some m := (hsame heq).symm.trans hmode
    rw [resolveMode_of_mode? hm', resolveMode_of_mode? hm]
  · rfl

theorem keeps_production (hmode : mode.IsProductive debugClient)
    (hmode' : mode'.IsProductive debugClient') (limit depth : Nat) :
    (productionContrast once nested i c mode mode' debugClient debugClient' t₁ t₂).Keeps
      (Step.leave limit depth) := by
  refine Contrast.keeps_same rfl rfl rfl ?_ (fun _ _ _ _ _ => Iff.rfl)
    (fun c' heading x _ _ => ?_) (fun take i' c' b x hstep hensure hdebug hmodes => ?_) limit depth
  · exact fun hl hm => List.rel_append hl hm
  · unfold Contrast.contextAt
    split
    · rfl
    · rfl
  · have hdebug : i = i' → b.config.debugClient = debugClient := hdebug
    have hmodes : c = c' → x.mode = mode := hmodes
    rcases hstep with ⟨honce, hi, hc⟩ | ⟨hspared, hspared'⟩
    · have hi : i = i' := by omega
      have hc : c = c' := by omega
      rw [Contrast.bootstrapAt, if_pos (show (productionContrast ..).bootstrap = i' from hi),
        Contrast.contextAt, if_pos (show (productionContrast ..).context = c' from hc)]
      exact parallel_arrange_of_repeated hensure honce hmode hmode' (hmodes hc) (hdebug hi)
    · obtain ⟨m, hm⟩ : ∃ m, mode.mode? = some m := hmode.elim (⟨_, ·⟩) (⟨_, ·.1⟩)
      exact Contrast.Upheld.parallel_arrange_of_eq hensure <| arrange_of_spared hm
        (fun hi => (hdebug hi).trans (hspared (by rw [hi]))) hmodes fun hc => hspared' (by rw [hc])

/-- The worlds of the two runs differ in what the host says and the configuration of the client, and in
their traces. -/
theorem Contrast.Worlds.eq_rehost {v w : World}
    (h : (productionContrast once nested i c mode mode' debugClient debugClient' t₁ t₂).Worlds v w) :
    w = { v.rehost c mode' i debugClient' with trace := w.trace } :=
  h.eq (fun _ _ hr => hr.1) rfl

end Production

namespace Bootstrap

variable {once : Prop} {i c limit depth : Nat} {mode : HostMode} {debugClient : Bool} {v : World}
  {script : Script} {b : Bootstrap} {x : Context} {path : Path}

/-- What an activation in production leads to, once it has said how it comes to that. -/
theorem perform_in_production (hb : v.bootstraps[i]? = some b) (hx : v.contexts[c]? = some x)
    (hpath : x.path.toPath = .ok path) (hmode : x.mode.IsProductive b.config.debugClient)
    (limit depth : Nat) (script : Script) :
    let r := (do
      let transport ← arrangeSpawn b.config x path
      succession i c (b.config, x, transport)).run (Call.respond (Step.leave limit depth))
        ⟨{ v with trace := v.trace ++ opening i c x.path ++ x.mode.announcement }, script⟩
    (Step.activate (i + 1) (c + 1)).perform limit (depth + 1) ⟨v, script⟩ =
      (r.1.map .activated, r.2.happen (.ended (r.1.map .activated))) := by
  have hperform := Step.perform_activate (s := ⟨v, script⟩) hb hx limit depth
  simp only [arrange_of_isProductive hpath hmode, LawfulMonad.bind_assoc] at hperform
  simp only [Procedure.remark, change, run_bind, run, run_announce, Setting.happen, remark_opening]
    at hperform ⊢
  exact hperform

/-- The two runs of an activation, once both have said how they come to production. -/
theorem settings_in_production (hb : v.bootstraps[i]? = some b) (hx : v.contexts[c]? = some x)
    (hnested : Setting.Nests (fun _ => True)
      (Step.Spares once i c x.mode mode b.config.debugClient debugClient) ⟨v, script⟩)
    (t₁ t₂ : List Event) :
    ∃ nested, (productionContrast once nested i c x.mode mode b.config.debugClient debugClient
        t₁ t₂).Settings
      ⟨{ v with trace := t₁ }, script⟩ ⟨{ v.rehost c mode i debugClient with trace := t₂ }, script⟩ := by
  obtain ⟨nested, hqueue, hdisposables⟩ := hnested.exists_same
  refine ⟨nested, ⟨?_, fun q _ => hqueue q trivial, hqueue .process trivial⟩⟩
  exact .of_eq rfl (.inr ⟨x, hx, rfl⟩) (.inr ⟨b, hb, rfl⟩) hdisposables rfl
    ⟨[], [], by simp, by simp, .nil⟩

/-- An activation that cannot even begin, as its extension path is no path. -/
theorem perform_of_no_path {kindName : String} (hb : v.bootstraps[i]? = some b)
    (hx : v.contexts[c]? = some x) (hpath : x.path.toPath = .error kindName) (limit depth : Nat)
    (script : Script) :
    let answer : Answer := .error (.badConfiguration (.extensionPathNotPath kindName))
    (Step.activate (i + 1) (c + 1)).perform limit (depth + 1) ⟨v, script⟩ =
      (answer, ⟨(v.happen (.began (.activate (i + 1) (c + 1)))).happen (.ended answer), script⟩) := by
  have hperform := Step.perform_activate (s := ⟨v, script⟩) hb hx limit depth
  rw [arrange, hpath] at hperform
  exact hperform

theorem blind_spawn {nested : Prop} {mode' : HostMode} {debugClient' : Bool} {t₁ t₂ : List Event}
    (hmode : mode.IsProductive debugClient) (hmode' : mode'.IsProductive debugClient')
    (limit depth : Nat) (config : Config) (x : Context) (path : Path) :
    (productionContrast once nested i c mode mode' debugClient debugClient' t₁ t₂).Blind
      (Step.leave limit depth) (do
        let transport ← arrangeSpawn config x path
        succession i c (config, x, transport)) := by
  have hkeeps : (productionContrast once nested i c mode mode' debugClient debugClient' t₁ t₂).Keeps
      (Step.leave limit depth) := keeps_production hmode hmode' limit depth
  have hupheld := hkeeps.upheld rfl
  have hchecking := hupheld.checking (hkeeps.blind_process fun _ _ => Iff.rfl)
  refine Parallel.bind_eq (Contrast.Upheld.reporting ?_) fun transport =>
    hupheld.succession i c config x transport
  exact (Contrast.blind_remark _).bind_eq fun _ =>
    Contrast.Upheld.prepareSpawn hchecking.ensureDependency config x path

/-- What two runs come to that go on alike, with their answers. -/
theorem outcomes_in_production {nested : Prop} {mode' : HostMode} {debugClient' : Bool}
    {t₁ t₂ : List Event} {r₁ r₂ : Except Fault Nat × Setting}
    (h : Corresponds Eq r₁.1 r₂.1 ∧
      (productionContrast once nested i c mode mode' debugClient debugClient' t₁ t₂).Settings r₁.2 r₂.2) :
    r₁.1.map Response.activated = r₂.1.map .activated ∧
      (∃ (w : World) (es es' : List Event),
        (r₁.2.happen (.ended (r₁.1.map .activated))).world = { w with trace := t₁ ++ es } ∧
        (r₂.2.happen (.ended (r₂.1.map .activated))).world =
          { w.rehost c mode' i debugClient' with trace := t₂ ++ es' } ∧
        Rejoins once es es') ∧
      r₁.2.script = r₂.2.script := by
  obtain ⟨hr, hst⟩ := h
  rw [corresponds_eq] at hr
  obtain ⟨es, es', htrace, htrace', hrejoins⟩ := hst.world.trace
  rw [hr]
  refine ⟨rfl, ⟨r₁.2.world, _, _, ?_, ?_, hrejoins.snoc (.ended (r₂.1.map .activated))⟩,
    funext fun q => ?_⟩
  · simp only [Setting.happen, World.happen, htrace, List.append_assoc]
  · rw [← List.append_assoc, ← htrace', Setting.happen, hst.world.eq_rehost]
    rfl
  · by_cases hq : q = .process
    · exact hq ▸ List.forall₂_eq_eq_eq ▸ hst.script.process.imp fun _ _ =>
        Reaction.eq_of_meets fun _ _ => Step.eq_of_same _ _
    · exact hst.script.eq (fun _ _ => Step.eq_of_same _ _) hq

/-- Two activations of a bootstrap with a context, whichever way each of them comes to production, answer
the same and leave all alike; the traces differ only in what announces the debugging of a client. Nothing
is asked of nested steps if both ways are of the same mode and debugging. Otherwise, unless they repeat the
activation, they may not activate with the context where the ways differ in the mode, nor the bootstrap
where they differ in the debugging. If no step repeats the activation, the only difference is the
announcement that it makes itself. -/
theorem activate_in_production (hb : v.bootstraps[i]? = some b) (hx : v.contexts[c]? = some x)
    (hmode : x.mode.IsProductive b.config.debugClient) (hmode' : mode.IsProductive debugClient)
    (hnested : (x.mode.mode? = mode.mode? ∧ b.config.debugClient = debugClient) ∨
      Setting.Nests (fun _ => True)
        (Step.Spares once i c x.mode mode b.config.debugClient debugClient) ⟨v, script⟩) :
    let first := (Step.activate (i + 1) (c + 1)).perform limit (depth + 1) ⟨v, script⟩
    let second := (Step.activate (i + 1) (c + 1)).perform limit (depth + 1)
      ⟨v.rehost c mode i debugClient, script⟩
    first.1 = second.1 ∧
      (∃ (w : World) (before after after' : List Event),
        first.2.world = { w with trace := before ++ x.announcement ++ after } ∧
        second.2.world = { w.rehost c mode i debugClient with
          trace := before ++ ({ x with mode := mode } : Context).announcement ++ after' } ∧
        Rejoins once after after') ∧
      first.2.script = second.2.script := by
  intro first second
  have hnested : Setting.Nests (fun _ => True)
      (Step.Spares once i c x.mode mode b.config.debugClient debugClient) ⟨v, script⟩ := by
    refine hnested.elim (fun ⟨hsame, hdebug⟩ => Setting.nests_of_forall (fun step => ?_) _) id
    unfold Step.Spares
    split
    · exact .inr ⟨fun _ => hdebug, fun _ => hsame⟩
    · trivial
  have hb' : (v.rehost c mode i debugClient).bootstraps[i]? =
      some { b with config := { b.config with debugClient := debugClient } } := by
    rw [World.rehost, getElem?_modify_of_some _ hb, if_pos rfl]
  have hx' : (v.rehost c mode i debugClient).contexts[c]? = some { x with mode := mode } := by
    rw [World.rehost, getElem?_modify_of_some _ hx, if_pos rfl]
  cases hpath : x.path.toPath with
  | error kindName =>
    have hfirst := perform_of_no_path hb hx hpath limit depth script
    have hsecond := perform_of_no_path hb' hx' hpath limit depth script
    simp only [first, second, hfirst, hsecond, Context.announcement, hpath]
    refine ⟨trivial, ⟨v, v.trace, _, _, ?_, ?_, (Rejoins.nil.snoc (.began (.activate (i + 1) (c + 1)))).snoc
      (.ended (.error (.badConfiguration (.extensionPathNotPath kindName))))⟩, trivial⟩
    · simp [World.happen]
    · simp [World.happen, World.rehost]
  | ok path =>
    obtain ⟨nested, hst⟩ := settings_in_production hb hx hnested
      (v.trace ++ opening i c x.path ++ x.mode.announcement)
      (v.trace ++ opening i c x.path ++ mode.announcement)
    have hfirst := perform_in_production hb hx hpath hmode limit depth script
    have hsecond := perform_in_production hb' hx' hpath hmode' limit depth script
    have houtcomes := outcomes_in_production
      ((blind_spawn hmode hmode' limit depth b.config x path).unbounded (fun _ => trivial) hst)
    simp only [first, second, hfirst, hsecond, Context.announcement, hpath]
    obtain ⟨hanswer, ⟨w, es, es', hw, hw', hrejoins⟩, hscript⟩ := houtcomes
    exact ⟨hanswer, ⟨w, v.trace ++ opening i c x.path, es, es', hw, hw', hrejoins⟩, hscript⟩

/-- Two contexts in development, and a bootstrap whose client is debugged. -/
def debuggedSetting : Setting :=
  let context : Step := .newContext (.path ⟨.none, []⟩) (.member (.text "development"))
    (.object [("python", .object [("pythonPath", .text "py")])]) .host
  Step.leaveAll 9 9
    [context, context, .newConfig { Config.standard with debugClient := true }, .newBootstrap (some 1)]
    (.unlogged .empty)

/-- The second host is under test and does not debug the client. The activation is repeated while the
server starts. -/
theorem activate_under_test :
    let script := Script.once .startServer [.activate 1 1] none
    let first := (Step.activate 1 1).perform 9 9 ⟨debuggedSetting.world, script⟩
    let second := (Step.activate 1 1).perform 9 9
      ⟨debuggedSetting.world.rehost 0 (.value (.text "Test")) 0 false, script⟩
    first.1.isOk = true ∧ first.1 = second.1 ∧
      (∃ (w : World) (before after after' : List Event),
        first.2.world = { w with trace := before ++ [.remarked .debuggingClient] ++ after } ∧
        second.2.world = { w.rehost 0 (.value (.text "Test")) 0 false with
          trace := before ++ [] ++ after' } ∧
        Rejoins False after after') ∧
      first.2.script = second.2.script := by
  intro script first second
  have hnested : Setting.Nests (fun _ => True)
      (Step.Spares False 0 0 (.mode .development) (.value (.text "Test")) true false)
      ⟨debuggedSetting.world, script⟩ := by
    have hdisposables : debuggedSetting.world.disposables = [] := rfl
    refine .every (fun q _ r hr => ?_) fun d hd => ?_
    · simp only [script, Script.once] at hr
      split at hr
      · rw [List.mem_singleton.mp hr]
        exact ⟨.inl ⟨not_false, rfl, rfl⟩, trivial⟩
      · cases hr
    · rw [hdisposables] at hd
      cases hd
  have hb : debuggedSetting.world.bootstraps[0]? =
      some ⟨{ Config.standard with debugClient := true }, none⟩ := rfl
  have htest : HostMode.mode? (.value (.text "Test")) = some .production := by decide +kernel
  obtain ⟨hanswer, ⟨w, before, after, after', hw, hw', hrejoins⟩, hscript⟩ :=
    @activate_in_production False 0 0 9 8 _ _ _ _ _ _ hb rfl (.inr ⟨rfl, rfl⟩) (.inl htest)
      (.inr hnested)
  have hannouncement : HostMode.announcement (.value (.text "Test")) = [] := by
    rw [HostMode.announcement, htest]
  change second.2.world = { w.rehost 0 _ 0 false with
    trace := before ++ HostMode.announcement (.value (.text "Test")) ++ after' } at hw'
  rw [hannouncement] at hw'
  exact ⟨by decide +kernel, hanswer, ⟨w, before, after, after', hw, hw', hrejoins⟩, hscript⟩

/-- A repeated activation makes its announcement again, and one with another context in development
connects to a server if the client is not debugged. -/
theorem not_announced_alone :
    let perform := fun w nested => ((Step.activate 1 1).perform 9 9
      ⟨w, Script.once .startServer [nested] none⟩).2.world
    let other := fun debugClient => debuggedSetting.world.rehost 0 (.mode .production) 0 debugClient
    ((perform debuggedSetting.world (.activate 1 1)).trace.countP Event.isAnnouncement = 2 ∧
        (perform (other true) (.activate 1 1)).trace.countP Event.isAnnouncement = 0) ∧
      (perform debuggedSetting.world (.activate 1 2)).connections = 0 ∧
      (perform (other false) (.activate 1 2)).connections = 1 := by
  decide +kernel

end Bootstrap

end EditorClient
