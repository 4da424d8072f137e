import EditorClient.Proofs.StepOwnership

/-! Every step, whatever it is and whatever happens during its calls, leaves the ownership of
sessions in order. So does every run of steps, at each of its moments. -/

namespace EditorClient

open Procedure

/-- A procedure after which things are in order. -/
abbrev Procedure.Orderly {α : Type} (p : Procedure α) : Prop :=
  p.Preserves (World.Sound none none) World.Meanwhile (World.Sound none none)

theorem Procedure.Confined.orderly {α : Type} {p : Procedure α} (hp : p.Quiet) : p.Orderly :=
  fun w hw => (hp.steady w ⟨hw, .refl w⟩).mono fun _ _ h => h.1

theorem orderly_of_steady {α : Type} {p : Procedure α} (hp : ∀ w₀, p.Steady w₀) : p.Orderly :=
  fun w hw => (hp w w ⟨hw, .refl w⟩).mono fun _ _ h => h.1

theorem ensures_newSession_other {name : Value} {transport : Transport} {options : SessionOptions}
    {w : World} {step : Step} {n : Nat} {rest : List StepUnderWay} (hs : step.isOther = true)
    (h : w.Sound none none) (hu : w.history.underWay = ⟨step, n⟩ :: rest) :
    (newSession name transport options).Ensures (World.Sound none none) World.Meanwhile w
      fun _ w' => w'.Sound none none := by
  unfold newSession
  rw [ensures_bind]
  refine ((confined_openChannel _).steady w ⟨h, .refl w⟩).mono fun r w₁ hw₁ => ?_
  cases r with
  | error f => exact hw₁.1
  | ok slug =>
    rw [onOk, ensures_bind]
    refine (steady_request _ w₁ hw₁).mono fun r w₂ hw₂ => ?_
    cases r with
    | error f => exact hw₂.1
    | ok _ =>
      obtain ⟨hs₂, hm₂⟩ := hw₂
      simp only [onOk, ensures_bind, ensures_ask, ensures_change, ensures_happen, ensures_pure]
      have he : ∀ i, w₂.history.next (.madeClient i) = w₂.history := fun i =>
        History.make_other hs (hm₂.underWay.trans hu) i
      refine (hs₂.addSession _).happen_of_activations ?_ ?_ ?_
      · exact congrArg History.activations (he _)
      · exact congrArg History.meddled (he _)
      · intro d hd
        exact .inl (he w₂.sessions.length ▸ hd)

theorem ensures_buildSession_other {transport : Transport} {options : SessionOptions} {w : World}
    {step : Step} {n : Nat} {rest : List StepUnderWay} (hs : step.isOther = true)
    (h : w.Sound none none) (hu : w.history.underWay = ⟨step, n⟩ :: rest) :
    (buildSession transport options).Ensures (World.Sound none none) World.Meanwhile w
      fun _ w' => w'.Sound none none := by
  unfold buildSession
  rw [ensures_bind, ensures_ofExcept]
  cases transportNames transport with
  | error f => exact h
  | ok names =>
    simp only [onOk, ensures_bind, ensures_remark]
    have hremark := World.Alike.happen (e := .remarked (.buildingSession names.1 names.2)) w rfl
    rw [← hremark.history] at hu
    exact ensures_newSession_other hs (h.alike hremark) hu

namespace Step

variable {w : World} {step : Step}

/-- The sessions that a step handles directly are none of an activation's, or it meddles. -/
theorem meddled_begin {i : Nat} (hs : step.handled = some (i + 1 : Int)) {w' : World}
    (hl : (w.happen (.began step)).Later w') (hi : i < w.sessions.length)
    (hm : w'.history.made i = true) : w'.history.meddled = true := by
  have hmade := hl.made i hi hm
  rw [World.history_happen] at hmade
  refine hl.history.meddled ((World.Inside.begin w step).meddled hs ?_)
  rwa [← History.made_begin _ step]

/-- An activation has started its session. -/
theorem not_made_of_fresh {i : Nat} (h : w.Sound none none) (hx : Session.Fresh w i) {w' : World}
    (hl : w.Later w') (n : Nat) (a : Activation) (ha : w'.history.activations[n]? = some a) :
    a.session ≠ some i := by
  intro hs
  obtain ⟨x, hx, hstart, _⟩ := hx
  have hmade := hl.made i (List.getElem?_eq_some_iff.mp hx).1 (History.made_iff.mpr ⟨n, a, ha, hs⟩)
  obtain ⟨m, b, hm, hbs⟩ := History.made_iff.mp hmade
  obtain ⟨y, hy, hystart⟩ := (h.owns_at hm hbs).session
  rw [hx, Option.some.injEq] at hy
  rw [hy, hystart] at hstart
  cases hstart

end Step

theorem Session.orderly_start (i : Nat) : (Session.start i).Orderly := by
  intro w hw
  have htame := w.tame_modifySession i (f := fun s => { s with started := true })
    fun x _ => ⟨rfl, rfl, fun _ => rfl, rfl⟩
  have hlater := w.later_modifySession i fun s => { s with started := true }
  refine (Session.ensures_start_sound (i := i) fun _ => hw.tame htame rfl rfl rfl).mono
    fun r w' hw' => ?_
  cases hw' with
  | refused _ => exact hw
  | failed hs _ => exact hs
  | unlogged hx hs hm _ =>
    refine World.Sound.alike (hs.markInitialized fun n a ha hi => ?_) (.happen _ rfl)
    exact absurd hi (Step.not_made_of_fresh hw hx (hlater.trans hm.later) n a ha)
  | running hx hs hm =>
    refine World.Sound.alike (hs.markInitialized fun n a ha hi => ?_) (.post _ _)
    exact absurd hi (Step.not_made_of_fresh hw hx (hlater.trans hm.later) n a ha)

theorem Controller.orderly_stop (k : Nat) : (Controller.stop k).Orderly := fun _ hw =>
  (Controller.ensures_stop_sound (hw.weaken (some k)).halt).mono fun _ _ hw' => hw'.1

theorem Disposable.orderly_dispose (d : Nat) : (Disposable.dispose d).Orderly := by
  intro w hw
  cases hx : w.disposables[d]? with
  | some x => exact Disposable.ensures_dispose_sound hx (hw.weaken _)
  | none =>
    unfold Disposable.dispose
    rw [ensures_bind, Disposable.find, ensures_find]
    refine ⟨fun x hx' => ?_, fun _ => hw⟩
    rw [hx] at hx'
    cases hx'

theorem Host.orderly_disposeOne (d : Nat) : (Host.disposeOne d).Orderly :=
  (Disposable.orderly_dispose d).bind fun _ => (confined_find _ _ _).orderly.bind fun _ =>
    preserves_pure _

theorem Host.orderly_sessionMade (i : Nat) : (Host.sessionMade i).Orderly :=
  (confined_find _ _ _).orderly.bind fun _ => preserves_pure _

/-- What the host subscribes stops no controller. -/
theorem Host.orderly_subscribe (name : String) (reaction : Reaction) (context : Option Int) :
    (Host.subscribe (.scripted name reaction) context).Orderly := by
  intro w hw
  have hadd := hw.addDisposable (.scripted name reaction) nofun
  have hnumber := hadd.tame (World.tame_of_contexts _ _ (w.subscribed ++ [w.disposables.length]))
    rfl rfl rfl
  unfold Host.subscribe
  simp only [ensures_bind, ensures_ask, ensures_change, onOk]
  cases context with
  | none => exact hnumber
  | some number =>
    rw [ensures_bind, ensures_index]
    refine ⟨fun i _ _ => ?_, fun _ => hnumber⟩
    refine hnumber.register ?_ fun a _ k _ => ?_
    · simp [addDisposable]
    · exact World.binds_addDisposable_new (.scripted name reaction) k

/-- A host that gives a session to a controller itself either meddles or uses one of its own. -/
theorem Controller.ensures_start_other {k i context : Nat} {w₀ w : World} {step : Step}
    (hstep : step.handled = some (i + 1 : Int)) (hw : w = w₀.happen (.began step))
    (h : w.Sound none none) (hlt : i < w.sessions.length) :
    (Controller.start k i context).Ensures (World.Sound none none) World.Meanwhile w
      fun _ w' => w'.Sound none none := by
  have hlater := w.later_setOff k i
  refine (Controller.ensures_start_sound hlt (fun _ => h) (fun hk _ => ?_)
    (fun hx w' p hs hm _ => World.Sound.alike (hs.markInitialized fun n a ha hi => ?_)
      (.happen _ rfl)) fun w' _ hl hm => .inl ?_).mono
    fun r w' hw' => ?_
  · refine h.setOff (fun c hc => ?_) i
    obtain ⟨c', hc', hst⟩ := hk
    rw [hc, Option.some.injEq] at hc'
    exact hc' ▸ hst
  · exact absurd hi (Step.not_made_of_fresh h hx (hlater.trans hm.later) n a ha)
  · subst hw
    exact Step.meddled_begin hstep hl hlt hm
  · cases hw' with
    | refused _ => exact h
    | failed hs _ _ => exact hs
    | running hk hx hs hm =>
      obtain ⟨c, hc, _⟩ := hk
      have hlt' := Nat.lt_of_lt_of_le hlt (hlater.trans hm.later).sessions
      refine World.Sound.alike (hs.run_registered context (fun n a ha hi => ?_) hlt'
        (hm.starting hc) rfl (.post _ _)) (.happen _ rfl)
      exact absurd hi (Step.not_made_of_fresh h hx (hlater.trans hm.later) n a ha)

namespace Step

/-- What the disposal of a context leaves of its subscriptions. -/
def Drained (step : Step) (answer : Answer) (w : World) : Prop :=
  ∀ c r, step = .disposeContext c → answer = .ok r →
    ∃ x, w.contexts[c.toNat - 1]? = some x ∧ x.subscriptions = []

variable {limit : Nat}

theorem ensures_disposeContext (c : Int) {w : World} (h : w.Sound none none) :
    ((disposeContext c).procedure limit).Ensures (World.Sound none none) World.Meanwhile w
      fun r w' => w'.Sound none none ∧ (disposeContext c).Drained r w' := by
  change (Host.contextIndex c >>= _).Ensures _ _ _ _
  rw [ensures_bind]
  refine (ensures_index _ _ _ _).mpr ⟨fun i hi _ => ?_, fun _ => ⟨h, nofun⟩⟩
  change (Context.dispose limit i >>= _).Ensures _ _ _ _
  rw [ensures_bind]
  refine (Context.ensures_dispose_sound limit i h).mono fun r w' hw' => ?_
  obtain ⟨hs, hc⟩ := hw'
  cases r with
  | error f => exact ⟨hs, nofun⟩
  | ok u =>
    refine ⟨hs, fun c' r' hc' _ => ?_⟩
    obtain rfl := Step.disposeContext.inj hc'
    obtain ⟨x, hx, hnil⟩ := hc u rfl
    exact ⟨x, by rwa [hi, Int.toNat_natCast_add_one, Nat.add_sub_cancel], hnil⟩

/-- The steps that are neither an activation nor a deactivation. -/
theorem ensures_other_sound {step : Step} (hs : step.isOther = true) {w₀ w : World}
    (hw : w = w₀.happen (.began step)) (h : w.Sound none none) :
    (step.procedure limit).Ensures (World.Sound none none) World.Meanwhile w
      fun _ w' => w'.Sound none none := by
  have hu : w.history.underWay = ⟨step, w₀.history.activations.length⟩ :: w₀.history.underWay := by
    rw [hw, World.history_happen]
    rfl
  by_cases hquiet : step.isQuiet = true
  · exact (quiet_procedure limit hquiet).orderly w h
  cases step with
  | newContext path choice settings notifier =>
    refine (confined_ofExcept _).orderly.bind (fun mode =>
      Preserves.bind (preserves_change fun w hw => ?_) fun _ => preserves_pure _) w h
    exact hw.addContext rfl
  | subscribe name reaction context => exact Host.orderly_subscribe name reaction context w h
  | dispose number =>
    exact ((confined_index _ _ _).orderly.bind fun _ => (confined_find _ _ _).orderly).bind
      (fun _ => Host.orderly_disposeOne _) w h
  | disposeAt context place =>
    refine (confined_index _ _ _).orderly.bind (fun _ => Preserves.bind ((confined_find _ _ _).orderly.bind
      fun c => ?_) fun _ => Host.orderly_disposeOne _) w h
    dsimp only
    split
    · exact preserves_pure _
    · exact preserves_throw _
  | disposeContext context => exact (ensures_disposeContext context h).mono fun _ _ hw' => hw'.1
  | newBootstrap number =>
    refine Preserves.bind (P := World.Sound none none) ?_ (fun config =>
      Preserves.bind (preserves_change fun w hw => hw.addBootstrap config) fun _ =>
        preserves_pure _) w h
    cases number with
    | none => exact preserves_pure _
    | some number => exact (confined_index _ _ _).orderly.bind fun _ => (confined_find _ _ _).orderly
  | newController notifier =>
    exact (confined_ask _).orderly.bind (fun _ => Preserves.bind (Preserves.bind
      (preserves_change fun w hw => hw.addController notifier) fun _ => preserves_pure _)
        fun _ => preserves_pure _) w h
  | startController controller session context =>
    refine ensures_index_bind.mpr ⟨fun k _ _ => ?_, fun _ => h⟩
    refine ensures_index_bind.mpr ⟨fun i hi hlt => ?_, fun _ => h⟩
    refine ensures_index_bind.mpr ⟨fun c _ _ => ?_, fun _ => h⟩
    have hstep : (startController controller session context).handled = some (i + 1 : Int) :=
      congrArg some hi
    exact (Controller.ensures_start_other hstep hw h hlt).bind_preserves fun _ => preserves_pure _
  | stopController controller =>
    exact (confined_index _ _ _).orderly.bind (fun k => (Controller.orderly_stop k).bind fun _ =>
      preserves_pure _) w h
  | buildSession transport options =>
    exact (ensures_buildSession_other hs h hu).bind_preserves Host.orderly_sessionMade
  | newSession name transport options =>
    exact (ensures_newSession_other hs h hu).bind_preserves Host.orderly_sessionMade
  | startSession session =>
    exact (confined_index _ _ _).orderly.bind (fun i => (Session.orderly_start i).bind fun _ =>
      preserves_pure _) w h
  | stopSession session =>
    refine ensures_index_bind.mpr ⟨fun i hi hlt => ?_, fun _ => h⟩
    have hstep : (stopSession session).handled = some (i + 1 : Int) := congrArg some hi
    have hstop := Session.ensures_stop_sound (h.stopSession fun hm => .inl (by
      subst hw
      exact meddled_begin hstep (World.Meanwhile.refl _).later hlt hm))
    exact (hstop.mono fun _ _ hw' => hw'.1).bind_preserves fun _ => preserves_pure _
  | changeFile session path change =>
    rw [procedure]
    split
    · exact (confined_index _ _ _).orderly.bind (fun i => (orderly_of_steady fun _ =>
        (Session.steady_connected i).changeFile path change).bind fun _ => preserves_pure _) w h
    · exact preserves_throw _ w h
  | activate | deactivate => cases hs
  | _ => exact absurd rfl hquiet

/-- The first call of an activation comes after its bootstrap and its context have been found. -/
theorem ensures_activate (b c : Int) {w : World} (h : w.Sound none none) :
    ((activate b c).procedure limit).Ensures (World.Sound none none) World.Meanwhile
      (w.happen (.began (.activate b c))) fun r w' => (w'.happen (.ended r)).Sound none none := by
  have hw := World.working_begin w b c
  have hb := h.begin (.activate b c)
  refine ensures_index_bind.mpr ⟨fun i hi _ => ?_, fun _ => hb.fail hw _⟩
  refine ensures_index_bind.mpr ⟨fun context hc hlt => ?_, fun _ => hb.fail hw _⟩
  rw [ensures_bind]
  refine (Bootstrap.ensures_activate_sound hb hw hi hc hlt).mono fun r w' hw' => ?_
  cases r with
  | ok k => exact hw'
  | error f => exact hw'

theorem ensures_deactivate (b : Int) {w : World} (h : w.Sound none none) :
    ((deactivate b).procedure limit).Ensures (World.Sound none none) World.Meanwhile
      (w.happen (.began (.deactivate b))) fun r w' => (w'.happen (.ended r)).Sound none none := by
  have hb := h.begin (.deactivate b)
  have hlen : (w.happen (.began (.deactivate b))).history.activations.length =
      w.history.activations.length := by
    simp [History.next, History.begin, History.opened]
  have hu : (w.happen (.began (.deactivate b))).history.underWay =
      ⟨.deactivate b, w.history.activations.length⟩ :: w.history.underWay := by
    rw [World.history_happen]
    rfl
  refine ensures_index_bind.mpr ⟨fun i hi _ => ?_, fun _ => hb.finish_deactivate hu _ fun _ h => by cases h⟩
  change (Bootstrap.deactivate i >>= _).Ensures _ _ _ _
  rw [ensures_bind]
  refine (Bootstrap.ensures_deactivate_sound hb).mono fun r w' hw' => ?_
  obtain ⟨hs, hl, hq⟩ := hw'
  have hu' := hl.underWay.trans hu
  cases r with
  | error f => exact hs.finish_deactivate hu' _ fun _ h => by cases h
  | ok u =>
    refine hs.finish_deactivate hu' _ fun _ _ => ?_
    rw [hi, ← hlen]
    exact (hq u rfl).mono hl.ended_subset

theorem ensures_procedure_sound (step : Step) {w : World} (h : w.Sound none none) :
    (step.procedure limit).Ensures (World.Sound none none) World.Meanwhile
      (w.happen (.began step)) fun r w' =>
        (w'.happen (.ended r)).Sound none none ∧ step.Drained r (w'.happen (.ended r)) := by
  have hinside := keeps_procedure limit step w _ (.begin w step)
  by_cases hs : step.isOther = true
  · have hdrained : (step.procedure limit).Ensures (World.Sound none none) World.Meanwhile
        (w.happen (.began step)) fun r w' => w'.Sound none none ∧ step.Drained r w' := by
      rcases Classical.em (∃ c, step = disposeContext c) with ⟨c, rfl⟩ | hne
      · exact ensures_disposeContext c (h.begin _)
      · exact (ensures_other_sound hs rfl (h.begin step)).mono fun _ _ hw' =>
          ⟨hw', fun c _ hc _ => absurd ⟨c, hc⟩ hne⟩
    refine (hdrained.and hinside fun _ _ => trivial).mono fun r w' hboth => ?_
    obtain ⟨⟨hw', hd⟩, hin⟩ := hboth
    exact ⟨hw'.finish_other hs hin.within.underWay r, hd⟩
  · cases step with
    | activate b c => exact (ensures_activate b c h).mono fun _ _ hw' => ⟨hw', nofun⟩
    | deactivate b => exact (ensures_deactivate b h).mono fun _ _ hw' => ⟨hw', nofun⟩
    | _ => exact absurd rfl hs

/-- Whatever a step finds in order it leaves in order, however deep its calls are nested. -/
theorem sound_contract (limit : Nat) :
    Step.Contract limit (World.Sound none none) World.Meanwhile (fun _ _ => True) Drained where
  refl := fun _ => trivial
  trans := fun _ _ => trivial
  relied := fun depth steps s _ => meanwhile_leaveAll limit depth steps s
  begins := fun step _ hw => hw.begin step
  course := fun step _ hw =>
    (ensures_procedure_sound step hw).mono fun _ _ hw' => ⟨hw'.1, trivial, hw'.2⟩

variable (limit depth : Nat) (directory : String) (log : LogDirectory) (script : Script)
  (steps : List Step)

theorem sound_leaveAll :
    (leaveAll limit depth steps (.start directory log script)).world.Sound none none :=
  ((sound_contract limit).leaveAll depth steps _ (World.sound_initial directory log)).1

theorem sound_moments {m : Moment} (hm : m ∈ runMoments limit depth steps
    (.start directory log script)) : m.world.Sound none none :=
  (((sound_contract limit).leaveAll depth steps _
    (World.sound_initial directory log)).2.2 m hm).world

theorem drained_moments {step : Step} {answer : Answer} {w : World}
    (hm : .ends step answer w ∈ runMoments limit depth steps (.start directory log script)) :
    step.Drained answer w :=
  (((sound_contract limit).leaveAll depth steps _ (World.sound_initial directory log)).2.2 _ hm).2

end Step

end EditorClient
