import EditorClient.Proofs.SessionSteps

/-! Every step, from beginning to end and with all that is nested in it, changes the world no more
than `World.Meanwhile` allows. -/

namespace EditorClient

namespace Procedure

variable {α β : Type} {w₀ : World} {step : Step}

/-- A step that does this is still a step that began at the world before. -/
abbrev Keeps (w₀ : World) (step : Step) (p : Procedure α) : Prop :=
  p.Preserves (fun _ => True) World.Meanwhile (w₀.Inside step)

theorem Confined.keeps {p : Procedure α} (hp : p.Quiet) : p.Keeps w₀ step := by
  intro w hw
  refine (hp.ensures World.Alike.meanwhile World.Meanwhile.trans (fun _ _ => trivial) trivial).mono
    fun r w' h => hw.meanwhile h.2

theorem keeps_change_meanwhile {f : World → World} (h : ∀ w, World.Meanwhile w (f w)) :
    (change f).Keeps w₀ step := fun w hw => hw.meanwhile (h w)

theorem keeps_request (c : Call) : (request c).Keeps w₀ step := by
  intro w hw
  rw [ensures_request]
  exact ⟨trivial, fun r w' _ hr =>
    (hw.meanwhile (World.meanwhile_happen fun _ => rfl)).meanwhile hr⟩

end Procedure

open Procedure

variable {w₀ : World} {step : Step}

namespace Session

theorem keeps_modify (i : Nat) {f : Session → Session}
    (hf : ∀ x, x.Evolves (f x) ∧ (f x).stopped = x.stopped) : (modify i f).Keeps w₀ step :=
  keeps_change_meanwhile fun w => w.meanwhile_modifySession i hf

theorem keeps_connected (i : Nat) :
    Connected (fun _ => True) World.Meanwhile (w₀.Inside step) i where
  quiet := Confined.keeps
  call := fun _ => Procedure.keeps_request _
  disconnect := keeps_modify i fun _ => ⟨⟨rfl, rfl, id, fun _ => rfl, id⟩, rfl⟩
  connect := fun _ => keeps_modify i fun _ => ⟨⟨rfl, rfl, id, fun _ => rfl, id⟩, rfl⟩
  setWriter := fun _ => Procedure.keeps_request _
  readLoop := fun _ => Procedure.keeps_request _
  addTask := keeps_modify i fun _ => ⟨⟨rfl, rfl, id, fun _ => rfl, id⟩, rfl⟩

theorem keeps_start (i : Nat) : (start i).Keeps w₀ step := by
  intro w hw
  have hconnected : Connected _ _ (w₀.Inside step) i := keeps_connected i
  refine (hconnected.ensures_start fun x hx hfresh _ => ⟨?_, ?_⟩).mono fun r w' hw' => ?_
  · refine hw.meanwhile (w.meanwhile_modifySession i fun _ => ?_)
    exact ⟨⟨rfl, rfl, fun _ => rfl, fun _ => rfl, id⟩, rfl⟩
  · refine preserves_change fun w' hw' => hw'.modifySession (fun y hy => ?_) fun _ => ⟨rfl, rfl, id, id⟩
    obtain ⟨x', hx', hyx⟩ := hw.evolves.sessions i y hy
    rw [hx, Option.some.injEq] at hx'
    cases hs : y.started with
    | false => rfl
    | true => rw [hx', hyx.started hs] at hfresh; cases hfresh
  · rcases hw' with rfl | hw'
    · exact hw
    · exact hw'

end Session

/-- A session that a step makes is not among those before it. -/
theorem ensures_newSession_inside {w : World} (hw : w₀.Inside step w) (name : Value)
    (transport : Transport) (options : SessionOptions) :
    (newSession name transport options).Ensures (fun _ => True) World.Meanwhile w fun r w' =>
      w₀.Inside step w' ∧ ∀ i, r = .ok i → w₀.sessions.length ≤ i := by
  unfold newSession
  rw [ensures_bind]
  refine ((confined_openChannel _).keeps w hw).mono fun r w₁ hw₁ => ?_
  cases r with
  | error f => exact ⟨hw₁, nofun⟩
  | ok slug =>
    rw [onOk, ensures_bind]
    refine (keeps_request _ w₁ hw₁).mono fun r w₂ hw₂ => ?_
    cases r with
    | error f => exact ⟨hw₂, nofun⟩
    | ok _ =>
      simp only [onOk, ensures_bind, ensures_ask, ensures_change, ensures_happen, ensures_pure]
      refine ⟨(hw₂.meanwhile (World.meanwhile_addSession _)).make hw₂.evolves.sessions_length, ?_⟩
      rintro i hi
      rw [← Except.ok.inj hi]
      exact hw₂.evolves.sessions_length

theorem ensures_buildSession_inside {w : World} (hw : w₀.Inside step w) (transport : Transport)
    (options : SessionOptions) :
    (buildSession transport options).Ensures (fun _ => True) World.Meanwhile w fun r w' =>
      w₀.Inside step w' ∧ ∀ i, r = .ok i → w₀.sessions.length ≤ i := by
  unfold buildSession
  rw [ensures_bind, ensures_ofExcept]
  cases transportNames transport with
  | error f => exact ⟨hw, nofun⟩
  | ok names =>
    simp only [onOk, ensures_bind, ensures_remark]
    exact ensures_newSession_inside (hw.meanwhile (World.meanwhile_happen fun _ => rfl)) _ _ _

theorem keeps_newController (n : Notifier) : (newController n).Keeps w₀ step :=
  (confined_ask _).keeps.bind fun _ =>
    Preserves.bind (keeps_change_meanwhile fun _ => World.meanwhile_addController n) fun _ =>
      preserves_pure _

namespace Controller

theorem keeps_callSession {i : Nat}
    (hi : ∀ c, w₀.controllers[i]? = some c → c.state ≠ .starting ∧ c.state ≠ .failed)
    (call : SessionCall) : (change (·.callSession i call)).Keeps w₀ step :=
  preserves_change fun _ hw => hw.callSession hi call

theorem ensures_startFailed_inside {i session : Nat} (name : Value) (fault : Fault) {w : World}
    (hw : w₀.Inside step w) (hi : ∀ c, w₀.controllers[i]? = some c → c.state = .unstarted)
    (hsession : ∀ w, w₀.Inside step w → w₀.Spared session → w.history.meddled = true) :
    (startFailed i session name fault).Ensures (fun _ => True) World.Meanwhile w
      fun _ w' => w₀.Inside step w' := by
  have hfailed : Keeps w₀ step (modify i fun c => { c with state := .failed }) :=
    preserves_change fun w hw => hw.modifyController hi fun c j hj => .inl hj
  have hcalls : ∀ c, w₀.controllers[i]? = some c → c.state ≠ .starting ∧ c.state ≠ .failed :=
    fun c hc => by simp [hi c hc]
  refine hfailed.bind (fun _ => (confined_remark _).keeps.bind fun _ =>
    (confined_find _ _ _).keeps.bind fun c => Preserves.bind ?_ fun _ =>
      Preserves.recoverOrdinary ((keeps_callSession hcalls _).bind fun _ => ?_) fun _ =>
        (confined_remark _).keeps) w hw
  · unfold notifyFailure
    split
    · exact preserves_pure ()
    · exact (confined_notify (fun _ => rfl) _ _).keeps
  · exact fun w hw => (Session.keeps_connected _).ensures_stop (hw.stopSession (hsession w hw))

theorem ensures_start_inside {i session context : Nat} {w : World} (hw : w₀.Inside step w)
    (hsession : ∀ w, w₀.Inside step w → w₀.Spared session → w.history.meddled = true) :
    (start i session context).Ensures (fun _ => True) World.Meanwhile w
      fun _ w' => w₀.Inside step w' := by
  unfold start
  simp only [ensures_bind, find, ensures_find, onOk]
  refine ⟨fun c hc => ?_, fun _ => hw⟩
  split
  · exact hw
  · rename_i hguard
    have hfresh : ∀ c, w₀.controllers[i]? = some c → c.state = .unstarted := by
      intro y hy
      obtain ⟨c', hc', hyc⟩ := hw.evolves.controllers i y hy
      rw [hc, Option.some.injEq] at hc'
      subst hc'
      exact hyc.unstarted (Decidable.not_not.mp hguard)
    have hstarting : Keeps w₀ step (modify i fun c => { c with state := .starting }) :=
      preserves_change fun w hw => hw.modifyController hfresh fun c j hj => .inl hj
    have hrunning : Keeps w₀ step
        (modify i fun c => { c with session := some session, state := .running }) :=
      preserves_change fun w hw => hw.modifyController hfresh fun c j hj => by
        rw [← Option.some.inj hj]
        exact .inr (hsession w hw)
    refine hstarting.bind (fun _ => (confined_find _ _ _).keeps.bind fun s =>
      (confined_remark _).keeps.bind fun _ => Preserves.bind
        (Preserves.recoverOrdinary (((keeps_callSession (fun c hc => by simp [hfresh c hc]) _).bind
          fun _ => Session.keeps_start _).bind fun _ => preserves_pure _)
          fun fault => Preserves.bind (fun w hw => ?_) fun _ => preserves_pure _) fun started => ?_)
      w hw
    · exact ensures_startFailed_inside _ _ hw hfresh hsession
    · split
      · refine hrunning.bind fun _ => Preserves.bind (keeps_change_meanwhile fun w => ?_) fun _ =>
          (confined_remark _).keeps.bind fun _ => preserves_pure _
        exact World.meanwhile_of_contexts _ (by simp [addDisposable]) _ _
      · exact preserves_pure _

theorem keeps_stop (i : Nat) : (stop i).Keeps w₀ step := by
  intro w hw
  unfold stop
  simp only [ensures_bind, find, ensures_find, onOk]
  refine ⟨fun c hc => ?_, fun _ => hw⟩
  split
  · rename_i session hr hs
    have hheld : w₀.Spared session → w.history.meddled = true := by
      intro hsp
      cases hm : w.history.meddled with
      | true => rfl
      | false => exact absurd ⟨c, hc, hs⟩ ((hw.evolves.spared session hsp hm).1.unheld i)
    have hw' := hw.meanwhile (World.meanwhile_stopController hc hr)
    simp only [ensures_bind, modify, ensures_change, onOk, Session.find, ensures_find,
      ensures_remark]
    refine ⟨fun x _ => ?_, fun _ => hw'⟩
    -- at the beginning of the step the controller was running or not even started
    have hbefore : ∀ c₀, w₀.controllers[i]? = some c₀ → c₀.state ≠ .starting ∧ c₀.state ≠ .failed := by
      intro c₀ hc₀
      obtain ⟨c', hc', hu | rfl | ⟨hrunning, _⟩⟩ := hw.evolves.controllers i c₀ hc₀
      · simp [hu]
      · rw [hc, Option.some.injEq] at hc'
        simp [← hc', hr]
      · simp [hrunning]
    rw [stopSession, ensures_bind, ensures_change]
    refine (Session.keeps_connected session).ensures_stop (World.Inside.stopSession ?_ fun hsp => ?_)
    · exact (hw'.meanwhile (World.meanwhile_happen fun _ => rfl)).callSession hbefore _
    · simpa using hheld hsp
  · exact (confined_remark _).keeps w hw

end Controller

namespace Context

theorem keeps_disposeOne (i : Nat) : (Disposable.dispose i).Keeps w₀ step := by
  refine (confined_find _ _ _).keeps.bind fun d => ?_
  split
  · exact preserves_pure ()
  · refine Preserves.bind (keeps_change_meanwhile fun w => ?_) fun _ => ?_
    · exact World.meanwhile_of_contexts _ (Nat.le_refl _) _ _
    · cases d.action with
      | scripted name reaction => exact (Procedure.keeps_request _).bind fun _ => preserves_pure ()
      | stopController controller => exact Controller.keeps_stop controller

theorem keeps_dispose (limit i : Nat) : (dispose limit i).Keeps w₀ step := by
  induction limit with
  | zero =>
    unfold dispose
    refine (confined_find _ _ _).keeps.bind fun c => ?_
    split
    · exact preserves_pure ()
    · exact preserves_throw _
  | succ limit ih =>
    unfold dispose
    refine (confined_find _ _ _).keeps.bind fun c => ?_
    split
    · exact preserves_pure ()
    · refine Preserves.bind (keeps_change_meanwhile fun w => ?_) fun _ => Preserves.bind ?_ fun _ => ih
      · exact World.meanwhile_of_contexts _ (by simp) _ _
      · exact (keeps_disposeOne _).recoverOrdinary fun _ => (confined_remark _).keeps

end Context

namespace Bootstrap

theorem keeps_hold (i : Nat) (controller : Option Nat) : (hold i controller).Keeps w₀ step :=
  preserves_change fun _ hw => hw.hold i controller

theorem keeps_deactivate (i : Nat) : (deactivate i).Keeps w₀ step := by
  refine (confined_find _ _ _).keeps.bind fun b => ?_
  split
  · exact preserves_pure ()
  · exact (keeps_hold i none).bind fun _ => Controller.keeps_stop _

theorem keeps_activate (i context : Nat) : (activate i context).Keeps w₀ step := by
  refine (confined_find _ _ _).keeps.bind fun b => (confined_find _ _ _).keeps.bind fun c => ?_
  split
  · exact preserves_throw _
  · refine (confined_remark _).keeps.bind fun _ =>
      (quiet_prepare _ _ _).keeps.bind fun transport => Preserves.bind ?_ fun _ => ?_
    · refine (confined_find _ _ _).keeps.bind fun b => ?_
      split
      · exact (confined_remark _).keeps.bind fun _ => keeps_deactivate i
      · exact preserves_pure ()
    · intro w hw
      rw [ensures_bind]
      refine (ensures_buildSession_inside hw _ _).mono fun r w' ⟨hw', hnew⟩ => ?_
      cases r with
      | error f => exact hw'
      | ok session =>
        have hspared : ∀ w, w₀.Inside step w → w₀.Spared session → w.history.meddled = true := by
          intro w _ hsp
          obtain ⟨x, hx, _⟩ := hsp.started
          have hlt := (List.getElem?_eq_some_iff.mp hx).1
          have hle := hnew session rfl
          omega
        refine (keeps_newController _).bind (fun controller => (keeps_hold i _).bind fun _ =>
          Preserves.bind (fun w hw => ?_) fun _ => preserves_pure _) w' hw'
        exact Controller.ensures_start_inside hw hspared

end Bootstrap

/-- A step that handles the session of an activation meddles. -/
theorem World.Inside.meddled {w : World} {i : Nat} (hw : w₀.Inside step w)
    (hs : step.handled = some (i + 1 : Int)) (hm : w₀.history.made i = true) :
    w.history.meddled = true := by
  refine hw.within.meddled ?_
  have hi : (1 : Int) ≤ i + 1 := by omega
  rw [History.isMeddling, hs]
  simp [hi, hm]

theorem Host.keeps_sessionMade (i : Nat) : (Host.sessionMade i).Keeps w₀ step :=
  (confined_find _ _ _).keeps.bind fun _ => preserves_pure _

theorem Host.keeps_disposeOne (i : Nat) : (Host.disposeOne i).Keeps w₀ step :=
  (Context.keeps_disposeOne i).bind fun _ => (confined_find _ _ _).keeps.bind fun _ => preserves_pure _

theorem keeps_procedure (limit : Nat) (step : Step) (w₀ : World) :
    (step.procedure limit).Keeps w₀ step := by
  by_cases hquiet : step.isQuiet = true
  · exact (quiet_procedure limit hquiet).keeps
  cases step with
  | newContext path choice settings notifier =>
    refine (confined_ofExcept _).keeps.bind fun mode =>
      Preserves.bind (keeps_change_meanwhile fun w => ?_) fun _ => preserves_pure _
    exact World.meanwhile_of_contexts _ (by simp) _ _
  | subscribe name reaction context =>
    refine (confined_ask _).keeps.bind fun disposable =>
      Preserves.bind (keeps_change_meanwhile fun w => ?_) fun _ =>
      Preserves.bind (keeps_change_meanwhile fun w => ?_) fun _ => ?_
    · exact World.meanwhile_of_contexts _ (Nat.le_refl _) _ _
    · exact World.meanwhile_of_contexts _ (Nat.le_refl _) _ _
    · cases context with
      | none => exact preserves_pure _
      | some number =>
        refine (confined_index _ _ _).keeps.bind fun i =>
          Preserves.bind (keeps_change_meanwhile fun w => ?_) fun _ => preserves_pure _
        exact World.meanwhile_of_contexts _ (by simp) _ _
  | dispose number =>
    exact ((confined_index _ _ _).keeps.bind fun _ => (confined_find _ _ _).keeps).bind fun _ =>
      Host.keeps_disposeOne _
  | disposeAt context place =>
    refine (confined_index _ _ _).keeps.bind fun _ => Preserves.bind ((confined_find _ _ _).keeps.bind
      fun c => ?_) fun _ => Host.keeps_disposeOne _
    dsimp only
    split
    · exact preserves_pure _
    · exact preserves_throw _
  | disposeContext context =>
    exact (confined_index _ _ _).keeps.bind fun i =>
      (Context.keeps_dispose limit i).bind fun _ => preserves_pure _
  | newBootstrap number =>
    refine Preserves.bind ?_ fun config => Preserves.bind (keeps_change_meanwhile fun w => ?_) fun _ =>
      preserves_pure _
    · cases number with
      | none => exact preserves_pure _
      | some number =>
        exact (confined_index _ _ _).keeps.bind fun _ => (confined_find _ _ _).keeps
    · exact World.meanwhile_addBootstrap config
  | activate bootstrap context =>
    exact (confined_index _ _ _).keeps.bind fun i => (confined_index _ _ _).keeps.bind fun c =>
      (Bootstrap.keeps_activate i c).bind fun _ => preserves_pure _
  | deactivate bootstrap =>
    exact (confined_index _ _ _).keeps.bind fun i =>
      (Bootstrap.keeps_deactivate i).bind fun _ => preserves_pure _
  | newController notifier => exact (keeps_newController _).bind fun _ => preserves_pure _
  | startController controller session context =>
    refine (confined_index _ _ _).keeps.bind fun k => preserves_index_bind fun i hi =>
      (confined_index _ _ _).keeps.bind fun c => Preserves.bind (fun w hw => ?_) fun _ => preserves_pure _
    exact Controller.ensures_start_inside hw fun w hw hsp => hw.meddled (congrArg some hi) hsp.made
  | stopController controller =>
    exact (confined_index _ _ _).keeps.bind fun i =>
      (Controller.keeps_stop i).bind fun _ => preserves_pure _
  | buildSession transport options =>
    refine Preserves.bind (fun w hw => ?_) fun i => Host.keeps_sessionMade i
    exact (ensures_buildSession_inside hw _ _).mono fun _ _ h => h.1
  | newSession name transport options =>
    refine Preserves.bind (fun w hw => ?_) fun i => Host.keeps_sessionMade i
    exact (ensures_newSession_inside hw _ _ _).mono fun _ _ h => h.1
  | startSession session =>
    exact (confined_index _ _ _).keeps.bind fun i =>
      (Session.keeps_start i).bind fun _ => preserves_pure _
  | stopSession session =>
    refine preserves_index_bind fun i hi => Preserves.bind (fun w hw => ?_) fun _ => preserves_pure _
    exact (Session.keeps_connected _).ensures_stop
      (hw.stopSession fun hsp => hw.meddled (congrArg some hi) hsp.made)
  | changeFile session path change =>
    rw [Step.procedure]
    split
    · exact (confined_index _ _ _).keeps.bind fun i =>
        ((Session.keeps_connected i).changeFile path change).bind fun _ => preserves_pure _
    · exact preserves_throw _
  | _ => exact absurd rfl hquiet

/-- What other steps do meanwhile is the same however deep they are nested. -/
theorem Step.meanwhile_contract (limit : Nat) :
    Step.Contract limit (fun _ => True) World.Meanwhile World.Meanwhile fun _ _ _ => True where
  refl := World.Meanwhile.refl
  trans := World.Meanwhile.trans
  relied := fun _ _ _ h => h
  begins := fun _ _ _ => trivial
  course := fun step w _ =>
    (keeps_procedure limit step w _ (.begin w step)).mono fun answer _ hw =>
      ⟨trivial, hw.finish answer, trivial⟩

theorem Step.meanwhile_leaveAll (limit depth : Nat) (steps : List Step) (s : Setting) :
    s.world.Meanwhile (Step.leaveAll limit depth steps s).world :=
  ((Step.meanwhile_contract limit).leaveAll depth steps s trivial).2.1

/-- So much may have changed when a call returns. -/
theorem Step.meanwhile_respond (limit depth : Nat) (c : Call) (s : Setting) :
    (s.world.happen (.called c)).Meanwhile (c.respond (Step.leave limit depth) s).2.world := by
  rw [Call.respond_snd]
  exact Step.meanwhile_leaveAll limit depth _ (c.noted s)

end EditorClient
