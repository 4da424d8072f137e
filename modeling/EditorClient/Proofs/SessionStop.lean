import EditorClient.Proofs.SessionSteps

/-! What happens to a session while a call of its start is pending. Whatever steps are taken
meanwhile, they do nothing to the session, or they stop it once. -/

namespace EditorClient

/-- What has become of a session that was started and is not initialized yet, and the events since. A
stop that cannot close the connection goes no further. -/
inductive Session.AtMostStopped (x : Session) (i : Nat) : Session → List Event → Prop where
  | kept {es : List Event} (h : ∀ e ∈ es, e.isFor i = false) : AtMostStopped x i x es
  | stuck {es : List Event} {n : Nat} (hx : x.stopped = false) (hn : x.writer = some n)
    (hclosed : .called (.closeWriter n) ∈ es) (h : ∀ e ∈ es, e.isFor i = false) :
    AtMostStopped x i { x with stopped := true } es
  | stopped {before after : List Event} {t : Nat} (hx : x.stopped = false)
    (hclosed : ∀ n, x.writer = some n → .called (.closeWriter n) ∈ before)
    (hb : ∀ e ∈ before, e.isFor i = false) (ha : ∀ e ∈ after, e.isFor i = false) :
    AtMostStopped x i { x with stopped := true, writer := none }
      (before ++ .called (.client i (.stop t)) :: after)

namespace Session.AtMostStopped

variable {x y z : Session} {i : Nat} {es es' : List Event}

theorem started (h : x.AtMostStopped i y es) : y.started = x.started := by
  cases h <;> rfl

theorem initialized (h : x.AtMostStopped i y es) : y.initialized = x.initialized := by
  cases h <;> rfl

theorem eq_of_stopped (h : x.AtMostStopped i y es) (hx : x.stopped = true) :
    y = x ∧ ∀ e ∈ es, e.isFor i = false := by
  cases h with
  | kept h => exact ⟨rfl, h⟩
  | stuck hx' => rw [hx] at hx'; cases hx'
  | stopped hx' => rw [hx] at hx'; cases hx'

theorem not_isFor_append (h : ∀ e ∈ es, e.isFor i = false) (h' : ∀ e ∈ es', e.isFor i = false) :
    ∀ e ∈ es ++ es', e.isFor i = false := by
  intro e he
  rcases List.mem_append.mp he with he | he
  · exact h e he
  · exact h' e he

theorem trans (h : x.AtMostStopped i y es) (h' : y.AtMostStopped i z es') :
    x.AtMostStopped i z (es ++ es') := by
  cases h with
  | kept h =>
    cases h' with
    | kept h' => exact .kept (not_isFor_append h h')
    | stuck hx hn hclosed h' =>
      exact .stuck hx hn (List.mem_append_right _ hclosed) (not_isFor_append h h')
    | stopped hx hclosed hb ha =>
      rw [← List.append_assoc]
      exact .stopped hx (fun n hn => List.mem_append_right _ (hclosed n hn)) (not_isFor_append h hb) ha
  | stuck hx hn hclosed h =>
    obtain ⟨rfl, hes⟩ := h'.eq_of_stopped rfl
    exact .stuck hx hn (List.mem_append_left _ hclosed) (not_isFor_append h hes)
  | stopped hx hclosed hb ha =>
    obtain ⟨rfl, hes⟩ := h'.eq_of_stopped rfl
    rw [List.append_assoc, List.cons_append]
    exact .stopped hx hclosed hb (not_isFor_append ha hes)

end Session.AtMostStopped

namespace World

/-- A session that is being started has been stopped at most. -/
def AtMostStops (i : Nat) (w w' : World) : Prop :=
  ∀ x, w.sessions[i]? = some x → x.started = true → x.initialized = false →
    ∃ y es, w'.sessions[i]? = some y ∧ w'.trace = w.trace ++ es ∧ x.AtMostStopped i y es

variable {i : Nat} {w w' w'' : World}

/-- The session is the same, and its client has not been called. -/
theorem AtMostStops.of_kept (es : List Event) (hs : ∀ x, w.sessions[i]? = some x →
    w'.sessions[i]? = some x) (ht : w'.trace = w.trace ++ es) (h : ∀ e ∈ es, e.isFor i = false) :
    w.AtMostStops i w' := fun x hx _ _ => ⟨x, es, hs x hx, ht, .kept h⟩

theorem AtMostStops.refl (i : Nat) (w : World) : w.AtMostStops i w :=
  .of_kept [] (fun _ hx => hx) (by simp) (by simp)

theorem AtMostStops.trans (h : w.AtMostStops i w') (h' : w'.AtMostStops i w'') :
    w.AtMostStops i w'' := by
  intro x hx hstart hinit
  obtain ⟨y, es, hy, ht, hxy⟩ := h x hx hstart hinit
  obtain ⟨z, es', hz, ht', hyz⟩ := h' y hy (hxy.started.trans hstart) (hxy.initialized.trans hinit)
  exact ⟨z, es ++ es', hz, by rw [ht', ht, List.append_assoc], hxy.trans hyz⟩

theorem AtMostStops.happen (w : World) {e : Event} (h : e.isFor i = false) :
    w.AtMostStops i (w.happen e) :=
  .of_kept [e] (fun _ hx => hx) rfl (by simpa using h)

theorem Alike.atMostStops (h : w.Alike w') : w.AtMostStops i w' := by
  obtain ⟨es, ht, hplain⟩ := h.trace
  refine .of_kept es (fun x hx => by rwa [h.sessions]) ht fun e he => ?_
  exact Event.not_isFor_of_isPlain (hplain e he) i

/-- Neither the sessions nor the trace are touched. -/
theorem AtMostStops.of_eq (hs : w'.sessions = w.sessions) (ht : w'.trace = w.trace) :
    w.AtMostStops i w' :=
  .of_kept [] (fun x hx => by rwa [hs]) (by simpa using ht) (by simp)

theorem AtMostStops.modifySession (w : World) {j : Nat} (hj : j ≠ i) (f : Session → Session) :
    w.AtMostStops i (w.modifySession j f) := by
  refine .of_kept [] (fun x hx => ?_) (by simp [World.modifySession]) (by simp)
  simpa [World.modifySession, hj] using hx

/-- A session that has been stopped is left alone. -/
theorem AtMostStops.of_stopped (h : w.AtMostStops i w') {y : Session}
    (hy : w.sessions[i]? = some y) (hstart : y.started = true) (hinit : y.initialized = false)
    (hstop : y.stopped = true) :
    w'.sessions[i]? = some y ∧ ∃ es, w'.trace = w.trace ++ es ∧ ∀ e ∈ es, e.isFor i = false := by
  obtain ⟨z, es, hz, ht, hyz⟩ := h y hy hstart hinit
  obtain ⟨rfl, hes⟩ := hyz.eq_of_stopped hstop
  exact ⟨hz, es, ht, hes⟩

theorem AtMostStops.addSession (w : World) (x : Session) : w.AtMostStops i (addSession x w) :=
  .of_kept [] (fun _ hx => getElem?_append_of_some hx) (by simp [EditorClient.addSession])
    (by simp)

end World

namespace Procedure

variable {i : Nat} {w₀ : World}

/-- A procedure that stops the session at most. -/
abbrev Mild (i : Nat) (w₀ : World) {α : Type} (p : Procedure α) : Prop :=
  p.Preserves (fun _ => True) (World.AtMostStops i) (w₀.AtMostStops i)

/-- Nothing is required of a procedure when the session was not being started. -/
theorem ensures_of_forall {α : Type} {rely : World → World → Prop}
    {post : Except Fault α → World → Prop} (p : Procedure α) (w : World) (h : ∀ r w', post r w') :
    p.Ensures (fun _ => True) rely w post := by
  induction p generalizing w with
  | done a => exact h _ _
  | fail f => exact h _ _
  | read next ih => exact ih w w
  | update f next ih => exact ih (f w)
  | call c next ih => exact ⟨trivial, fun r w' _ _ => ih r w'⟩

theorem Confined.mild {α : Type} {p : Procedure α} (hp : p.Quiet) : p.Mild i w₀ := fun _ hw =>
  (hp.ensures World.Alike.atMostStops World.AtMostStops.trans (fun _ _ => trivial) trivial).mono
    fun _ _ h => hw.trans h.2

theorem mild_change {f : World → World} (h : ∀ w, World.AtMostStops i w (f w)) :
    (change f).Mild i w₀ := fun w hw => hw.trans (h w)

theorem mild_happen {e : Event} (h : e.isFor i = false) : (happen e).Mild i w₀ :=
  fun w hw => hw.trans (.happen w h)

theorem mild_request {c : Call} (h : (Event.called c).isFor i = false) : (request c).Mild i w₀ := by
  intro w hw
  rw [ensures_request]
  exact ⟨trivial, fun r w' _ hr => (hw.trans (.happen w h)).trans hr⟩

end Procedure

open Procedure

variable {i j : Nat} {w₀ : World}

namespace Session

theorem mild_modify (hj : j ≠ i) (f : Session → Session) : (modify j f).Mild i w₀ :=
  mild_change fun w => .modifySession w hj f

theorem mild_connected (hj : j ≠ i) :
    Connected (fun _ => True) (World.AtMostStops i) (w₀.AtMostStops i) j where
  quiet := Confined.mild
  call := fun _ => mild_request (by simpa [Event.isFor] using hj)
  disconnect := mild_modify hj _
  connect := fun _ => mild_modify hj _
  setWriter := fun _ => mild_request (by simpa [Event.isFor] using hj)
  readLoop := fun _ => mild_request (by simpa [Event.isFor] using hj)
  addTask := mild_modify hj _

theorem ensures_closeWriter_stopped {w : World} {y : Session} (hy : w.sessions[i]? = some y)
    (hstart : y.started = true) (hinit : y.initialized = false) (hstop : y.stopped = true) :
    (closeWriter i).Ensures (fun _ => True) (World.AtMostStops i) w fun r w' =>
      ∃ es, w'.trace = w.trace ++ es ∧ (∀ e ∈ es, e.isFor i = false) ∧
        (∀ n, y.writer = some n → .called (.closeWriter n) ∈ es) ∧
        (∀ u, r = .ok u → w'.sessions[i]? = some { y with writer := none }) ∧
        ∀ f, r = .error f → w'.sessions[i]? = some y ∧ ∃ n, y.writer = some n := by
  unfold closeWriter
  rw [ensures_bind, find, ensures_find]
  refine ⟨fun x hx => ?_, fun hn => by rw [hy] at hn; cases hn⟩
  rw [hy, Option.some.injEq] at hx
  subst hx
  dsimp only [onOk]
  split
  · rename_i n hn
    simp only [ensures_bind, ensures_request, modify]
    refine ⟨trivial, fun r w₁ _ hw₁ => ?_⟩
    obtain ⟨hy₁, es, ht, hes⟩ := hw₁.of_stopped hy hstart hinit hstop
    have ht' : w₁.trace = w.trace ++ .called (.closeWriter n) :: es := by
      rw [ht]
      simp [World.happen]
    have hfor : ∀ e ∈ Event.called (.closeWriter n) :: es, e.isFor i = false := by
      intro e he
      rcases List.mem_cons.mp he with rfl | he
      · rfl
      · exact hes e he
    have hclosed : ∀ m, y.writer = some m →
        Event.called (.closeWriter m) ∈ Event.called (.closeWriter n) :: es := by
      intro m hm
      rw [hn, Option.some.injEq] at hm
      rw [hm]
      exact List.mem_cons_self ..
    cases r with
    | error f => exact ⟨_, ht', hfor, hclosed, (fun _ h => by cases h), fun _ _ => ⟨hy₁, n, hn⟩⟩
    | ok _ =>
      refine ⟨_, ht', hfor, hclosed, fun _ _ => ?_, fun _ h => by cases h⟩
      exact getElem?_modify_self _ hy₁
  · rename_i hn
    refine ⟨[], by simp, by simp, fun n hn' => ?_, fun _ _ => ?_, fun _ h => by cases h⟩
    · rw [hn] at hn'
      cases hn'
    · rw [hy, ← hn]

/-- The end of a stop, once the connection is closed. -/
theorem ensures_askToStop {w : World} {y : Session} (hy : w.sessions[i]? = some y)
    (hstart : y.started = true) (hinit : y.initialized = false) (hstop : y.stopped = true)
    (p : Posting) :
    (do
      request i (.stop (← find i).tasks)
      Procedure.post p : Procedure Unit).Ensures (fun _ => True) (World.AtMostStops i) w fun _ w' =>
        w'.sessions[i]? = some y ∧ ∃ tasks after,
          w'.trace = w.trace ++ .called (.client i (.stop tasks)) :: after ∧
            ∀ e ∈ after, e.isFor i = false := by
  simp only [ensures_bind, find, ensures_find, request, ensures_request]
  refine ⟨fun x _ => ⟨trivial, fun r w₁ _ hw₁ => ?_⟩, fun hn => by rw [hy] at hn; cases hn⟩
  obtain ⟨hy₁, es, ht, hes⟩ := hw₁.of_stopped hy hstart hinit hstop
  have ht' : w₁.trace = w.trace ++ .called (.client i (.stop x.tasks)) :: es := by
    rw [ht]
    simp [World.happen]
  cases r with
  | error f => exact ⟨hy₁, x.tasks, es, ht', hes⟩
  | ok _ =>
    refine ((ensures_post p _).mpr ⟨fun _ _ => ?_, fun _ => ?_⟩)
    · refine ⟨hy₁, x.tasks, es ++ [.refused p], ?_,
        AtMostStopped.not_isFor_append hes (by simp [Event.isFor])⟩
      rw [World.happen, ht', List.append_assoc, List.cons_append]
    have hpost := World.Alike.post w₁ p
    obtain ⟨es', ht'', hplain⟩ := hpost.trace
    refine ⟨by rw [hpost.sessions]; exact hy₁, x.tasks, es ++ es', ?_, ?_⟩
    · rw [ht'', ht', List.append_assoc, List.cons_append]
    · exact AtMostStopped.not_isFor_append hes fun e he =>
        Event.not_isFor_of_isPlain (hplain e he) i

theorem ensures_stop_atMostStops (w : World) :
    (stop i).Ensures (fun _ => True) (World.AtMostStops i) w fun _ w' => w.AtMostStops i w' := by
  unfold stop
  rw [ensures_bind, find, ensures_find]
  refine ⟨fun x hx => ?_, fun _ => .refl i w⟩
  dsimp only [onOk]
  split
  · exact .refl i w
  · rename_i hlive
    by_cases hpend : x.started = true ∧ x.initialized = false
    · obtain ⟨hstart, hinit⟩ := hpend
      simp only [Bool.not_eq_true] at hlive
      have hx₁ := getElem?_modify_self (fun s => { s with stopped := true }) hx
      rw [if_neg (by simp [hinit]), ensures_bind, modify, ensures_change]
      dsimp only [onOk]
      rw [ensures_bind]
      refine (ensures_closeWriter_stopped (y := { x with stopped := true }) hx₁ hstart hinit
        rfl).mono fun r w₂ hw₂ => ?_
      obtain ⟨es, ht, hes, hclosed, hok, herror⟩ := hw₂
      cases r with
      | error f =>
        intro x' hx' _ _
        rw [hx, Option.some.injEq] at hx'
        subst hx'
        obtain ⟨hy, n, hn⟩ := herror f rfl
        exact ⟨_, es, hy, ht, .stuck hlive hn (hclosed n hn) hes⟩
      | ok u =>
        refine (ensures_askToStop (hok u rfl) hstart hinit rfl
          (.sessionStopped x.slug x.name)).mono fun r w₃ hw₃ => ?_
        obtain ⟨hy, tasks, after, ht', hafter⟩ := hw₃
        intro x' hx' _ _
        rw [hx, Option.some.injEq] at hx'
        subst hx'
        refine ⟨_, _, hy, ?_, .stopped (t := tasks) hlive hclosed hes hafter⟩
        rw [ht', ht, List.append_assoc]
        rfl
    · refine ensures_of_forall _ _ fun _ w' x' hx' hstart hinit => ?_
      rw [hx, Option.some.injEq] at hx'
      exact absurd ⟨hx' ▸ hstart, hx' ▸ hinit⟩ hpend

/-- A session that is being started is not started again. -/
theorem mild_start (j : Nat) : (start j).Mild i w₀ := by
  intro w hw
  by_cases hj : j = i
  · subst hj
    unfold start
    rw [ensures_bind, find, ensures_find]
    refine ⟨fun x hx => ?_, fun _ => hw⟩
    dsimp only [onOk]
    split
    · exact hw
    · rename_i hguard
      refine ensures_of_forall _ _ fun _ w' x₀ hx₀ hstart hinit => ?_
      obtain ⟨y, _, hy, _, hxy⟩ := hw x₀ hx₀ hstart hinit
      rw [hx, Option.some.injEq] at hy
      simp [hy, hxy.started, hstart] at hguard
  · have hconnected : Connected _ _ (w₀.AtMostStops i) j := mild_connected hj
    refine (hconnected.ensures_start fun _ _ _ _ => ?_).mono fun _ w' hw' => ?_
    · exact ⟨hw.trans (.modifySession w hj _), mild_modify hj _⟩
    · rcases hw' with rfl | hw'
      · exact hw
      · exact hw'

theorem mild_stop (j : Nat) : (stop j).Mild i w₀ := by
  intro w hw
  by_cases hj : j = i
  · subst hj
    exact (ensures_stop_atMostStops w).mono fun _ _ h => hw.trans h
  · exact (mild_connected hj).ensures_stop (hw.trans (.modifySession w hj _))

/-- Only a session that runs is told of changes to files. -/
theorem mild_changeFile (j : Nat) (path : Path) (change : Int) :
    (changeFile j path change).Mild i w₀ := by
  by_cases hj : j = i
  · subst hj
    intro w hw
    unfold changeFile
    rw [ensures_bind, find, ensures_find]
    refine ⟨fun x hx => ?_, fun _ => hw⟩
    refine (confined_ofExcept _).mild.bind (fun watched => ?_) w hw
    split
    · split
      · rename_i hrun
        refine fun w' _ => ensures_of_forall _ _ fun _ w'' x₀ hx₀ hstart hinit => ?_
        obtain ⟨y, _, hy, _, hxy⟩ := hw x₀ hx₀ hstart hinit
        rw [hx, Option.some.injEq] at hy
        simp [isRunning, hy, hxy.initialized, hinit] at hrun
      · exact (confined_remark _).mild.bind fun _ => preserves_pure _
    · exact preserves_pure _
  · exact (mild_connected hj).changeFile path change

end Session

theorem mild_sessionwise (i : Nat) (w₀ : World) :
    Sessionwise (fun _ => True) (World.AtMostStops i) (w₀.AtMostStops i) where
  quiet := Confined.mild
  apart := fun _ h => mild_change fun w => .of_eq (h w).1 (h w).2
  addSession := fun _ _ _ _ => mild_change fun w => .addSession w _
  madeClient := fun _ => mild_happen rfl
  hold := fun _ _ => mild_change fun _ => (World.AtMostStops.of_eq rfl rfl).trans (.happen _ rfl)
  start := Session.mild_start
  stop := Session.mild_stop
  changeFile := Session.mild_changeFile

/-- However deep steps are nested, they stop a session that is being started at most. -/
theorem Step.atMostStops_contract (limit i : Nat) :
    Step.Contract limit (fun _ => True) (World.AtMostStops i) (World.AtMostStops i)
      fun _ _ _ => True where
  refl := .refl i
  trans := World.AtMostStops.trans
  relied := fun _ _ _ h => h
  begins := fun _ _ _ => trivial
  course := fun step w _ =>
    ((mild_sessionwise i w).procedure limit step _ (.happen w rfl)).mono fun _ w' hw' =>
      ⟨trivial, hw'.trans (.happen w' rfl), trivial⟩

theorem Step.atMostStops_leaveAll (limit depth : Nat) (steps : List Step) (s : Setting) (i : Nat) :
    s.world.AtMostStops i (Step.leaveAll limit depth steps s).world :=
  ((Step.atMostStops_contract limit i).leaveAll depth steps s trivial).2.1

theorem Step.atMostStops_respond (limit depth : Nat) (i : Nat) (c : Call) (s : Setting) :
    (s.world.happen (.called c)).AtMostStops i (c.respond (Step.leave limit depth) s).2.world := by
  rw [Call.respond_snd]
  exact Step.atMostStops_leaveAll limit depth _ (c.noted s) i

end EditorClient
