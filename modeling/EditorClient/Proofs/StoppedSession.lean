import EditorClient.Proofs.SessionStop

/-! A session that has been stopped stays as it is: it is not started any more, and another stop of it
does nothing. Only a start or a stop that is under way goes on with it. -/

namespace EditorClient

namespace World

/-- If the session was stopped, it is the same still. -/
def LeavesStopped (i : Nat) (w w' : World) : Prop :=
  ∀ x, w.sessions[i]? = some x → x.stopped = true → w'.sessions[i]? = some x

variable {i : Nat} {w w' w'' : World}

theorem LeavesStopped.of_sessions (h : w'.sessions = w.sessions) : w.LeavesStopped i w' :=
  fun _ hx _ => h ▸ hx

theorem LeavesStopped.trans (h : w.LeavesStopped i w') (h' : w'.LeavesStopped i w'') :
    w.LeavesStopped i w'' := fun x hx hs => h' x (h x hx hs) hs

theorem LeavesStopped.modifySession (w : World) {j : Nat} (hj : j ≠ i) (f : Session → Session) :
    w.LeavesStopped i (w.modifySession j f) := by
  intro x hx _
  simpa [World.modifySession, hj] using hx

theorem LeavesStopped.addSession (w : World) (x : Session) : w.LeavesStopped i (addSession x w) :=
  fun _ hx _ => getElem?_append_of_some hx

end World

namespace Procedure

/-- A procedure that does nothing to the session once it is stopped. -/
abbrev Sparing (i : Nat) (w₀ : World) {α : Type} (p : Procedure α) : Prop :=
  p.Preserves (fun _ => True) (World.LeavesStopped i) (w₀.LeavesStopped i)

variable {i : Nat} {w₀ : World}

theorem sparing_change {f : World → World} (h : ∀ w, World.LeavesStopped i w (f w)) :
    (change f).Sparing i w₀ := fun w hw => hw.trans (h w)

theorem sparing_request (c : Call) : (request c).Sparing i w₀ := by
  intro w hw
  rw [ensures_request]
  exact ⟨trivial, fun r w' _ hr => (hw.trans (.of_sessions rfl)).trans hr⟩

theorem Confined.sparing {α : Type} {p : Procedure α} (hp : p.Quiet) : p.Sparing i w₀ :=
  hp.maintains (fun _ _ h hw => hw.trans (.of_sessions h.sessions)) fun c _ => sparing_request c

end Procedure

open Procedure

variable {i j : Nat} {w₀ w : World}

namespace Session

theorem sparing_connected (hj : j ≠ i) :
    Connected (fun _ => True) (World.LeavesStopped i) (w₀.LeavesStopped i) j where
  quiet := Confined.sparing
  call := fun _ => sparing_request _
  disconnect := sparing_change fun w => .modifySession w hj _
  connect := fun _ => sparing_change fun w => .modifySession w hj _
  setWriter := fun _ => sparing_request _
  readLoop := fun _ => sparing_request _
  addTask := sparing_change fun w => .modifySession w hj _

/-- What looks up the session first and does nothing if it is stopped is sparing. -/
theorem ensures_unless_stopped {k : Session → Procedure Unit} (hw : w₀.LeavesStopped i w)
    (hk : ∀ x, w.sessions[i]? = some x → x.stopped = true →
      (k x).Ensures (fun _ => True) (World.LeavesStopped i) w fun _ w' => w₀.LeavesStopped i w') :
    (find i >>= k).Ensures (fun _ => True) (World.LeavesStopped i) w fun _ w' =>
      w₀.LeavesStopped i w' := by
  by_cases hstopped : ∃ x, w₀.sessions[i]? = some x ∧ x.stopped = true
  · obtain ⟨x, hx, hs⟩ := hstopped
    rw [ensures_bind, find, ensures_find]
    refine ⟨fun y hy => ?_, fun _ => hw⟩
    have hxy : x = y := Option.some.inj ((hw x hx hs).symm.trans hy)
    exact hk y hy (hxy ▸ hs)
  · exact ensures_of_forall _ _ fun _ w' x hx hs => absurd ⟨x, hx, hs⟩ hstopped

theorem sparing_start (j : Nat) : (start j).Sparing i w₀ := by
  intro w hw
  by_cases hj : j = i
  · subst hj
    refine ensures_unless_stopped hw fun x _ hs => ?_
    dsimp only
    rw [if_pos (by simp [hs])]
    exact hw
  · have hconnected : Connected _ _ (w₀.LeavesStopped i) j := sparing_connected hj
    refine (hconnected.ensures_start fun _ _ _ _ => ?_).mono fun _ w' hw' => ?_
    · exact ⟨hw.trans (.modifySession w hj _), sparing_change fun w => .modifySession w hj _⟩
    · rcases hw' with rfl | hw'
      · exact hw
      · exact hw'

theorem sparing_stop (j : Nat) : (stop j).Sparing i w₀ := by
  intro w hw
  by_cases hj : j = i
  · subst hj
    refine ensures_unless_stopped hw fun x _ hs => ?_
    rw [if_pos hs]
    exact hw
  · exact (sparing_connected hj).ensures_stop (hw.trans (.modifySession w hj _))

theorem sparing_changeFile (j : Nat) (path : Path) (change : Int) :
    (changeFile j path change).Sparing i w₀ := by
  refine (confined_find _ _ _).sparing.bind fun s =>
    (confined_ofExcept _).sparing.bind fun watched => ?_
  split
  · split
    · exact (confined_ask _).sparing.bind fun _ => (confined_ofExcept _).sparing.bind fun _ =>
        (Preserves.bind (sparing_request _) fun _ => preserves_pure _).bind fun _ => preserves_pure _
    · exact (confined_remark _).sparing.bind fun _ => preserves_pure _
  · exact preserves_pure _

end Session

theorem sparing_sessionwise (i : Nat) (w₀ : World) :
    Sessionwise (fun _ => True) (World.LeavesStopped i) (w₀.LeavesStopped i) where
  quiet := Confined.sparing
  apart := fun _ h => sparing_change fun w => .of_sessions (h w).1
  hold := fun _ _ => sparing_change fun _ => .of_sessions rfl
  addSession := fun _ _ _ _ => sparing_change fun w => .addSession w _
  madeClient := fun _ => sparing_change fun _ => .of_sessions rfl
  start := Session.sparing_start
  stop := Session.sparing_stop
  changeFile := Session.sparing_changeFile

theorem Step.leavesStopped_contract (limit i : Nat) :
    Step.Contract limit (fun _ => True) (World.LeavesStopped i) (World.LeavesStopped i)
      fun _ _ _ => True where
  refl := fun _ => .of_sessions rfl
  trans := World.LeavesStopped.trans
  relied := fun _ _ _ h => h
  begins := fun _ _ _ => trivial
  course := fun step w _ =>
    ((sparing_sessionwise i w).procedure limit step (w.happen (.began step))
      (.of_sessions rfl)).mono fun _ _ hw' =>
      ⟨trivial, hw'.trans (.of_sessions rfl), trivial⟩

/-- However deep steps are nested, they leave a stopped session as it is. -/
theorem Step.leavesStopped_leaveAll (limit depth : Nat) (steps : List Step) (s : Setting) (i : Nat) :
    s.world.LeavesStopped i (Step.leaveAll limit depth steps s).world :=
  ((Step.leavesStopped_contract limit i).leaveAll depth steps s trivial).2.1

theorem Step.leavesStopped_respond (limit depth : Nat) (i : Nat) (c : Call) (s : Setting) :
    (s.world.happen (.called c)).LeavesStopped i (c.respond (Step.leave limit depth) s).2.world := by
  rw [Call.respond_snd]
  exact Step.leavesStopped_leaveAll limit depth _ (c.noted s) i

end EditorClient
