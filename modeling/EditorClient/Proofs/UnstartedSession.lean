import EditorClient.Proofs.StepEvolution

/-! At every moment of a run, a session that has not been started is without a connection and
without a handshake, however many others have been started and stopped. -/

namespace EditorClient

open Procedure

namespace World

def Unopened (w : World) : Prop :=
  ∀ x ∈ w.sessions, x.started = false → x.initialized = false ∧ x.writer = none

def HasStarted (w : World) (i : Nat) : Prop := ∃ x, w.sessions[i]? = some x ∧ x.started = true

variable {w w' : World} {i : Nat}

theorem unopened_initial (directory : String) (log : LogDirectory) :
    (initial directory log).Unopened := nofun

theorem Unopened.of_sessions (h : w.Unopened) (hs : w'.sessions = w.sessions) : w'.Unopened := by
  intro x hx
  exact h x (by rwa [← hs])

theorem Unopened.modifySession (h : w.Unopened) {f : Session → Session}
    (hf : ∀ x, w.sessions[i]? = some x → (f x).started = false →
      (f x).initialized = false ∧ (f x).writer = none) : (w.modifySession i f).Unopened := by
  intro y hy hfresh
  obtain ⟨j, hj⟩ := List.getElem?_of_mem hy
  obtain ⟨x, hx, ⟨rfl, rfl⟩ | ⟨_, rfl⟩⟩ := getElem?_modify_cases hj
  · exact hf x hx hfresh
  · exact h y (List.mem_of_getElem? hx) hfresh

theorem Unopened.addSession (h : w.Unopened) {x : Session} (hinit : x.initialized = false)
    (hwriter : x.writer = none) : (addSession x w).Unopened := by
  intro y hy hfresh
  rcases List.mem_append.mp hy with hy | hy
  · exact h y hy hfresh
  · rw [List.mem_singleton.mp hy]
    exact ⟨hinit, hwriter⟩

theorem HasStarted.modifySession (h : w.HasStarted i) {j : Nat} {f : Session → Session}
    (hf : ∀ x, x.started = true → (f x).started = true) : (w.modifySession j f).HasStarted i := by
  obtain ⟨x, hx, hstart⟩ := h
  refine ⟨_, getElem?_modify_of_some f hx, ?_⟩
  split
  · exact hf x hstart
  · exact hstart

theorem HasStarted.meanwhile (h : w.HasStarted i) (hm : w.Meanwhile w') : w'.HasStarted i := by
  obtain ⟨x, hx, hstart⟩ := h
  obtain ⟨y, hy, hxy⟩ := hm.evolves.sessions i x hx
  exact ⟨y, hy, hxy.started hstart⟩

/-- While the session has started, anything may be done to it. -/
theorem Unopened.modifyStarted (h : w.Unopened ∧ w.HasStarted i) {f : Session → Session}
    (hf : ∀ x, x.started = true → (f x).started = true) :
    (w.modifySession i f).Unopened ∧ (w.modifySession i f).HasStarted i := by
  refine ⟨h.1.modifySession fun x hx hfresh => ?_, h.2.modifySession hf⟩
  obtain ⟨x', hx', hstart⟩ := h.2
  rw [hx, Option.some.injEq] at hx'
  rw [hf x (hx' ▸ hstart)] at hfresh
  cases hfresh

end World

section Unopened

variable {α : Type} {p : Procedure α} {i : Nat} {w : World}

theorem Procedure.Confined.unopened (hp : p.Quiet) (hw : w.Unopened) :
    p.Ensures World.Unopened World.Meanwhile w fun _ w' => w'.Unopened ∧ w.Meanwhile w' :=
  hp.ensures World.Alike.meanwhile World.Meanwhile.trans (fun ha h => h.of_sessions ha.sessions) hw

theorem unopened_request (c : Call) (hw : w.Unopened) :
    (request c).Ensures World.Unopened World.Meanwhile w fun _ w' =>
      w'.Unopened ∧ w.Meanwhile w' := by
  rw [ensures_request]
  exact ⟨hw.of_sessions rfl, fun r w' hi hr =>
    ⟨hi, World.Meanwhile.trans (World.meanwhile_happen fun _ => rfl) hr⟩⟩

theorem unopened_happen (e : Event) :
    (happen e).Preserves World.Unopened World.Meanwhile World.Unopened :=
  fun _ hw => hw.of_sessions rfl

namespace Session

theorem unopened_tended (i : Nat) :
    Tended World.Unopened World.Meanwhile World.Unopened i where
  quiet := fun hp _ hw => (hp.unopened hw).mono fun _ _ h => h.1
  call := fun _ _ hw => (unopened_request _ hw).mono fun _ _ h => h.1
  disconnect := fun _ hw => hw.modifySession fun x hx hfresh =>
    ⟨(hw x (List.mem_of_getElem? hx) hfresh).1, rfl⟩

theorem hasStarted_connected (i : Nat) :
    Connected World.Unopened World.Meanwhile (fun w => w.Unopened ∧ w.HasStarted i) i where
  quiet := fun hp _ hw => (hp.unopened hw.1).mono fun _ _ h => ⟨h.1, hw.2.meanwhile h.2⟩
  call := fun _ _ hw => (unopened_request _ hw.1).mono fun _ _ h => ⟨h.1, hw.2.meanwhile h.2⟩
  disconnect := fun _ hw => World.Unopened.modifyStarted hw fun _ => id
  connect := fun _ _ hw => World.Unopened.modifyStarted hw fun _ => id
  setWriter := fun _ _ hw =>
    (unopened_request _ hw.1).mono fun _ _ h => ⟨h.1, hw.2.meanwhile h.2⟩
  readLoop := fun _ _ hw =>
    (unopened_request _ hw.1).mono fun _ _ h => ⟨h.1, hw.2.meanwhile h.2⟩
  addTask := fun _ hw => World.Unopened.modifyStarted hw fun _ => id

theorem unopened_start (i : Nat) :
    (start i).Preserves World.Unopened World.Meanwhile World.Unopened := by
  intro w hw
  refine ((hasStarted_connected i).ensures_start fun x hx _ _ => ⟨?_, ?_⟩).mono fun r w' hw' => ?_
  · refine ⟨hw.modifySession fun _ _ => nofun, _, getElem?_modify_self _ hx, rfl⟩
  · exact fun w' hw' => World.Unopened.modifyStarted hw' fun _ => id
  · rcases hw' with rfl | hw'
    · exact hw
    · exact hw'.1

theorem unopened_stop (i : Nat) :
    (stop i).Preserves World.Unopened World.Meanwhile World.Unopened := fun _ hw =>
  (unopened_tended i).ensures_stop (hw.modifySession fun x hx => hw x (List.mem_of_getElem? hx))

end Session

theorem unopened_sessionwise :
    Sessionwise World.Unopened World.Meanwhile World.Unopened where
  quiet := fun hp _ hw => (hp.unopened hw).mono fun _ _ h => h.1
  apart := fun _ h w hw => hw.of_sessions (h w).1
  hold := fun _ _ _ hw => hw.of_sessions rfl
  addSession := fun _ _ _ _ _ hw => hw.addSession rfl rfl
  madeClient := fun _ => unopened_happen _
  start := Session.unopened_start
  stop := Session.unopened_stop
  changeFile := fun i path change => (Session.unopened_tended i).changeFile path change

end Unopened

namespace Step

theorem unopened_contract (limit : Nat) :
    Step.Contract limit World.Unopened World.Meanwhile (fun _ _ => True) fun _ _ _ => True where
  refl := fun _ => trivial
  trans := fun _ _ => trivial
  relied := fun depth steps s _ => meanwhile_leaveAll limit depth steps s
  begins := fun _ _ hw => hw.of_sessions rfl
  course := by
    intro step w hw
    have hbegun : (w.happen (.began step)).Unopened := hw.of_sessions rfl
    exact (unopened_sessionwise.procedure limit step _ hbegun).mono fun _ _ hw' =>
      ⟨hw'.of_sessions rfl, trivial, trivial⟩

variable (limit depth : Nat) (directory : String) (log : LogDirectory) (script : Script)
  (steps : List Step)

theorem unopened_leaveAll :
    (leaveAll limit depth steps (.start directory log script)).world.Unopened :=
  ((unopened_contract limit).leaveAll depth steps _ (World.unopened_initial directory log)).1

theorem unopened_moments {m : Moment} (hm : m ∈ runMoments limit depth steps
    (.start directory log script)) : m.world.Unopened :=
  (((unopened_contract limit).leaveAll depth steps _
    (World.unopened_initial directory log)).2.2 m hm).world

end Step

end EditorClient
