import EditorClient.Proofs.SessionMoves

/-! The connection of a session. Whatever steps are taken, a session that has not been stopped has the
one connection that was opened for it, or none if none was. -/

namespace EditorClient

open Procedure

/-- A session agrees with what has happened to it. -/
structure Session.IsAttached (i : Nat) (trace : List Event) (x : Session) : Prop where
  fresh : x.started = false → x.initialized = false ∧ ∀ n, .called (.setWriter i n) ∉ trace
  opened : ∀ n, .called (.setWriter i n) ∈ trace → x.stopped = true ∨ x.writer = some n
  own : ∀ n, x.writer = some n → .called (.setWriter i n) ∈ trace

theorem Session.AtMostStopped.not_setWriter {i : Nat} {x y : Session} {es : List Event}
    (h : x.AtMostStopped i y es) (n : Nat) : .called (.setWriter i n) ∉ es := by
  have hfor : (Event.called (.setWriter i n)).isFor i = true := beq_self_eq_true i
  intro hn
  cases h with
  | kept h | stuck _ _ _ h =>
    rw [h _ hn] at hfor
    cases hfor
  | stopped _ _ hb ha =>
    rcases List.mem_append.mp hn with hn | hn
    · rw [hb _ hn] at hfor
      cases hfor
    · rcases List.mem_cons.mp hn with hn | hn
      · cases hn
      · rw [ha _ hn] at hfor
        cases hfor

theorem Session.IsAttached.of_iff {i : Nat} {trace trace' : List Event} {x : Session}
    (h : x.IsAttached i trace)
    (hiff : ∀ n, .called (.setWriter i n) ∈ trace' ↔ .called (.setWriter i n) ∈ trace) :
    x.IsAttached i trace' where
  fresh := by
    intro hfresh
    obtain ⟨hinit, hnone⟩ := h.fresh hfresh
    exact ⟨hinit, fun n hn => hnone n ((hiff n).mp hn)⟩
  opened := fun n hn => h.opened n ((hiff n).mp hn)
  own := fun n hn => (hiff n).mpr (h.own n hn)

namespace World

structure Attached (w : World) : Prop where
  sessions : ∀ (i : Nat) (x : Session), w.sessions[i]? = some x → x.IsAttached i w.trace
  made : ∀ i n, .called (.setWriter i n) ∈ w.trace → i < w.sessions.length

variable {w w' : World} {i : Nat}

theorem attached_initial (directory : String) (log : LogDirectory) :
    (initial directory log).Attached := ⟨nofun, nofun⟩

/-- The connection that was opened is the one that is there. -/
theorem Attached.mem_trace_iff (h : w.Attached) {x : Session} (hx : w.sessions[i]? = some x)
    (hlive : x.stopped = false) (n : Nat) : .called (.setWriter i n) ∈ w.trace ↔ x.writer = some n := by
  have hattached := h.sessions i x hx
  refine ⟨fun hn => ?_, hattached.own n⟩
  rcases hattached.opened n hn with hs | hw
  · rw [hlive] at hs
    cases hs
  · exact hw

theorem Attached.of_trace (h : w.Attached) (hs : w'.sessions = w.sessions) {es : List Event}
    (ht : w'.trace = w.trace ++ es) (hes : ∀ i n, .called (.setWriter i n) ∉ es) : w'.Attached := by
  have hiff : ∀ i n, .called (.setWriter i n) ∈ w'.trace ↔ .called (.setWriter i n) ∈ w.trace := by
    intro i n
    simp [ht, hes i n]
  refine ⟨fun i x hx => ?_, fun i n hn => hs ▸ h.made i n ((hiff i n).mp hn)⟩
  rw [hs] at hx
  exact (h.sessions i x hx).of_iff (hiff i)

theorem Attached.of_eq (h : w.Attached) (hs : w'.sessions = w.sessions) (ht : w'.trace = w.trace) :
    w'.Attached := h.of_trace hs (by rw [ht, List.append_nil]) fun _ _ => List.not_mem_nil

theorem Attached.happen (h : w.Attached) {e : Event} (he : ∀ i n, e ≠ .called (.setWriter i n)) :
    (w.happen e).Attached :=
  h.of_trace rfl rfl fun i n hn => he i n (List.mem_singleton.mp hn).symm

theorem Attached.alike (h : w.Attached) (ha : w.Alike w') : w'.Attached := by
  obtain ⟨es, ht, hplain⟩ := ha.trace
  refine h.of_trace ha.sessions ht fun i n hn => ?_
  cases hplain _ hn

theorem Attached.modifySession (h : w.Attached) {f : Session → Session}
    (hf : ∀ x, w.sessions[i]? = some x → x.IsAttached i w.trace → (f x).IsAttached i w.trace) :
    (w.modifySession i f).Attached := by
  refine ⟨fun j y hy => ?_, fun j n hn => ?_⟩
  · obtain ⟨x, hx, ⟨rfl, rfl⟩ | ⟨_, rfl⟩⟩ := getElem?_modify_cases hy
    · exact hf x hx (h.sessions i x hx)
    · exact h.sessions j y hx
  · simpa [World.modifySession] using h.made j n hn

theorem Attached.addSession (h : w.Attached) {x : Session} (hinit : x.initialized = false)
    (hwriter : x.writer = none) : (addSession x w).Attached := by
  refine ⟨fun j y hy => ?_, fun j n hn => ?_⟩
  · by_cases hj : j < w.sessions.length
    · exact h.sessions j y ((List.getElem?_append_left hj).symm.trans hy)
    · have hnone : ∀ n, .called (.setWriter j n) ∉ w.trace := fun n hn => hj (h.made j n hn)
      have hy' : y ∈ [x] := by
        rw [EditorClient.addSession, List.getElem?_append_right (by omega)] at hy
        exact List.mem_of_getElem? hy
      rw [List.mem_singleton.mp hy']
      exact ⟨fun _ => ⟨hinit, hnone⟩, fun n hn => absurd hn (hnone n), by simp [hwriter]⟩
  · have hlt := h.made j n hn
    simp only [EditorClient.addSession, List.length_append]
    omega

/-- The session is being started and has no connection yet. -/
structure Awaiting (i : Nat) (w : World) : Prop where
  attached : w.Attached
  pending : ∃ x, w.sessions[i]? = some x ∧ x.started = true ∧ x.initialized = false
  unopened : ∀ n, .called (.setWriter i n) ∉ w.trace

theorem Awaiting.alike (h : w.Awaiting i) (ha : w.Alike w') : w'.Awaiting i := by
  obtain ⟨es, ht, hplain⟩ := ha.trace
  refine ⟨h.attached.alike ha, ha.sessions ▸ h.pending, fun n hn => ?_⟩
  rw [ht, List.mem_append] at hn
  rcases hn with hn | hn
  · exact h.unopened n hn
  · cases hplain _ hn

/-- The session may be stopped meanwhile, but is given no connection. -/
theorem Awaiting.meanwhile (h : w.Awaiting i) (ha : w'.Attached) (hm : w.AtMostStops i w') :
    w'.Awaiting i := by
  obtain ⟨x, hx, hstarted, hinit⟩ := h.pending
  obtain ⟨y, es, hy, ht, hxy⟩ := hm x hx hstarted hinit
  refine ⟨ha, ⟨y, hy, hxy.started.trans hstarted, hxy.initialized.trans hinit⟩, fun n hn => ?_⟩
  rw [ht, List.mem_append] at hn
  rcases hn with hn | hn
  · exact h.unopened n hn
  · exact hxy.not_setWriter n hn

theorem Awaiting.wire (h : w.Awaiting i) (n : Nat) :
    (w.wire i n).Attached ∧ (w.wire i n).HasStarted i := by
  obtain ⟨x, hx, hstarted, _⟩ := h.pending
  have hx' := getElem?_modify_self (fun s : Session => { s with writer := some n }) hx
  rw [← sessions_wire] at hx'
  refine ⟨⟨fun j y hy => ?_, fun j m hm => ?_⟩, _, hx', hstarted⟩
  · by_cases hj : j = i
    · subst hj
      -- There was no connection before, so the trace has no other.
      rw [hx', Option.some.injEq] at hy
      subst hy
      refine ⟨fun hfresh => ?_, fun m hm => .inr ?_, fun m hm => ?_⟩
      · rw [hstarted] at hfresh
        cases hfresh
      · rcases mem_trace_wire.mp hm with hm | ⟨_, rfl⟩
        · exact absurd hm (h.unopened m)
        · rfl
      · exact mem_trace_wire.mpr (.inr ⟨rfl, (Option.some.inj hm).symm⟩)
    · have hiff : ∀ m, .called (.setWriter j m) ∈ (w.wire i n).trace ↔
          .called (.setWriter j m) ∈ w.trace := by
        intro m
        simp [mem_trace_wire, hj]
      rw [sessions_wire, List.getElem?_modify_ne _ _ (Ne.symm hj)] at hy
      exact (h.attached.sessions j y hy).of_iff hiff
  · rw [sessions_wire, List.length_modify]
    rcases mem_trace_wire.mp hm with hm | ⟨rfl, _⟩
    · exact h.attached.made j m hm
    · exact (List.getElem?_eq_some_iff.mp hx).1

end World

/-- What others do during a call. -/
def World.Others (w w' : World) : Prop := w.Meanwhile w' ∧ ∀ i, w.AtMostStops i w'

namespace Procedure

variable {α : Type} {w : World} {i : Nat}

/-- A procedure that leaves every session attached and keeps something else of them. -/
abbrev Attaches (P : World → Prop) (p : Procedure α) : Prop :=
  p.Preserves World.Attached World.Others fun w => w.Attached ∧ P w

theorem attaches_request {P : World → Prop} (hP : ∀ w w', World.Meanwhile w w' → P w → P w')
    {c : Call} (hc : ∀ i n, c ≠ .setWriter i n) : (request c).Attaches P := by
  intro w hw
  have hcalled : w.Meanwhile (w.happen (.called c)) := World.meanwhile_happen fun _ => rfl
  rw [ensures_request]
  exact ⟨hw.1.happen fun i n he => hc i n (Event.called.inj he),
    fun r w' ha hr => ⟨ha, hP _ _ (hcalled.trans hr.1) hw.2⟩⟩

theorem Confined.attaches {P : World → Prop} {p : Procedure α} (hp : p.Quiet)
    (hP : ∀ w w', World.Meanwhile w w' → P w → P w') : p.Attaches P :=
  hp.maintains (fun _ _ ha hw => ⟨hw.1.alike ha, hP _ _ ha.meanwhile hw.2⟩)
    fun c hc => attaches_request hP fun i n he => by
      rw [he] at hc
      cases hc

theorem Confined.awaiting {p : Procedure α} (hp : p.Quiet) :
    p.Preserves World.Attached World.Others (World.Awaiting i) := by
  refine hp.maintains (fun _ _ ha hw => hw.alike ha) fun c hc w hw => ?_
  have hcalled : w.Alike (w.happen (.called c)) := .happen w hc
  refine (leads_request _ _).mpr ⟨hw.attached.alike hcalled, fun r w' ha hr => ?_⟩
  exact (hw.alike hcalled).meanwhile ha (hr.2 i)

end Procedure

variable {i : Nat} {w : World}

namespace Session

theorem attaches_modify {P : World → Prop} {f : Session → Session}
    (hf : ∀ w x, P w → w.sessions[i]? = some x → x.IsAttached i w.trace →
      (f x).IsAttached i w.trace) (hP : ∀ w, P w → P (w.modifySession i f)) :
    (modify i f).Attaches P := fun w hw =>
  ⟨hw.1.modifySession fun x hx hattached => hf w x hw.2 hx hattached, hP w hw.2⟩

theorem stopped_of_meanwhile {w' : World} (h : w.Meanwhile w') (hs : w.Stopped i) :
    w'.Stopped i := by
  obtain ⟨x, hx, hstop⟩ := hs
  obtain ⟨y, hy, hxy⟩ := h.evolves.sessions i x hx
  exact ⟨y, hy, hxy.stopped hstop⟩

/-- Once the session is stopped, its connection may be given up. -/
theorem attaches_tended (i : Nat) : Tended World.Attached World.Others
    (fun w => w.Attached ∧ w.Stopped i) i where
  quiet := fun hp => hp.attaches fun _ _ => stopped_of_meanwhile
  call := fun _ => attaches_request (fun _ _ => stopped_of_meanwhile) (by simp)
  disconnect := by
    refine attaches_modify (fun w x hs hx hattached => ?_) fun w ⟨x, hx, hs⟩ => ?_
    · obtain ⟨y, hy, hstop⟩ := hs
      rw [hx, Option.some.injEq] at hy
      exact ⟨hattached.fresh, fun _ _ => .inl (hy ▸ hstop), nofun⟩
    · exact ⟨_, getElem?_modify_self _ hx, hs⟩

theorem attaches_stop (i : Nat) : (stop i).Preserves World.Attached World.Others World.Attached := by
  intro w hw
  by_cases hi : ∃ x, w.sessions[i]? = some x
  -- From the mark on, the connection may be anything.
  · obtain ⟨x, hx⟩ := hi
    refine ((attaches_tended i).ensures_stop ⟨hw.modifySession fun y _ hy => ?_, ?_⟩).mono
      fun _ _ h => h.1
    · exact ⟨hy.fresh, fun _ _ => .inl rfl, hy.own⟩
    · exact ⟨_, getElem?_modify_self _ hx, rfl⟩
  · rw [stop, ensures_bind, find, ensures_find]
    exact ⟨fun x hx => absurd ⟨x, hx⟩ hi, fun _ => hw⟩

theorem ensures_openTransport_attached (h : w.Awaiting i) (t : Transport) :
    (openTransport i t).Ensures World.Attached World.Others w
      fun _ w' => w'.Attached ∧ w'.HasStarted i := by
  have hstarted : ∀ {w}, World.Awaiting i w → w.Attached ∧ w.HasStarted i := fun hw => by
    obtain ⟨x, hx, hs, _⟩ := hw.pending
    exact ⟨hw.attached, x, hx, hs⟩
  have hmeanwhile : ∀ w w', World.Meanwhile w w' → w.HasStarted i → w'.HasStarted i :=
    fun _ _ hm hs => hs.meanwhile hm
  cases t with
  | socket host port =>
    rw [openTransport, openSocket, ensures_bind]
    refine ((confined_connect rfl).awaiting w h).mono fun r w' hw' => ?_
    cases r with
    | error f => exact hstarted hw'
    | ok n =>
      have hlooped : (Procedure.request (.readLoop i n)).Attaches (World.HasStarted · i) :=
        attaches_request hmeanwhile (by simp)
      have htask : (modify i fun s => { s with tasks := s.tasks + 1 }).Attaches
          (World.HasStarted · i) :=
        attaches_modify (fun _ _ _ _ hx => ⟨hx.fresh, hx.opened, hx.own⟩) fun _ hs =>
          hs.modifySession fun _ => id
      have hwired := hw'.wire n
      dsimp only [onOk]
      rw [ensures_bind, modify, ensures_change]
      dsimp only [onOk]
      rw [ensures_bind]
      refine (ensures_request _ _).mpr ⟨hwired.1, fun r u hu hrely => ?_⟩
      cases r with
      | error f => exact ⟨hu, hmeanwhile _ _ hrely.1 hwired.2⟩
      | ok reply =>
        exact (hlooped.bind fun _ => htask) u ⟨hu, hmeanwhile _ _ hrely.1 hwired.2⟩
  | spawn command args directory =>
    have hasked : (request i (.startServer command args directory)).Attaches (World.HasStarted · i) :=
      (attaches_request hmeanwhile (by simp)).bind fun _ => preserves_pure ()
    exact hasked.recoverOs (fun _ => preserves_throw _) w (hstarted h)
  | foreign v => exact hstarted h

theorem attaches_start (i : Nat) :
    (start i).Preserves World.Attached World.Others World.Attached := by
  intro w hw
  have hmeanwhile : ∀ w w', World.Meanwhile w w' → w.HasStarted i → w'.HasStarted i :=
    fun _ _ hm hs => hs.meanwhile hm
  have hrequest : ∀ r, (request i r).Attaches (World.HasStarted · i) := fun r =>
    (attaches_request hmeanwhile (by simp)).bind fun _ => preserves_pure ()
  rw [start, ensures_bind, find, ensures_find]
  refine ⟨fun x hx => ?_, fun _ => hw⟩
  dsimp only [onOk]
  split
  · exact hw
  rename_i hguard
  simp only [Bool.or_eq_true, not_or, Bool.not_eq_true] at hguard
  -- The guard lets only a session pass that was never started and thus never connected.
  obtain ⟨hinit, hnone⟩ := (hw.sessions i x hx).fresh hguard.1
  have hawaiting : (w.modifySession i fun s => { s with started := true }).Awaiting i := by
    refine ⟨hw.modifySession fun y hy hattached => ?_, ?_, hnone⟩
    · exact ⟨fun hfresh => Bool.noConfusion hfresh, hattached.opened, hattached.own⟩
    · exact ⟨_, getElem?_modify_of_some _ hx, by simpa using hinit⟩
  rw [ensures_bind, modify, ensures_change]
  dsimp only [onOk]
  refine Ensures.mono ?_ fun _ w' (h : w'.Attached ∧ w'.HasStarted i) => h.1
  refine (ensures_openTransport_attached hawaiting _).bind_preserves fun _ => Preserves.bind ?_ fun _ =>
    Preserves.bind ?_ fun _ => (confined_post _).attaches hmeanwhile
  · exact ((hrequest _).bind fun _ => hrequest _).recoverOrdinary fun _ => preserves_throw _
  · refine attaches_modify (fun w y hs hy hattached => ?_) fun w hs => hs.modifySession fun _ => id
    obtain ⟨z, hz, hstarted⟩ := hs
    rw [hy, Option.some.injEq] at hz
    refine ⟨fun hfresh => ?_, hattached.opened, hattached.own⟩
    rw [hz, hstarted] at hfresh
    cases hfresh

theorem attaches_changeFile (i : Nat) (path : Path) (change : Int) :
    (changeFile i path change).Attaches fun _ => True := by
  have hquiet : ∀ {α : Type} {p : Procedure α}, p.Quiet → p.Attaches fun _ => True :=
    fun hp => hp.attaches fun _ _ _ _ => trivial
  refine (hquiet (confined_find _ _ _)).bind fun s =>
    (hquiet (confined_ofExcept _)).bind fun watched => ?_
  split
  · split
    · exact (hquiet (confined_ask _)).bind fun _ => (hquiet (confined_ofExcept _)).bind fun _ =>
        (Preserves.bind (attaches_request (fun _ _ _ _ => trivial) (by simp)) fun _ =>
          preserves_pure _).bind fun _ => preserves_pure _
    · exact (hquiet (confined_remark _)).bind fun _ => preserves_pure _
  · exact preserves_pure _

end Session

theorem attaches_sessionwise :
    Sessionwise World.Attached World.Others World.Attached where
  quiet := fun hp w hw => (hp.attaches (P := fun _ => True) (fun _ _ _ _ => trivial) w
    ⟨hw, trivial⟩).mono fun _ _ h => h.1
  apart := fun _ h _ hw => hw.of_eq (h _).1 (h _).2
  hold := fun _ _ _ hw => hw.of_trace rfl rfl (by simp)
  addSession := fun _ _ _ _ _ hw => hw.addSession rfl rfl
  madeClient := fun _ _ hw => hw.happen nofun
  start := Session.attaches_start
  stop := Session.attaches_stop
  changeFile := fun i path change w hw =>
    (Session.attaches_changeFile i path change w ⟨hw, trivial⟩).mono fun _ _ h => h.1

namespace Step

theorem attached_contract (limit : Nat) :
    Step.Contract limit World.Attached World.Others (fun _ _ => True) fun _ _ _ => True where
  refl := fun _ => trivial
  trans := fun _ _ => trivial
  relied := fun depth steps s _ =>
    ⟨meanwhile_leaveAll limit depth steps s, atMostStops_leaveAll limit depth steps s⟩
  begins := fun _ _ hw => hw.happen nofun
  course := by
    intro step w hw
    have hbegun : (w.happen (.began step)).Attached := hw.happen nofun
    exact (attaches_sessionwise.procedure limit step _ hbegun).mono fun _ _ hw' =>
      ⟨hw'.happen nofun, trivial, trivial⟩

/-- So it is at every moment of every run. -/
theorem attached_moments (limit depth : Nat) (directory : String) (log : LogDirectory)
    (script : Script) (steps : List Step) {m : Moment}
    (hm : m ∈ runMoments limit depth steps (.start directory log script)) : m.world.Attached :=
  (((attached_contract limit).leaveAll depth steps _
    (World.attached_initial directory log)).2.2 m hm).world

end Step

end EditorClient
