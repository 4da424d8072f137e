import EditorClient.Proofs.Chronicle
import EditorClient.Proofs.SessionRelease
import EditorClient.Proofs.UnstartedSession

/-! The calls that one session makes, and what each must wait for. A session is marked before its first
call of a kind, so that nobody else makes such calls for it afterwards; a call that waits for another
is made once a mark shows that the other was granted. -/

namespace EditorClient

namespace Session

/-- What a session asks of its collaborators. -/
inductive Move where
  | opening
  | beginHandshake
  | finishHandshake
  | shutdown
  | exit
  | fileEvent
  | closing
  | stopClient
deriving DecidableEq, Repr

/-- The move that must have been granted before this one. -/
def Move.needs : Move → Option Move
  | beginHandshake | closing => some opening
  | finishHandshake => some beginHandshake
  | shutdown | fileEvent => some finishHandshake
  | exit => some shutdown
  | opening | stopClient => none

/-- A move of a start. -/
def Move.isGreeting : Move → Bool
  | opening | beginHandshake | finishHandshake => true
  | _ => false

/-- A move of a stop. -/
def Move.isParting : Move → Bool
  | shutdown | exit | closing | stopClient => true
  | _ => false

end Session

open Session (Move)

def Request.move : Request → Move
  | startServer .. => .opening
  | beginHandshake => .beginHandshake
  | finishHandshake => .finishHandshake
  | shutdown => .shutdown
  | exit => .exit
  | stop _ => .stopClient
  | fileEvent .. => .fileEvent

/-- The session that a step names to be started. -/
def Step.starts? : Step → Option Nat
  | startSession session | startController _ session _ =>
    if 1 ≤ session then some (session.toNat - 1) else none
  | _ => none

/-- The session that a step starts because it has made it. -/
def Step.startsMade : Step → Nat → Option Nat
  | activate .., session => some session
  | _, _ => none

namespace History

def innermost (h : History) : Option Step := h.underWay.head?.map fun u => u.step

/-- The session that the innermost step under way starts, once an activation has made its own. -/
def starting? (h : History) : Option Nat :=
  match h.underWay with
  | [] => none
  | ⟨.activate _ _, n⟩ :: _ => (h.activations[n]?).bind fun a => a.session
  | u :: _ => u.step.starts?

end History

/-- The connection of a session. -/
def World.writer? (w : World) (i : Nat) : Option Nat := (w.sessions[i]?).bind fun x => x.writer

/-- A connection is opened for the session that is being started, and closed for the session that has
it; all else is asked of the session's own client. -/
def Call.move? (i : Nat) (w : World) : Call → Option Move
  | connect .. => if w.history.starting? = some i then some .opening else none
  | client j request => if j = i then some request.move else none
  | closeWriter n => if w.writer? i = some n then some .closing else none
  | _ => none

namespace Moment

/-- The move that a session makes at a moment. -/
def move? (i : Nat) : Moment → Option Move
  | calls c w => c.move? i w
  | _ => none

/-- The move of a session that is granted at a moment: the call returns without a fault. -/
def granted? (i : Nat) : Moment → Option Move
  | returns c (.ok _) w => c.move? i w
  | _ => none

end Moment

namespace Session

/-- A move of a session that is in order after the moments before it: all but notices of changes are
made once, what must be granted was granted, no notice follows a stop, and a connection that is closed
was opened for this session and for no other. -/
structure Proper (i : Nat) (past : List Moment) (m : Moment) (d : Move) : Prop where
  once : d ≠ .fileEvent → ∀ m' ∈ past, m'.move? i ≠ some d
  granted : ∀ d', d.needs = some d' → ∃ m' ∈ past, m'.granted? i = some d'
  unstopped : d = .fileEvent → ∀ m' ∈ past ++ [m], ¬m'.world.Stopped i
  own : ∀ n w, m = .calls (.closeWriter n) w →
    .called (.setWriter i n) ∈ w.trace ∧ ∀ j, .called (.setWriter j n) ∈ w.trace → j = i

/-- Every move of the session is in order. -/
def Protocol (i : Nat) (moments : List Moment) : Prop :=
  ∀ before m after, moments = before ++ m :: after → ∀ d, m.move? i = some d → Proper i before m d

theorem Protocol.snoc {i : Nat} {past : List Moment} (h : Protocol i past) {m : Moment}
    (hm : ∀ d, m.move? i = some d → Proper i past m d) : Protocol i (past ++ [m]) := by
  intro before m' after he d hd
  rcases List.eq_nil_or_concat after with rfl | ⟨after, last, rfl⟩
  · obtain ⟨rfl, hlast⟩ := List.append_inj' he rfl
    rw [← List.head_eq_of_cons_eq hlast] at hd ⊢
    exact hm d hd
  · rw [List.concat_eq_append, ← List.cons_append, ← List.append_assoc] at he
    exact h before m' after (List.append_inj' he rfl).1 d hd

end Session

namespace History

/-- An activation under way is one of the activations. -/
theorem lt_of_activating (trace : List Event) {b c : Int} {n : Nat}
    (hn : ⟨.activate b c, n⟩ ∈ (ofTrace trace).underWay) :
    n < (ofTrace trace).activations.length := by
  revert b c n
  refine ofTrace_induct (P := fun h => ∀ {b c : Int} {n : Nat},
    ⟨.activate b c, n⟩ ∈ h.underWay → n < h.activations.length) nofun (fun h e ih => ?_) trace
  have hfinish : ∀ answer, (h.finish answer).underWay ⊆ h.underWay ∧
      (h.finish answer).activations.length = h.activations.length := by
    intro answer
    unfold finish
    split <;> simp_all
  have hmake : ∀ session, (h.make session).underWay = h.underWay ∧
      (h.make session).activations.length = h.activations.length := by
    intro session
    unfold make
    split <;> simp_all
  have hhold : ∀ b taken, (h.hold b taken).activations.length = h.activations.length :=
    fun b taken => List.length_mapIdx
  intro b c n hn
  cases e with
  | began step =>
    rcases List.mem_cons.mp hn with he | hn
    · rw [StepUnderWay.mk.injEq] at he
      obtain ⟨rfl, rfl⟩ := he
      simp [next, begin, opened]
    · exact Nat.lt_of_lt_of_le (ih hn) (evolves_begin h step).length_le
  | ended answer => exact (hfinish answer).2 ▸ ih ((hfinish answer).1 hn)
  | madeClient session => exact (hmake session).2 ▸ ih ((hmake session).1 ▸ hn)
  | held b controller => exact (hhold _ _).symm ▸ ih hn
  | _ => exact ih hn

theorem starting?_begin (h : History) (step : Step) : (h.begin step).starting? = step.starts? := by
  cases step with
  | activate b c => simp [starting?, begin, opened, Step.starts?]
  | _ => rfl

/-- Whose controller a bootstrap has is nothing to a session that is started. -/
theorem starting?_hold (h : History) (b : Int) (taken : Bool) :
    (h.hold b taken).starting? = h.starting? := by
  unfold starting? hold
  cases h.underWay with
  | nil => rfl
  | cons u rest =>
    obtain ⟨step, n⟩ := u
    cases step with
    | activate bootstrap context =>
      dsimp only
      rw [List.getElem?_mapIdx]
      cases h.activations[n]? with
      | none => rfl
      | some a =>
        obtain ⟨hold, ha⟩ := h.rehold_eq b taken n a
        simp [ha]
    | _ => rfl

end History

namespace World

variable {w w' : World}

theorem starting?_of_meanwhile (h : w.Meanwhile w') :
    w'.history.starting? = w.history.starting? := by
  unfold History.starting?
  rw [h.underWay]
  cases hu : w.history.underWay with
  | nil => rfl
  | cons u rest =>
    obtain ⟨step, n⟩ := u
    cases step with
    | activate b c =>
      have hn : n < w.history.activations.length :=
        History.lt_of_activating (b := b) (c := c) w.trace (hu ▸ List.mem_cons_self ..)
      obtain ⟨a, ha, hev⟩ := h.evolves.history.kept n _ (List.getElem?_eq_getElem hn)
      simp [ha, List.getElem?_eq_getElem hn, hev.session]
    | _ => rfl

theorem innermost_of_meanwhile (h : w.Meanwhile w') :
    w'.history.innermost = w.history.innermost := by
  rw [History.innermost, h.underWay, History.innermost]

/-- Once an activation has made its session, it is the one that it starts. -/
theorem starting?_madeClient (w : World) (j : Nat) {step : Step}
    (hs : w.history.innermost = some step) (hx : w.history.starting? = none) :
    (w.happen (.madeClient j)).history.starting? = step.startsMade j := by
  rw [history_happen]
  unfold History.innermost at hs
  cases hu : w.history.underWay with
  | nil => simp [hu] at hs
  | cons u rest =>
    obtain ⟨step', n⟩ := u
    obtain rfl : step' = step := by simpa [hu] using hs
    change (w.history.make j).starting? = _
    cases step' with
    | activate b c =>
      have hn : n < w.history.activations.length :=
        History.lt_of_activating (b := b) (c := c) w.trace (hu ▸ List.mem_cons_self ..)
      rw [History.make_activate hu]
      simp [History.starting?, hu, hn, Step.startsMade]
    | deactivate b => simpa [History.make, hu, Step.startsMade] using hx
    | _ => rwa [History.make_other rfl hu]

theorem innermost_madeClient (w : World) (j : Nat) :
    (w.happen (.madeClient j)).history.innermost = w.history.innermost := by
  rw [history_happen]
  change (w.history.make j).innermost = _
  unfold History.make History.innermost
  split <;> simp_all

/-- The session is marked for a move before the move is made for the first time. -/
def Spent (w : World) (i : Nat) : Move → Prop
  | .opening | .beginHandshake | .finishHandshake => w.HasStarted i
  | _ => w.Stopped i

theorem spent_of_isGreeting {i : Nat} {d : Move} (hd : d.isGreeting = true) :
    w.Spent i d ↔ w.HasStarted i := by
  cases d with
  | opening | beginHandshake | finishHandshake => rfl
  | _ => cases hd

theorem spent_of_isParting {i : Nat} {d : Move} (hd : d.isParting = true) :
    w.Spent i d ↔ w.Stopped i := by
  cases d with
  | shutdown | exit | closing | stopClient => rfl
  | _ => cases hd

/-- What shows that a move has been granted. -/
def Shows (w : World) (i : Nat) : Move → Prop
  | .opening => ∃ n, w.writer? i = some n
  | .finishHandshake => w.Initialized i
  | _ => False

/-- Every connection belongs to the one session that it was opened for. -/
structure Wired (w : World) : Prop where
  told : ∀ i n, w.writer? i = some n → .called (.setWriter i n) ∈ w.trace
  counted : ∀ i n, .called (.setWriter i n) ∈ w.trace → n ≤ w.connections
  unique : ∀ i j n, .called (.setWriter i n) ∈ w.trace → .called (.setWriter j n) ∈ w.trace → j = i

/-- A change by which the session gets no nearer to a move. -/
structure Bland (i : Nat) (w w' : World) : Prop where
  spent : ∀ d, w.Spent i d → w'.Spent i d
  shows : ∀ d, w'.Shows i d → w.Shows i d
  wired : w.Wired → w'.Wired

variable {i : Nat}

theorem spent_of_sessions (h : ∀ x, w.sessions[i]? = some x → ∃ y, w'.sessions[i]? = some y ∧
    (x.started = true → y.started = true) ∧ (x.stopped = true → y.stopped = true)) (d : Move)
    (hd : w.Spent i d) : w'.Spent i d := by
  have hstarted : w.HasStarted i → w'.HasStarted i := by
    rintro ⟨x, hx, hs⟩
    obtain ⟨y, hy, hxy, _⟩ := h x hx
    exact ⟨y, hy, hxy hs⟩
  have hstopped : w.Stopped i → w'.Stopped i := by
    rintro ⟨x, hx, hs⟩
    obtain ⟨y, hy, _, hxy⟩ := h x hx
    exact ⟨y, hy, hxy hs⟩
  cases d with
  | opening | beginHandshake | finishHandshake => exact hstarted hd
  | _ => exact hstopped hd

theorem shows_of_sessions (h : ∀ y, w'.sessions[i]? = some y →
    (y.initialized = true → ∃ x, w.sessions[i]? = some x ∧ x.initialized = true) ∧
      ∀ n, y.writer = some n → w.writer? i = some n) (d : Move) (hd : w'.Shows i d) :
    w.Shows i d := by
  cases d with
  | opening =>
    obtain ⟨n, hn⟩ := hd
    obtain ⟨y, hy, hyn⟩ := Option.bind_eq_some_iff.mp hn
    exact ⟨n, (h y hy).2 n hyn⟩
  | finishHandshake =>
    obtain ⟨y, hy, hinit⟩ := hd
    exact (h y hy).1 hinit
  | _ => exact hd

theorem writer?_modifySession {j k n : Nat} {f : Session → Session}
    (hf : ∀ x n, (f x).writer = some n → x.writer = some n)
    (h : (w.modifySession j f).writer? k = some n) : w.writer? k = some n := by
  obtain ⟨y, hy, hn⟩ := Option.bind_eq_some_iff.mp h
  obtain ⟨x, hx, ⟨_, rfl⟩ | ⟨_, rfl⟩⟩ := getElem?_modify_cases hy
  · exact Option.bind_eq_some_iff.mpr ⟨x, hx, hf x n hn⟩
  · exact Option.bind_eq_some_iff.mpr ⟨y, hx, hn⟩

theorem Wired.of_writers (h : w.Wired) (hw : ∀ k n, w'.writer? k = some n → w.writer? k = some n)
    (hc : w.connections ≤ w'.connections)
    (ht : ∃ es, w'.trace = w.trace ++ es ∧ ∀ k n, .called (.setWriter k n) ∉ es) : w'.Wired := by
  obtain ⟨es, ht, hes⟩ := ht
  have hback : ∀ {k n}, .called (.setWriter k n) ∈ w'.trace → .called (.setWriter k n) ∈ w.trace := by
    intro k n hmem
    rw [ht] at hmem
    exact (List.mem_append.mp hmem).resolve_right (hes k n)
  refine ⟨fun k n hn => ?_, fun k n hmem => Nat.le_trans (h.counted k n (hback hmem)) hc,
    fun k j n hmem hmem' => h.unique k j n (hback hmem) (hback hmem')⟩
  rw [ht]
  exact List.mem_append_left _ (h.told k n (hw k n hn))

namespace Bland

theorem trans {w'' : World} (h : Bland i w w') (h' : Bland i w' w'') : Bland i w w'' :=
  ⟨fun d hd => h'.spent d (h.spent d hd), fun d hd => h.shows d (h'.shows d hd),
    fun hw => h'.wired (h.wired hw)⟩

/-- No session is touched, and none is given a connection. -/
theorem of_sessions (hs : w'.sessions = w.sessions) (hc : w.connections ≤ w'.connections)
    (ht : ∃ es, w'.trace = w.trace ++ es ∧ ∀ k n, .called (.setWriter k n) ∉ es) : Bland i w w' where
  spent := spent_of_sessions fun x hx => ⟨x, hs ▸ hx, id, id⟩
  shows := shows_of_sessions fun y hy => by
    rw [hs] at hy
    exact ⟨fun hinit => ⟨y, hy, hinit⟩, fun n hn => Option.bind_eq_some_iff.mpr ⟨y, hy, hn⟩⟩
  wired := fun h => h.of_writers (fun k n hn => by rwa [writer?, hs] at hn) hc ht

theorem happen (w : World) {e : Event} (he : ∀ k n, e ≠ .called (.setWriter k n)) :
    Bland i w (w.happen e) :=
  of_sessions rfl (Nat.le_refl _)
    ⟨[e], rfl, fun k n hmem => he k n (List.mem_singleton.mp hmem).symm⟩

theorem remark (w : World) (r : Remark) : Bland i w (w.remark r) := happen w (by simp)

theorem of_alike (h : w.Alike w') : Bland i w w' := by
  obtain ⟨es, ht, hplain⟩ := h.trace
  refine of_sessions h.sessions h.connections ⟨es, ht, fun k n hmem => ?_⟩
  cases hplain _ hmem

theorem modifySession (w : World) (j : Nat) {f : Session → Session}
    (hspent : ∀ x, (x.started = true → (f x).started = true) ∧
      (x.stopped = true → (f x).stopped = true))
    (hwriter : ∀ x n, (f x).writer = some n → x.writer = some n)
    (hinit : j = i → ∀ x, (f x).initialized = true → x.initialized = true) :
    Bland i w (w.modifySession j f) where
  spent := spent_of_sessions fun x hx => by
    refine ⟨_, getElem?_modify_of_some f hx, ?_⟩
    split
    · exact hspent x
    · exact ⟨id, id⟩
  shows := shows_of_sessions fun y hy => by
    obtain ⟨x, hx, ⟨hij, rfl⟩ | ⟨_, rfl⟩⟩ := getElem?_modify_cases hy
    · exact ⟨fun h => ⟨x, hx, hinit hij x h⟩,
        fun n hn => Option.bind_eq_some_iff.mpr ⟨x, hx, hwriter x n hn⟩⟩
    · exact ⟨fun h => ⟨y, hx, h⟩, fun n hn => Option.bind_eq_some_iff.mpr ⟨y, hx, hn⟩⟩
  wired := fun h => h.of_writers (fun _ _ => writer?_modifySession hwriter) (Nat.le_refl _)
    ⟨[], by simp [World.modifySession], by simp⟩

/-- A new session has been granted nothing. -/
theorem addSession (w : World) {x : Session} (hinit : x.initialized = false)
    (hwriter : x.writer = none) : Bland i w (addSession x w) := by
  have hback : ∀ {k : Nat} {y : Session}, (EditorClient.addSession x w).sessions[k]? = some y →
      y = x ∨ w.sessions[k]? = some y := by
    intro k y hy
    rw [EditorClient.addSession, List.getElem?_append] at hy
    split at hy
    · exact .inr hy
    · exact .inl (List.mem_singleton.mp (List.mem_of_getElem? hy))
  refine ⟨spent_of_sessions fun y hy => ⟨y, getElem?_append_of_some hy, id, id⟩,
    shows_of_sessions fun y hy => ?_, fun h => h.of_writers (fun k n hn => ?_) (Nat.le_refl _)
      ⟨[], by simp [EditorClient.addSession], by simp⟩⟩
  · rcases hback hy with rfl | hy
    · exact ⟨fun h => absurd h (by simp [hinit]), fun n hn => absurd hn (by simp [hwriter])⟩
    · exact ⟨fun h => ⟨y, hy, h⟩, fun n hn => Option.bind_eq_some_iff.mpr ⟨y, hy, hn⟩⟩
  · obtain ⟨y, hy, hyn⟩ := Option.bind_eq_some_iff.mp hn
    rcases hback hy with rfl | hy
    · rw [hwriter] at hyn
      cases hyn
    · exact Option.bind_eq_some_iff.mpr ⟨y, hy, hyn⟩

end Bland

/-- A session has a new connection, and its client is given it. -/
def wire (j n : Nat) (w : World) : World :=
  (w.modifySession j fun s => { s with writer := some n }).happen (.called (.setWriter j n))

theorem sessions_wire (w : World) (j n : Nat) :
    (w.wire j n).sessions = w.sessions.modify j fun s => { s with writer := some n } :=
  rfl

theorem trace_wire (w : World) (j n : Nat) :
    (w.wire j n).trace = w.trace ++ [.called (.setWriter j n)] :=
  rfl

theorem mem_trace_wire {j n k m : Nat} :
    .called (.setWriter k m) ∈ (w.wire j n).trace ↔ .called (.setWriter k m) ∈ w.trace ∨ k = j ∧ m = n := by
  simp [trace_wire]

theorem writer?_wire {j n k m : Nat} (h : (w.wire j n).writer? k = some m) :
    w.writer? k = some m ∨ k = j ∧ m = n := by
  obtain ⟨y, hy, hm⟩ := Option.bind_eq_some_iff.mp h
  rw [sessions_wire] at hy
  obtain ⟨x, hx, ⟨hjk, rfl⟩ | ⟨_, rfl⟩⟩ := getElem?_modify_cases hy
  · exact .inr ⟨hjk.symm, (Option.some.inj hm).symm⟩
  · exact .inl (Option.bind_eq_some_iff.mpr ⟨y, hx, hm⟩)

/-- The number of the connection is new. -/
theorem Wired.wire (h : w.Wired) {n : Nat} (hn : n ≤ w.connections)
    (hnew : ∀ k m, .called (.setWriter k m) ∈ w.trace → m < n) (j : Nat) : (w.wire j n).Wired where
  told := fun k m hm => mem_trace_wire.mpr ((writer?_wire hm).imp (h.told k m) id)
  counted := fun k m hm => by
    change m ≤ w.connections
    rcases mem_trace_wire.mp hm with hm | ⟨_, rfl⟩
    · exact h.counted k m hm
    · exact hn
  unique := fun k l m hk hl => by
    rcases mem_trace_wire.mp hk with hold | ⟨rfl, rfl⟩
    · rcases mem_trace_wire.mp hl with hold' | ⟨_, rfl⟩
      · exact h.unique k l m hold hold'
      · exact absurd (hnew k m hold) (Nat.lt_irrefl m)
    · rcases mem_trace_wire.mp hl with hold | ⟨rfl, _⟩
      · exact absurd (hnew l m hold) (Nat.lt_irrefl m)
      · rfl

theorem spent_wire {j n : Nat} (d : Move) (hd : w.Spent i d) : (w.wire j n).Spent i d := by
  refine spent_of_sessions (fun x hx => ?_) d hd
  rw [sessions_wire]
  refine ⟨_, getElem?_modify_of_some _ hx, ?_⟩
  by_cases hij : j = i <;> simp [hij]

theorem shows_wire {j n : Nat} (d : Move) (hd : (w.wire j n).Shows i d) :
    w.Shows i d ∨ j = i ∧ d = .opening := by
  cases d with
  | opening =>
    obtain ⟨m, hm⟩ := hd
    rcases writer?_wire hm with hm | ⟨hij, _⟩
    · exact .inl ⟨m, hm⟩
    · exact .inr ⟨hij.symm, rfl⟩
  | finishHandshake =>
    obtain ⟨y, hy, hinit⟩ := hd
    rw [sessions_wire] at hy
    obtain ⟨x, hx, ⟨_, rfl⟩ | ⟨_, rfl⟩⟩ := getElem?_modify_cases hy
    · exact .inl ⟨x, hx, hinit⟩
    · exact .inl ⟨y, hx, hinit⟩
  | _ => exact .inl hd

end World

end EditorClient
