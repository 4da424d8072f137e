import EditorClient.Proofs.Ownership
import EditorClient.Proofs.SessionStop
import EditorClient.Proofs.UnstartedSession

/-! What is left of a session that is stopped during a call of its start. Whether all is released
depends on how that call ends, and on how far the stop came. -/

namespace EditorClient

namespace Procedure

variable {α β : Type}

/-- What holds at the end, said of each call that a procedure makes itself: the call, the world just
before it, its result, and the world just after it. -/
def AfterCall (rely : World → World → Prop) : Procedure α → World →
    (Call → World → Except Fault Reply → World → Except Fault α → World → Prop) → Prop
  | done _, _, _ => True
  | fail _, _, _ => True
  | read next, w, post => (next w).AfterCall rely w post
  | update f next, w, post => next.AfterCall rely (f w) post
  | call c next, w, post => ∀ r w', rely (w.happen (.called c)) w' →
      (next r).Ensures (fun _ => True) rely w' (post c w r w') ∧ (next r).AfterCall rely w' post

variable {rely : World → World → Prop} {w : World}

theorem afterCall_find_bind {sort : ObjectSort} {objects : World → List α} {i : Nat}
    {k : α → Procedure β}
    {post : Call → World → Except Fault Reply → World → Except Fault β → World → Prop}
    (h : ∀ a, (objects w)[i]? = some a → (k a).AfterCall rely w post) :
    (find sort objects i >>= k).AfterCall rely w post := by
  change ((find sort objects i).bind k).AfterCall rely w post
  unfold find Procedure.bind AfterCall
  dsimp only
  split
  · exact h _ ‹_›
  · trivial

/-- What holds after each call holds for the exchanges of a run. -/
theorem AfterCall.exchanges {p : Procedure α}
    {post : Call → World → Except Fault Reply → World → Except Fault α → World → Prop}
    {s : Setting} (h : p.AfterCall rely s.world post)
    (respond : Call → Setting → Except Fault Reply × Setting)
    (hc : ∀ c s, rely (s.world.happen (.called c)) (respond c s).2.world) :
    ∀ x ∈ p.exchanges respond s, post x.call x.before.world x.result x.after.world
      (p.run respond s).1 (p.run respond s).2.world := by
  induction p generalizing s with
  | done a => exact fun x hx => absurd hx List.not_mem_nil
  | fail f => exact fun x hx => absurd hx List.not_mem_nil
  | read next ih => exact ih s.world h
  | update f next ih => exact ih (s := { s with world := f s.world }) h
  | call c next ih =>
    obtain ⟨hnow, hlater⟩ := h (respond c s).1 _ (hc c s)
    intro x hx
    rcases List.mem_cons.mp hx with rfl | hx
    · exact (hnow.run respond (fun _ _ => []) (fun _ => True) fun c s _ =>
        ⟨trivial, hc c s, by simp⟩).1
    · exact ih (respond c s).1 hlater x hx

end Procedure

namespace Event

/-- The client of the session is told to stop. -/
def isStop (session : Nat) : Event → Bool
  | .called (.client i (.stop _)) => i == session
  | _ => false

/-- The client of the session is told to stop, or its server to shut down. -/
def isEnding (session : Nat) : Event → Bool
  | .called (.client i (.stop _)) | .called (.client i .shutdown) => i == session
  | _ => false

variable {e : Event} {i : Nat}

theorem not_isStop_of_not_isEnding (h : e.isEnding i = false) : e.isStop i = false := by
  unfold isStop
  split
  · exact h
  · rfl

theorem not_isEnding_of_not_isFor (h : e.isFor i = false) : e.isEnding i = false := by
  unfold isEnding
  split
  · exact h
  · exact h
  · rfl

end Event

/-- What the end of a session owes: each of its connections is closed, its client is left alone once
told to stop, and its server is shut down if the handshake was completed. -/
structure Released (i : Nat) (completed : Prop) (es : List Event) : Prop where
  closed : ∀ n, .called (.setWriter i n) ∈ es → .called (.closeWriter n) ∈ es
  silent : es.Pairwise fun e e' => e.isStop i = true → e'.isFor i = false
  shutDown : completed → .called (.client i .shutdown) ∈ es

/-- What a stop leaves of a session without a completed handshake, and whether it came as far as to
tell the client. -/
structure Calm (i : Nat) (told : Prop) (es : List Event) : Prop where
  closed : ∀ n, .called (.setWriter i n) ∈ es → .called (.closeWriter n) ∈ es
  silent : es.Pairwise fun e e' => e.isStop i = true → e'.isFor i = false
  told_iff : told ↔ ∃ e ∈ es, e.isStop i = true
  not_shutDown : .called (.client i .shutdown) ∉ es

variable {i : Nat} {told : Prop} {es es' : List Event}

theorem Calm.append (h : Calm i told es) (h' : ∀ e ∈ es', e.isFor i = false) :
    Calm i told (es ++ es') where
  closed := by
    intro n hn
    rcases List.mem_append.mp hn with hn | hn
    · exact List.mem_append_left _ (h.closed n hn)
    · have hfor := h' _ hn
      simp [Event.isFor] at hfor
  silent := by
    refine List.pairwise_append.mpr ⟨h.silent, ?_, fun _ _ e he _ => h' e he⟩
    exact List.pairwise_of_forall_mem_list fun _ _ e he _ => h' e he
  told_iff := by
    rw [h.told_iff]
    constructor
    · rintro ⟨e, he, hs⟩
      exact ⟨e, List.mem_append_left _ he, hs⟩
    · rintro ⟨e, he, hs⟩
      rcases List.mem_append.mp he with he | he
      · exact ⟨e, he, hs⟩
      · rw [Event.not_isStop_of_not_isEnding (Event.not_isEnding_of_not_isFor (h' e he))] at hs
        cases hs
  not_shutDown := by
    intro hmem
    rcases List.mem_append.mp hmem with hmem | hmem
    · exact h.not_shutDown hmem
    · have hfor := h' _ hmem
      simp [Event.isFor] at hfor

theorem Calm.of_not_isEnding (h : ∀ e ∈ es, e.isEnding i = false)
    (hclosed : ∀ n, .called (.setWriter i n) ∈ es → .called (.closeWriter n) ∈ es) :
    Calm i False es where
  closed := hclosed
  silent := by
    refine List.pairwise_of_forall_mem_list fun e he _ _ hs => ?_
    rw [Event.not_isStop_of_not_isEnding (h e he)] at hs
    cases hs
  told_iff := by
    refine ⟨False.elim, fun ⟨e, he, hs⟩ => ?_⟩
    rw [Event.not_isStop_of_not_isEnding (h e he)] at hs
    cases hs
  not_shutDown := fun hmem => by
    have hend := h _ hmem
    simp [Event.isEnding] at hend

theorem Calm.not_isStop (h : Calm i False es) {e : Event} (he : e ∈ es) : e.isStop i = false := by
  cases hs : e.isStop i with
  | false => rfl
  | true => exact (h.told_iff.mpr ⟨e, he, hs⟩).elim

/-- As long as the client has not been told to stop, it may be called. -/
theorem Calm.append_call (h : Calm i False es) {c : Call} (hc : (Event.called c).isEnding i = false)
    (hset : ∀ n, c ≠ .setWriter i n) : Calm i False (es ++ [.called c]) where
  closed := by
    intro n hn
    rcases List.mem_append.mp hn with hn | hn
    · exact List.mem_append_left _ (h.closed n hn)
    · exact absurd (Event.called.inj (List.mem_singleton.mp hn)).symm (hset n)
  silent := by
    refine List.pairwise_append.mpr ⟨h.silent, List.pairwise_singleton .., fun e he _ _ hs => ?_⟩
    rw [h.not_isStop he] at hs
    cases hs
  told_iff := by
    refine ⟨False.elim, fun ⟨e, he, hs⟩ => ?_⟩
    rcases List.mem_append.mp he with he | he
    · rw [h.not_isStop he] at hs
      cases hs
    · rw [List.mem_singleton.mp he, Event.not_isStop_of_not_isEnding hc] at hs
      cases hs
  not_shutDown := by
    intro hmem
    rcases List.mem_append.mp hmem with hmem | hmem
    · exact h.not_shutDown hmem
    · rw [← List.mem_singleton.mp hmem] at hc
      simp [Event.isEnding] at hc

theorem Calm.append_stop (h : Calm i False es) (tasks : Nat) :
    Calm i True (es ++ [.called (.client i (.stop tasks))]) where
  closed := fun n hn => List.mem_append_left _ (h.closed n (by simpa using hn))
  silent := by
    refine List.pairwise_append.mpr ⟨h.silent, List.pairwise_singleton .., fun e he _ _ hs => ?_⟩
    rw [h.not_isStop he] at hs
    cases hs
  told_iff := by simp [Event.isStop]
  not_shutDown := by simpa using h.not_shutDown

namespace World

/-- The events that have come since an earlier world. -/
def since (w w' : World) : List Event := w'.trace.drop w.trace.length

def Stopped (w : World) (i : Nat) : Prop := ∃ x, w.sessions[i]? = some x ∧ x.stopped = true

instance (w : World) (i : Nat) : Decidable (w.Stopped i) :=
  decidable_of_iff ((w.sessions[i]?).any Session.stopped = true)
    (by simp [Stopped, Option.any_eq_true])

def Initialized (w : World) (i : Nat) : Prop := ∃ x, w.sessions[i]? = some x ∧ x.initialized = true

/-- In the meantime the client of the session has been told to stop. -/
def Told (w w' : World) (i : Nat) : Prop := ∃ e ∈ w.since w', e.isStop i = true

/-- The session was started and then stopped. -/
def Ceased (w : World) (i : Nat) (initialized : Bool) : Prop :=
  ∃ x, w.sessions[i]? = some x ∧ x.started = true ∧ x.initialized = initialized ∧ x.stopped = true

/-- The session is being started, has this connection, and has not been stopped. -/
structure Starting (w₀ : World) (i : Nat) (writer : Option Nat) (w : World) : Prop where
  session : ∃ x, w.sessions[i]? = some x ∧ x.started = true ∧ x.initialized = false ∧
    x.stopped = false ∧ x.writer = writer
  events : ∃ es, w.trace = w₀.trace ++ es ∧ (∀ n, .called (.setWriter i n) ∈ es → writer = some n) ∧
    ∀ e ∈ es, e.isEnding i = false

structure Halted (w₀ : World) (i : Nat) (initialized : Bool) (told : Prop) (w : World) : Prop where
  session : w.Ceased i initialized
  events : ∃ es, w.trace = w₀.trace ++ es ∧ Calm i told es

/-- The client has been told to stop already. -/
structure Late (w₀ : World) (i : Nat) (w : World) : Prop where
  session : w.Ceased i false
  events : ∃ es, w.trace = w₀.trace ++ es ∧ ∃ e ∈ es, e.isStop i = true

/-- The client has been called after it was told to stop. -/
structure Noisy (w₀ : World) (i : Nat) (initialized : Bool) (w : World) : Prop where
  session : w.Ceased i initialized
  events : ∃ es, w.trace = w₀.trace ++ es ∧
    ¬es.Pairwise fun e e' => e.isStop i = true → e'.isFor i = false

variable {w₀ w w' : World} {initialized : Bool} {writer : Option Nat}

theorem since_of_append (h : w'.trace = w.trace ++ es) : w.since w' = es := by
  rw [since, h, List.drop_left]

theorem Ceased.stopped (h : w.Ceased i initialized) : w.Stopped i := by
  obtain ⟨x, hx, _, _, hstop⟩ := h
  exact ⟨x, hx, hstop⟩

theorem Ceased.initialized_iff (h : w.Ceased i initialized) :
    w.Initialized i ↔ initialized = true := by
  obtain ⟨x, hx, _, hinit, _⟩ := h
  simp [Initialized, hx, hinit]

theorem Ceased.not_runs (h : w.Ceased i initialized) :
    ¬∃ x, w.sessions[i]? = some x ∧ x.isRunning = true := by
  obtain ⟨x, hx, _, _, hstop⟩ := h
  simp [hx, Session.isRunning, hstop]

theorem Ceased.of_sessions (h : w.Ceased i initialized) (hs : w'.sessions = w.sessions) :
    w'.Ceased i initialized := by
  obtain ⟨x, hx⟩ := h
  exact ⟨x, by rwa [hs]⟩

theorem Ceased.happen (h : w.Ceased i initialized) (e : Event) : (w.happen e).Ceased i initialized :=
  h.of_sessions rfl

theorem Ceased.modifySession (h : w.Ceased i false) {f : Session → Session}
    (hf : ∀ x, (f x).started = x.started ∧ (f x).stopped = x.stopped ∧
      (x.initialized = false → (f x).initialized = initialized)) :
    (w.modifySession i f).Ceased i initialized := by
  obtain ⟨x, hx, hstart, hinit, hstop⟩ := h
  have hx' := getElem?_modify_self f hx
  exact ⟨f x, hx', (hf x).1.trans hstart, (hf x).2.2 hinit, (hf x).2.1.trans hstop⟩

/-- Nothing is done to a stopped session during a call. -/
theorem Ceased.meanwhile (h : w.Ceased i false) (hr : w.AtMostStops i w') :
    w'.Ceased i false ∧ ∃ es, w'.trace = w.trace ++ es ∧ ∀ e ∈ es, e.isFor i = false := by
  obtain ⟨x, hx, hstart, hinit, hstop⟩ := h
  obtain ⟨hx', hes⟩ := hr.of_stopped hx hstart hinit hstop
  exact ⟨⟨x, hx', hstart, hinit, hstop⟩, hes⟩

theorem Starting.not_stopped (h : w₀.Starting i writer w) : ¬w.Stopped i := by
  obtain ⟨x, hx, _, _, hstop, _⟩ := h.session
  simp [Stopped, hx, hstop]

/-- During a call the session is stopped at most, and without a connection the stop tells the
client. -/
theorem Starting.meanwhile (h : w₀.Starting i writer w) {c : Call}
    (hc : (Event.called c).isEnding i = false) (hset : ∀ n, c = .setWriter i n → writer = some n)
    (hr : (w.happen (.called c)).AtMostStops i w') :
    w₀.Starting i writer w' ∨
      w₀.Halted i false (w.Told w' i) w' ∧ (writer = none → w.Told w' i) := by
  obtain ⟨x, hx, hstart, hinit, hlive, rfl⟩ := h.session
  obtain ⟨es, ht, hwriter, hes⟩ := h.events
  obtain ⟨y, es', hy, ht', hxy⟩ := hr x hx hstart hinit
  have hsince : w'.trace = w.trace ++ (.called c :: es') := by
    rw [ht']
    simp [happen]
  have htrace : w'.trace = w₀.trace ++ ((es ++ [.called c]) ++ es') := by
    rw [hsince, ht]
    simp
  have hends : ∀ es'', (∀ e ∈ es'', e.isFor i = false) →
      ∀ e ∈ (es ++ [.called c]) ++ es'', e.isEnding i = false := by
    intro es'' hfor e he
    rcases List.mem_append.mp he with he | he
    · rcases List.mem_append.mp he with he | he
      · exact hes e he
      · exact List.mem_singleton.mp he ▸ hc
    · exact Event.not_isEnding_of_not_isFor (hfor e he)
  have hwriters : ∀ es'', (∀ e ∈ es'', e.isFor i = false) →
      ∀ n, .called (.setWriter i n) ∈ (es ++ [.called c]) ++ es'' → x.writer = some n := by
    intro es'' hfor n hn
    rcases List.mem_append.mp hn with hn | hn
    · rcases List.mem_append.mp hn with hn | hn
      · exact hwriter n hn
      · exact hset n (Event.called.inj (List.mem_singleton.mp hn)).symm
    · have hfor' := hfor _ hn
      simp [Event.isFor] at hfor'
  have hcalm : ∀ es'', (∀ n, x.writer = some n → .called (.closeWriter n) ∈ es'') →
      (∀ e ∈ es'', e.isFor i = false) → Calm i False ((es ++ [.called c]) ++ es'') :=
    fun es'' hclosed hfor => .of_not_isEnding (hends es'' hfor) fun n hn =>
      List.mem_append_right _ (hclosed n (hwriters es'' hfor n hn))
  cases hxy with
  | kept hfor =>
    exact .inl ⟨⟨x, hy, hstart, hinit, hlive, rfl⟩, _, htrace, hwriters es' hfor, hends es' hfor⟩
  | stuck _ hn hclosed hfor =>
    have htold : w.Told w' i = False := by
      refine eq_false ?_
      rintro ⟨e, he, hs⟩
      rw [since_of_append hsince] at he
      rw [Event.not_isStop_of_not_isEnding] at hs
      · cases hs
      · exact hends es' hfor e (by rw [List.append_assoc]; exact List.mem_append_right _ he)
    refine .inr ⟨⟨⟨_, hy, hstart, hinit, rfl⟩, _, htrace, ?_⟩, fun hnone => by simp [hn] at hnone⟩
    rw [htold]
    exact hcalm es' (fun m hm => by rwa [← Option.some.inj (hn.symm.trans hm)]) hfor
  | @stopped before after t _ hclosed hb ha =>
    have htold : w.Told w' i :=
      ⟨.called (.client i (.stop t)), by simp [since_of_append hsince], by simp [Event.isStop]⟩
    refine .inr ⟨⟨⟨_, hy, hstart, hinit, rfl⟩, _, htrace, ?_⟩, fun _ => htold⟩
    rw [eq_true htold]
    have hstop := ((hcalm before hclosed hb).append_stop t).append ha
    simpa using hstop

theorem Halted.late (h : w₀.Halted i false told w) (ht : told) : w₀.Late i w := by
  obtain ⟨es, htrace, hcalm⟩ := h.events
  exact ⟨h.session, es, htrace, hcalm.told_iff.mp ht⟩

/-- Without its client told, a stopped session may go on as before. -/
theorem Halted.call (h : w₀.Halted i false False w) {c : Call}
    (hc : (Event.called c).isEnding i = false) (hset : ∀ n, c ≠ .setWriter i n)
    (hr : (w.happen (.called c)).AtMostStops i w') :
    w₀.Halted i false False w' := by
  obtain ⟨es, ht, hcalm⟩ := h.events
  obtain ⟨hs', es', ht', hes'⟩ := (h.session.happen _).meanwhile hr
  refine ⟨hs', _, ?_, (hcalm.append_call hc hset).append hes'⟩
  simp [ht', happen, ht]

theorem Halted.alike (h : w₀.Halted i initialized told w) (ha : w.Alike w') :
    w₀.Halted i initialized told w' := by
  obtain ⟨es, ht, hcalm⟩ := h.events
  obtain ⟨es', ht', hplain⟩ := ha.trace
  refine ⟨h.session.of_sessions ha.sessions, es ++ es', by rw [ht', ht, List.append_assoc], ?_⟩
  exact hcalm.append fun e he => Event.not_isFor_of_isPlain (hplain e he) i

theorem Halted.modifySession (h : w₀.Halted i false told w) {f : Session → Session}
    (hf : ∀ x, (f x).started = x.started ∧ (f x).stopped = x.stopped ∧
      (x.initialized = false → (f x).initialized = initialized)) :
    w₀.Halted i initialized told (w.modifySession i f) := ⟨h.session.modifySession hf, h.events⟩

/-- Changes to the session that are of no account for what has become of it. -/
theorem Ceased.modifyOther (h : w.Ceased i false) {f : Session → Session}
    (hf : ∀ x, (f x).started = x.started ∧ (f x).stopped = x.stopped ∧
      (f x).initialized = x.initialized) : (w.modifySession i f).Ceased i false :=
  h.modifySession fun x => ⟨(hf x).1, (hf x).2.1, (hf x).2.2.trans⟩

/-- A connection has been made, and the session has it from now on. -/
def connected (i n : Nat) (port : Int) (w : World) : World :=
  ((countConnection w).remark (.connected port)).modifySession i fun s => { s with writer := some n }

theorem Late.connected (h : w₀.Late i w) (n : Nat) (port : Int) :
    w₀.Late i (w.connected i n port) := by
  have hcounted : ((countConnection w).remark (.connected port)).Ceased i false :=
    h.session.of_sessions rfl
  obtain ⟨es, ht, e, he, hs⟩ := h.events
  refine ⟨hcounted.modifyOther fun _ => ⟨rfl, rfl, rfl⟩, es ++ [.remarked (.connected port)], ?_, e,
    List.mem_append_left _ he, hs⟩
  simp [World.connected, happen, remark, World.modifySession, countConnection, ht]

theorem Starting.connected (h : w₀.Starting i none w) (n : Nat) (port : Int) :
    w₀.Starting i (some n) (w.connected i n port) := by
  obtain ⟨x, hx, hstart, hinit, hlive, _⟩ := h.session
  obtain ⟨es, ht, hwriter, hes⟩ := h.events
  refine ⟨⟨_, getElem?_modify_of_some _ hx, by simp [hstart, hinit, hlive]⟩,
    es ++ [.remarked (.connected port)], ?_, fun m hm => ?_, fun e he => ?_⟩
  · simp [World.connected, happen, remark, World.modifySession, countConnection, ht]
  · cases hwriter m (by simpa using hm)
  · rcases List.mem_append.mp he with he | he
    · exact hes e he
    · rw [List.mem_singleton.mp he]
      rfl

/-- Another task of the session changes nothing about how far its start is. -/
theorem Starting.addTask (h : w₀.Starting i writer w) :
    w₀.Starting i writer (w.modifySession i fun s => { s with tasks := s.tasks + 1 }) := by
  obtain ⟨x, hx, hx'⟩ := h.session
  exact ⟨⟨_, getElem?_modify_self _ hx, hx'⟩, h.events⟩

theorem Late.noisy (h : w₀.Late i w) {e : Event} (he : e.isFor i = true) :
    w₀.Noisy i false (w.happen e) := by
  obtain ⟨es, ht, e', he', hs⟩ := h.events
  refine ⟨h.session.happen e, es ++ [e], by simp [World.happen, ht], fun hsilent => ?_⟩
  have hfor := (List.pairwise_append.mp hsilent).2.2 e' he' e (List.mem_singleton.mpr rfl) hs
  rw [he] at hfor
  cases hfor

theorem Noisy.extend (h : w₀.Noisy i initialized w) (hs : w'.Ceased i initialized)
    (ht : w'.trace = w.trace ++ es) : w₀.Noisy i initialized w' := by
  obtain ⟨es', ht', hloud⟩ := h.events
  refine ⟨hs, es' ++ es, by rw [ht, ht', List.append_assoc], fun hsilent => ?_⟩
  exact hloud (List.pairwise_append.mp hsilent).1

theorem Noisy.happen (h : w₀.Noisy i initialized w) (e : Event) :
    w₀.Noisy i initialized (w.happen e) := h.extend (h.session.happen e) rfl

theorem Noisy.meanwhile (h : w₀.Noisy i false w) (hr : w.AtMostStops i w') :
    w₀.Noisy i false w' := by
  obtain ⟨hs, es, ht, _⟩ := h.session.meanwhile hr
  exact h.extend hs ht

theorem Noisy.alike (h : w₀.Noisy i initialized w) (ha : w.Alike w') :
    w₀.Noisy i initialized w' := by
  obtain ⟨es, ht, _⟩ := ha.trace
  exact h.extend (h.session.of_sessions ha.sessions) ht

/-- What has become of a session at the end of its start, if it was stopped during a call. -/
def Fate (w₀ : World) (i : Nat) (w : World) (r : Except Fault Reply) (w' w'' : World) : Prop :=
  ¬w.Stopped i → w'.Stopped i → ¬w''.Runs i ∧
    (Released i (w''.Initialized i) (w₀.since w'') ↔
      (∃ f, r = .error f) ∨ ¬w.Told w' i ∧ ¬w''.Initialized i)

variable {r : Except Fault Reply} {w₁ w₂ : World}

theorem Halted.fate (h : w₀.Halted i initialized (w₁.Told w₂ i) w)
    (hr : initialized = false → (∃ f, r = .error f) ∨ ¬w₁.Told w₂ i)
    (hr' : initialized = true → ∃ reply, r = .ok reply) : w₀.Fate i w₁ r w₂ w := by
  obtain ⟨es, ht, hcalm⟩ := h.events
  refine fun _ _ => ⟨h.session.not_runs, ?_⟩
  rw [since_of_append ht, h.session.initialized_iff]
  cases initialized with
  | false =>
    refine ⟨fun _ => (hr rfl).imp_right fun hn => ⟨hn, nofun⟩, fun _ => ?_⟩
    exact ⟨hcalm.closed, hcalm.silent, nofun⟩
  | true =>
    obtain ⟨reply, rfl⟩ := hr' rfl
    exact ⟨fun hrel => absurd (hrel.shutDown rfl) hcalm.not_shutDown, by simp⟩

/-- How a start ends that went on after a stop. -/
inductive Outlived (w₀ : World) (i : Nat) (told : Prop) (w : World) : Prop where
  | noisy {initialized : Bool} (ht : told) (h : w₀.Noisy i initialized w)
  | halted {initialized : Bool} (h : w₀.Halted i initialized told w) (ht : told → initialized = true)

theorem Outlived.fate (h : w₀.Outlived i (w₁.Told w₂ i) w) (reply : Reply) :
    w₀.Fate i w₁ (.ok reply) w₂ w := by
  cases h with
  | noisy ht h =>
    obtain ⟨es, htrace, hloud⟩ := h.events
    refine fun _ _ => ⟨h.session.not_runs, ?_⟩
    rw [since_of_append htrace]
    exact ⟨fun hrel => absurd hrel.silent hloud, by simp [ht]⟩
  | @halted initialized h ht =>
    refine h.fate (fun hinit => .inr fun htold => ?_) fun _ => ⟨reply, rfl⟩
    cases hinit.symm.trans (ht htold)

theorem fate_of_stopped (h : w₁.Stopped i) : w₀.Fate i w₁ r w₂ w := fun hn => absurd h hn

theorem fate_of_not_stopped (h : ¬w₂.Stopped i) : w₀.Fate i w₁ r w₂ w := fun _ hs => absurd hs h

end World

open Procedure

variable {w₀ w w' : World} {writer : Option Nat} {initialized : Bool}

namespace Session

/-- The end of a start, once the handshake is complete. -/
def markInitialized (i : Nat) (p : Posting) : Procedure Unit := do
  modify i fun s => { s with initialized := true }
  Procedure.post p

/-- A start, once the handshake has begun. -/
def completeHandshake (i : Nat) (name : Value) (p : Posting) : Procedure Unit := do
  Procedure.recoverOrdinary (request i .finishHandshake) fun fault =>
    throw (.handshakeFailed name fault)
  markInitialized i p

variable {rely : World → World → Prop} {name : Value} {p : Posting}

theorem afterCall_markInitialized
    {post : Call → World → Except Fault Reply → World → Except Fault Unit → World → Prop} :
    (markInitialized i p).AfterCall rely w post := by
  change (Procedure.post p).AfterCall rely (w.modifySession i _) post
  unfold Procedure.post AfterCall
  dsimp only
  split
  · trivial
  · trivial

theorem ensures_markInitialized {P : World → Prop} (hP : ∀ {w w'}, w.Alike w' → P w → P w')
    (h : P (w.modifySession i fun s => { s with initialized := true })) :
    (markInitialized i p).Ensures (fun _ => True) rely w fun _ w' => P w' := by
  rw [markInitialized, ensures_bind, modify, ensures_change]
  exact (ensures_post p _).mpr ⟨fun _ _ => hP (.happen _ rfl) h, fun _ => hP (.post _ p) h⟩

theorem ensures_markInitialized_halted (h : w₀.Halted i false told w) :
    (markInitialized i p).Ensures (fun _ => True) rely w fun _ w' => w₀.Halted i true told w' :=
  ensures_markInitialized (fun ha hw => hw.alike ha) (h.modifySession fun _ => ⟨rfl, rfl, fun _ => rfl⟩)

theorem ensures_markInitialized_noisy (h : w₀.Noisy i false w) :
    (markInitialized i p).Ensures (fun _ => True) rely w fun _ w' => w₀.Noisy i true w' :=
  ensures_markInitialized (fun ha hw => hw.alike ha)
    ⟨h.session.modifySession fun _ => ⟨rfl, rfl, fun _ => rfl⟩, h.events⟩

/-- What follows a call goes on in one way if the call returns, and fails at once if not. -/
structure Branches (k : Except Fault Reply → Procedure Unit) (q : Procedure Unit) : Prop where
  ok : ∀ reply, k (.ok reply) = q
  error : ∀ f, ∃ g, k (.error f) = fail g

/-- What is left of a start after a call, with what has become of a session that was stopped before or
is stopped now. -/
structure Rest (w₀ : World) (i : Nat) (q : Procedure Unit) : Prop where
  noisy : ∀ {w}, w₀.Noisy i false w → q.Ensures (fun _ => True) (World.AtMostStops i) w
    fun _ w' => ∃ initialized, w₀.Noisy i initialized w'
  halted : ∀ {w told}, w₀.Halted i false told w → q.Ensures (fun _ => True) (World.AtMostStops i) w
    fun _ w' => w₀.Outlived i told w'
  after : ∀ {w writer}, w₀.Starting i writer w ∨ w.Ceased i false →
    q.AfterCall (World.AtMostStops i) w fun _ w₁ r w₂ _ w' => w₀.Fate i w₁ r w₂ w'

theorem rest_markInitialized : Rest w₀ i (markInitialized i p) where
  noisy := fun h => (ensures_markInitialized_noisy h).mono fun _ _ hw => ⟨true, hw⟩
  halted := fun h => (ensures_markInitialized_halted h).mono fun _ _ hw => .halted hw fun _ => rfl
  after := fun _ => afterCall_markInitialized

namespace Rest

variable {c : Call} {k : Except Fault Reply → Procedure Unit} {q : Procedure Unit}

/-- To be called once told to stop is noise. -/
theorem noisy_call (hq : Rest w₀ i q) (hk : Branches k q)
    (h : w₀.Noisy i false (w.happen (.called c))) :
    (Procedure.call c k).Ensures (fun _ => True) (World.AtMostStops i) w
      fun _ w' => ∃ initialized, w₀.Noisy i initialized w' := by
  refine ⟨trivial, fun r w' _ hr => ?_⟩
  have h' := h.meanwhile hr
  dsimp only
  cases r with
  | error f =>
    obtain ⟨g, hg⟩ := hk.error f
    rw [hg]
    exact ⟨false, h'⟩
  | ok reply =>
    rw [hk.ok]
    exact hq.noisy h'

theorem after_call (hq : Rest w₀ i q) (hk : Branches k q) (hc : (Event.called c).isEnding i = false)
    (hset : ∀ n, c = .setWriter i n → writer = some n)
    (h : w₀.Starting i writer w ∨ w.Ceased i false) :
    (Procedure.call c k).AfterCall (World.AtMostStops i) w
      fun _ w₁ r w₂ _ w' => w₀.Fate i w₁ r w₂ w' := by
  intro r w₂ hr
  have hafter : w₀.Starting i writer w₂ ∨ w₂.Ceased i false := h.elim
    (fun h => (h.meanwhile hc hset hr).imp_right fun h' => h'.1.session)
    fun h => .inr ((h.happen _).meanwhile hr).1
  constructor
  · rcases h with h | h
    · rcases h.meanwhile hc hset hr with h' | ⟨h', _⟩
      · exact ensures_of_forall _ _ fun _ _ => World.fate_of_not_stopped h'.not_stopped
      · cases r with
        | error f =>
          obtain ⟨g, hg⟩ := hk.error f
          rw [hg]
          exact h'.fate (fun _ => .inl ⟨f, rfl⟩) nofun
        | ok reply =>
          rw [hk.ok]
          exact (hq.halted h').mono fun _ _ hw => hw.fate reply
    · exact ensures_of_forall _ _ fun _ _ => World.fate_of_stopped h.stopped
  · cases r with
    | error f =>
      obtain ⟨g, hg⟩ := hk.error f
      rw [hg]
      trivial
    | ok reply =>
      rw [hk.ok]
      exact hq.after hafter

theorem call (hq : Rest w₀ i q) (hk : Branches k q) (hfor : (Event.called c).isFor i = true)
    (hc : (Event.called c).isEnding i = false) (hset : ∀ n, c ≠ .setWriter i n) :
    Rest w₀ i (Procedure.call c k) where
  noisy := fun h => hq.noisy_call hk (h.happen _)
  halted := by
    intro w told h
    by_cases ht : told
    · exact (hq.noisy_call hk ((h.late ht).noisy hfor)).mono fun _ _ ⟨_, hw⟩ => .noisy ht hw
    · rw [eq_false ht] at h ⊢
      refine ⟨trivial, fun r w' _ hr => ?_⟩
      have h' := h.call hc hset hr
      dsimp only
      cases r with
      | error f =>
        obtain ⟨g, hg⟩ := hk.error f
        rw [hg]
        exact .halted h' False.elim
      | ok reply =>
        rw [hk.ok]
        exact hq.halted h'
  after := hq.after_call hk hc fun n hn => absurd hn (hset n)

theorem addTask (hq : Rest w₀ i q) :
    Rest w₀ i (modify i (fun s => { s with tasks := s.tasks + 1 }) >>= fun _ => q) where
  noisy := fun h => hq.noisy ⟨h.session.modifyOther fun _ => ⟨rfl, rfl, rfl⟩, h.events⟩
  halted := fun h => hq.halted (h.modifySession fun _ => ⟨rfl, rfl, fun hinit => hinit⟩)
  after := fun h => hq.after (h.imp World.Starting.addTask fun h =>
    h.modifyOther fun _ => ⟨rfl, rfl, rfl⟩)

end Rest

theorem rest_handshake (w₀ : World) (i : Nat) (name : Value) (p : Posting) :
    Rest w₀ i (handshake i name >>= fun _ => markInitialized i p) := by
  have hrenamed : ∀ (f f' : Fault) (k : Unit → Procedure Unit),
      ∃ g, (if f.isOrdinary = true then throw f' else fail f : Procedure Unit).bind k = fail g := by
    intro f f' k
    split <;> exact ⟨_, rfl⟩
  have hcomplete : Rest w₀ i (completeHandshake i name p) :=
    rest_markInitialized.call ⟨fun _ => rfl, fun f => hrenamed f _ _⟩ (beq_self_eq_true i) rfl (by simp)
  exact hcomplete.call ⟨fun _ => rfl, fun f => hrenamed f _ _⟩ (beq_self_eq_true i) rfl (by simp)

theorem afterCall_openTransport (h : w₀.Starting i none w) (t : Transport) :
    (openTransport i t >>= fun _ => handshake i name >>= fun _ => markInitialized i p).AfterCall
      (World.AtMostStops i) w fun _ w₁ r w₂ _ w' => w₀.Fate i w₁ r w₂ w' := by
  have hrest := rest_handshake w₀ i name p
  cases t with
  | foreign v => trivial
  | spawn command args directory =>
    refine hrest.after_call ⟨fun _ => rfl, fun f => ?_⟩ rfl (by simp) (.inl h)
    change ∃ g, ((if f.isOs = true then _ else _ : Procedure Unit).bind _) = fail g
    split <;> exact ⟨_, rfl⟩
  | socket host port =>
    intro r w₂ hr
    cases r with
    | error f =>
      constructor
      · rcases h.meanwhile rfl (by simp) hr with h' | ⟨h', _⟩
        · exact ensures_of_forall _ _ fun _ _ => World.fate_of_not_stopped h'.not_stopped
        · change ((((if f.isOs = true then _ else _ : Procedure Reply).bind _).bind _).bind _).Ensures
            _ _ _ _
          split
          · exact (h'.alike (.happen w₂ rfl)).fate (fun _ => .inl ⟨f, rfl⟩) nofun
          · exact h'.fate (fun _ => .inl ⟨f, rfl⟩) nofun
      · change ((((if f.isOs = true then _ else _ : Procedure Reply).bind _).bind _).bind _).AfterCall _ _ _
        split
        · trivial
        · trivial
    | ok reply =>
      let n := (countConnection w₂).connections
      have hreading : Rest w₀ i ((Procedure.request (.readLoop i n) >>= fun _ =>
          modify i fun s => { s with tasks := s.tasks + 1 }) >>= fun _ =>
          handshake i name >>= fun _ => markInitialized i p) :=
        hrest.addTask.call ⟨fun _ => rfl, fun f => ⟨f, rfl⟩⟩ (beq_self_eq_true i) rfl (by simp)
      rcases h.meanwhile rfl (by simp) hr with h' | ⟨h', htold⟩
      · exact ⟨ensures_of_forall _ _ fun _ _ => World.fate_of_not_stopped h'.not_stopped,
          hreading.after_call ⟨fun _ => rfl, fun f => ⟨f, rfl⟩⟩ rfl (fun m hm => by cases hm; rfl)
            (.inl (h'.connected n port))⟩
      · have hlate := (h'.late (htold rfl)).connected n port
        refine ⟨?_, hreading.after_call ⟨fun _ => rfl, fun f => ⟨f, rfl⟩⟩ rfl
          (fun m hm => by cases hm; rfl)
          (.inr hlate.session : w₀.Starting i (some n) (w₂.connected i n port) ∨ _)⟩
        refine (hreading.noisy_call ⟨fun _ => rfl, fun f => ⟨f, rfl⟩⟩ ?_).mono fun _ _ ⟨_, hw⟩ =>
          World.Outlived.fate (.noisy (htold rfl) hw) reply
        exact hlate.noisy (beq_self_eq_true i)

theorem afterCall_start (h : w.Unopened) :
    (start i).AfterCall (World.AtMostStops i) w fun _ w₁ r w₂ _ w' => w.Fate i w₁ r w₂ w' := by
  refine afterCall_find_bind fun x hx => ?_
  split
  · trivial
  · rename_i hguard
    simp only [Bool.or_eq_true, not_or, Bool.not_eq_true] at hguard
    obtain ⟨hinit, hwriter⟩ := h x (List.mem_of_getElem? hx) hguard.1
    have hx' := getElem?_modify_self (fun s => { s with started := true }) hx
    refine afterCall_openTransport (w := w.modifySession i _) ⟨⟨_, hx', rfl, hinit, hguard.2, hwriter⟩,
      [], ?_, nofun, nofun⟩ x.transport
    simp [World.modifySession]

end Session

/-- A session that is stopped during a call of its start does not run afterwards. All is released
just if that call fails, or if the stop has not come as far as the client and the handshake is not
completed either. -/
theorem released_iff_of_stopped (limit depth : Nat) {s : Setting} (hs : s.world.Unopened)
    {x : Exchange} (hx : x ∈ (Session.start i).exchanges (Call.respond (Step.leave limit depth)) s)
    (hlive : ¬x.before.world.Stopped i) (hstop : x.after.world.Stopped i)
    (hw : w = ((Session.start i).run (Call.respond (Step.leave limit depth)) s).2.world) :
    ¬w.Runs i ∧ (Released i (w.Initialized i) (s.world.since w) ↔
      (∃ f, x.result = .error f) ∨ ¬x.before.world.Told x.after.world i ∧ ¬w.Initialized i) := by
  have hstart := (Session.afterCall_start (i := i) hs).exchanges
    (Call.respond (Step.leave limit depth)) (Step.atMostStops_respond limit depth i)
  exact hw ▸ hstart x hx hlive hstop

/-- One session has been made, for a server that listens already. -/
def Setting.withSession (script : Script) : Setting :=
  Step.leaveAll 9 9 [.newSession (.text "s") (.socket loopbackHost 2087) SessionOptions.standard]
    (.unlogged script)

/-- The session is stopped while its server refuses the handshake. -/
theorem released_of_handshake_refused :
    let s := Setting.withSession (.once .beginHandshake [.stopSession 1] (some (.raised .os "")))
    let w := ((Session.start 0).run (Call.respond (Step.leave 9 9)) s).2.world
    ∃ x ∈ (Session.start 0).exchanges (Call.respond (Step.leave 9 9)) s,
      ¬x.before.world.Stopped 0 ∧ x.after.world.Stopped 0 ∧ ¬w.Runs 0 ∧
        Released 0 (w.Initialized 0) (s.world.since w) := by
  intro s w
  have hs : s.world.Unopened := Step.unopened_leaveAll 9 9 "" _ _ _
  let exchanges := (Session.start 0).exchanges (Call.respond (Step.leave 9 9)) s
  let x := exchanges.get ⟨3, by decide +kernel⟩
  have hx : x ∈ exchanges := List.get_mem ..
  have hlive : ¬x.before.world.Stopped 0 := by decide +kernel
  have hstop : x.after.world.Stopped 0 := by decide +kernel
  have h := released_iff_of_stopped 9 9 hs hx hlive hstop rfl
  exact ⟨x, hx, hlive, hstop, h.1, h.2.mpr (.inl ⟨.raised .os "", rfl⟩)⟩

/-- The session is stopped while its connection is being made, and its handshake comes after that. -/
theorem not_released_of_connected :
    let s := Setting.withSession (.once .connect [.stopSession 1] none)
    let w := ((Session.start 0).run (Call.respond (Step.leave 9 9)) s).2.world
    ∃ x ∈ (Session.start 0).exchanges (Call.respond (Step.leave 9 9)) s,
      ¬x.before.world.Stopped 0 ∧ x.after.world.Stopped 0 ∧
        ¬Released 0 (w.Initialized 0) (s.world.since w) := by
  intro s w
  refine ⟨_, List.get_mem _ ⟨0, by decide +kernel⟩, by decide +kernel, by decide +kernel, fun h => ?_⟩
  have hsilent := List.pairwise_iff_getElem.mp h.silent 2 8 (by decide +kernel) (by decide +kernel)
    (by decide) (by decide +kernel)
  revert hsilent
  decide +kernel

end EditorClient
