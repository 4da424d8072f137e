import EditorClient.Proofs.Evolution

/-! Who owns the session of an activation. A running session is held by the controller that its
activation answered, the bootstrap has that controller unless it was lost, and one subscription is bound
to it; and deactivation leaves nothing running. -/

namespace EditorClient

/-- The controller that a disposable stops. -/
def CleanUp.controller? : CleanUp → Option Nat
  | .scripted .. => none
  | .stopController k => some k

namespace World

def Runs (w : World) (i : Nat) : Prop := ∃ x, w.sessions[i]? = some x ∧ x.isRunning = true

instance (w : World) (i : Nat) : Decidable (w.Runs i) :=
  decidable_of_iff ((w.sessions[i]?).any Session.isRunning = true)
    (by simp [Runs, Option.any_eq_true])

/-- Whether a disposable is bound to a controller. -/
def binds (w : World) (k d : Nat) : Bool :=
  (w.disposables[d]?).any fun x => x.action.controller? == some k

/-- The subscriptions of a context that are bound to a controller. -/
def bound (w : World) (context : Int) (k : Nat) : List Nat :=
  (((w.contexts[context.toNat - 1]?).map fun c => c.subscriptions).getD []).filter (w.binds k)

/-- One subscription of the context is bound to the controller, and it has not been disposed. -/
def Registered (w : World) (context : Int) (k : Nat) : Prop :=
  ∃ d x, w.bound context k = [d] ∧ w.disposables[d]? = some x ∧ x.disposed = false

/-- No log has refused to say that a session of this name has started on this channel. -/
def Unrefused (w : World) (i : Nat) : Prop :=
  ∀ x, w.sessions[i]? = some x → Event.refused (.sessionStarted x.slug x.name) ∉ w.trace

/-- How an activation owns its session. The controller `but` is about to be stopped, and may have
been given up by its bootstrap. -/
structure Owns (but : Option Nat) (w : World) (a : Activation) (i : Nat) : Prop where
  session : ∃ x, w.sessions[i]? = some x ∧ x.started = true
  bootstrap : 1 ≤ a.bootstrap
  running : w.Runs i → (a.returned = false ∧ ¬w.Unrefused i) ∨
    ∃ k, a.answer = some (.ok (.activated k)) ∧ w.Holds k i ∧
      (but ≠ some k → a.hold = .lost ∨
        a.hold = .current ∧ w.current (a.bootstrap.toNat - 1) = some k)
  held : ∀ k, w.Holds k i →
    a.answer = some (.ok (.activated k)) ∧ (w.history.meddled = false → w.Runs i)

/-- The activation `skip` is still at work on its session. -/
structure Owned (but skip : Option Nat) (w : World) : Prop where
  owns : ∀ (n : Nat) (a : Activation) (i : Nat), skip ≠ some n →
    w.history.activations[n]? = some a → a.session = some i → w.Owns but a i
  distinct : ∀ (n m : Nat) (a b : Activation) (i : Nat), w.history.activations[n]? = some a →
    w.history.activations[m]? = some b → a.session = some i → b.session = some i → n = m
  made : ∀ a ∈ w.history.activations, ∀ i, a.session = some i → i < w.sessions.length
  held : ∀ k i, w.Holds k i → i < w.sessions.length

/-- How controllers are registered for cleanup. The controller `but` is about to be stopped, and its
subscription may be disposed or gone. -/
structure Registry (but : Option Nat) (w : World) : Prop where
  running : ∀ (k : Nat) (c : Controller), w.controllers[k]? = some c →
    (c.state = .running ↔ c.session.isSome = true)
  answered : ∀ a ∈ w.history.activations, ∀ k, a.answer = some (.ok (.activated k)) →
    ∃ c, w.controllers[k]? = some c ∧ c.state ≠ .unstarted ∧ c.state ≠ .starting ∧
      (c.state = .running → but ≠ some k → w.Registered a.context k)
  bound : ∀ (d : Nat) (x : Disposable) (k : Nat), w.disposables[d]? = some x →
    x.action = .stopController k →
      ∃ c, w.controllers[k]? = some c ∧ (c.state = .running ∨ c.state = .stopped)
  listed : ∀ c ∈ w.contexts, ∀ d ∈ c.subscriptions, d < w.disposables.length

/-- Of these activations of a bootstrap, those that have not lost their controllers have no session that
runs, apart from one whose start could not be logged. -/
def Quieted (w : World) (b : Int) (ended : List Nat) : Prop :=
  ∀ (n : Nat) (a : Activation) (i : Nat), n ∈ ended → w.history.activations[n]? = some a →
    a.bootstrap = b → a.hold ≠ .lost → a.session = some i →
    a.returned = true ∨ w.Unrefused i → ¬w.Runs i

def Undone (w : World) : Prop := ∀ d ∈ w.history.deactivations, w.Quieted d.bootstrap d.ended

structure Sound (but skip : Option Nat) (w : World) : Prop where
  owned : w.Owned but skip
  registry : w.Registry but
  undone : w.Undone

variable {but skip : Option Nat} {w w' : World}

theorem Sound.owns_at (h : w.Sound but none) {n : Nat} {a : Activation} {i : Nat}
    (ha : w.history.activations[n]? = some a) (hi : a.session = some i) : w.Owns but a i :=
  h.owned.owns n a i (Option.some_ne_none n).symm ha hi

/-- No session of the first world begins or ceases to run, and no controller takes or drops one. -/
structure Tame (w w' : World) : Prop where
  history : w'.history = w.history
  sessions : ∀ (i : Nat) (x : Session), w.sessions[i]? = some x →
    ∃ y, w'.sessions[i]? = some y ∧ y.slug = x.slug ∧ y.name = x.name ∧
      (x.started = true → y.started = true) ∧ y.isRunning = x.isRunning
  holds : ∀ k i, w'.Holds k i ↔ w.Holds k i
  current : ∀ b, w'.current b = w.current b
  trace : w.trace <+: w'.trace

theorem Tame.runs {i : Nat} (ht : w.Tame w') (hi : i < w.sessions.length) :
    w'.Runs i ↔ w.Runs i := by
  have hx := List.getElem?_eq_getElem hi
  obtain ⟨y, hy, _, _, _, hr⟩ := ht.sessions i _ hx
  simp [Runs, hx, hy, hr]

theorem Tame.lt_length {i : Nat} (ht : w.Tame w') (hi : i < w.sessions.length) :
    i < w'.sessions.length := by
  obtain ⟨y, hy, _⟩ := ht.sessions i _ (List.getElem?_eq_getElem hi)
  exact (List.getElem?_eq_some_iff.mp hy).1

theorem Unrefused.of_trace {i : Nat} (h : w'.Unrefused i) (ht : w.trace <+: w'.trace)
    (hs : ∀ x, w.sessions[i]? = some x →
      ∃ y, w'.sessions[i]? = some y ∧ y.slug = x.slug ∧ y.name = x.name) : w.Unrefused i := by
  intro x hx hmem
  obtain ⟨y, hy, hslug, hname⟩ := hs x hx
  exact h y hy (hslug ▸ hname ▸ ht.subset hmem)

theorem Tame.unrefused {i : Nat} (ht : w.Tame w') (h : w'.Unrefused i) : w.Unrefused i :=
  h.of_trace ht.trace fun x hx => by
    obtain ⟨y, hy, hslug, hname, _⟩ := ht.sessions i x hx
    exact ⟨y, hy, hslug, hname⟩

theorem Evolves.unrefused {i : Nat} (he : w.Evolves w') (h : w'.Unrefused i) : w.Unrefused i :=
  h.of_trace he.trace fun x hx => by
    obtain ⟨y, hy, hxy⟩ := he.sessions i x hx
    exact ⟨y, hy, hxy.slug, hxy.name⟩

theorem Owned.tame (h : w.Owned but skip) (ht : w.Tame w') : w'.Owned but skip where
  owns := by
    intro n a i hn ha hi
    rw [ht.history] at ha
    obtain ⟨⟨x, hx, hstart⟩, hb, hrun, hheld⟩ := h.owns n a i hn ha hi
    obtain ⟨y, hy, _, _, hstart', _⟩ := ht.sessions i x hx
    have hlt := h.made a (List.mem_of_getElem? ha) i hi
    refine ⟨⟨y, hy, hstart' hstart⟩, hb, fun hr => ?_, fun k hk => ?_⟩
    · rcases hrun ((ht.runs hlt).mp hr) with ⟨hret, hlog⟩ | ⟨k, hans, hk, hcur⟩
      · exact .inl ⟨hret, mt ht.unrefused hlog⟩
      · exact .inr ⟨k, hans, (ht.holds k i).mpr hk, by rwa [ht.current]⟩
    · obtain ⟨hans, hr⟩ := hheld k ((ht.holds k i).mp hk)
      exact ⟨hans, fun hm => (ht.runs hlt).mpr (hr (ht.history ▸ hm))⟩
  distinct := by
    rw [ht.history]
    exact h.distinct
  made := by
    rw [ht.history]
    exact fun a ha i hi => ht.lt_length (h.made a ha i hi)
  held := fun k i hk => ht.lt_length (h.held k i ((ht.holds k i).mp hk))

theorem Quieted.tame {b : Int} {ended : List Nat} (h : w.Quieted b ended) (ho : w.Owned but skip)
    (ht : w.Tame w') : w'.Quieted b ended := by
  intro n a i hn ha hb hc hi hlog hr
  rw [ht.history] at ha
  have hlt := ho.made a (List.mem_of_getElem? ha) i hi
  exact h n a i hn ha hb hc hi (hlog.imp_right ht.unrefused) ((ht.runs hlt).mp hr)

/-- The registry is about answers, controllers, contexts and disposables. -/
theorem Registry.of_eq (h : w.Registry but)
    (ha : ∀ a ∈ w'.history.activations, ∀ k, a.answer = some (.ok (.activated k)) →
      ∃ b ∈ w.history.activations, b.answer = a.answer ∧ b.context = a.context)
    (hc : w'.controllers = w.controllers) (hctx : w'.contexts = w.contexts)
    (hd : w'.disposables = w.disposables) : w'.Registry but where
  running := by
    rw [hc]
    exact h.running
  answered := by
    intro a hmem k hans
    obtain ⟨b, hb, hba, hbc⟩ := ha a hmem k hans
    obtain ⟨c, hk, hu, hs, hr⟩ := h.answered b hb k (hba.trans hans)
    refine ⟨c, hc ▸ hk, hu, hs, fun hrun hbut => ?_⟩
    obtain ⟨d, x, hbound, hx, hlive⟩ := hr hrun hbut
    refine ⟨d, x, ?_, hd ▸ hx, hlive⟩
    have hbinds : w'.binds k = w.binds k := by
      funext d
      rw [binds, binds, hd]
    rw [World.bound, hctx, hbinds, ← hbc]
    exact hbound
  bound := by
    rw [hc, hd]
    exact h.bound
  listed := by
    rw [hctx, hd]
    exact h.listed

theorem Sound.tame (h : w.Sound but skip) (ht : w.Tame w') (hc : w'.controllers = w.controllers)
    (hctx : w'.contexts = w.contexts) (hd : w'.disposables = w.disposables) :
    w'.Sound but skip where
  owned := h.owned.tame ht
  registry := h.registry.of_eq (by rw [ht.history]; exact fun a ha _ _ => ⟨a, ha, rfl, rfl⟩) hc hctx hd
  undone := by
    intro d hd
    rw [ht.history] at hd
    exact (h.undone d hd).tame h.owned ht

theorem tame_of_alike (h : w.Alike w') : w.Tame w' where
  history := h.history
  sessions := fun i x hx => ⟨x, h.sessions ▸ hx, rfl, rfl, id, rfl⟩
  holds := by simp [Holds, h.controllers]
  current := by simp [World.current, h.bootstraps]
  trace := by
    obtain ⟨es, htrace, _⟩ := h.trace
    exact ⟨es, htrace.symm⟩

theorem Sound.callSession (h : w.Sound but skip) (k : Nat) (c : SessionCall) :
    (w.callSession k c).Sound but skip := by
  refine h.tame ⟨rfl, fun _ x hx => ⟨x, hx, rfl, rfl, id, rfl⟩, fun _ _ => .rfl, fun _ => rfl,
    List.prefix_rfl⟩ rfl rfl rfl

theorem Sound.alike (h : w.Sound but skip) (ha : w.Alike w') : w'.Sound but skip :=
  h.tame (tame_of_alike ha) ha.controllers ha.contexts ha.disposables

theorem tame_modifySession (w : World) (i : Nat) {f : Session → Session}
    (hf : ∀ x, w.sessions[i]? = some x → (f x).slug = x.slug ∧ (f x).name = x.name ∧
      (x.started = true → (f x).started = true) ∧ (f x).isRunning = x.isRunning) :
    w.Tame (w.modifySession i f) where
  history := rfl
  sessions := by
    intro j x hx
    refine ⟨_, getElem?_modify_of_some f hx, ?_⟩
    split
    · rename_i hij
      exact hf x (hij ▸ hx)
    · exact ⟨rfl, rfl, id, rfl⟩
  holds := fun _ _ => Iff.rfl
  current := fun _ => rfl
  trace := List.prefix_rfl

theorem runs_of_stopSession {i j : Nat}
    (hr : (w.modifySession i fun s => { s with stopped := true }).Runs j) : i ≠ j ∧ w.Runs j := by
  obtain ⟨y, hy, hr⟩ := hr
  obtain ⟨x, hx, ⟨_, rfl⟩ | ⟨hij, rfl⟩⟩ := getElem?_modify_cases hy
  · simp [Session.isRunning] at hr
  · exact ⟨hij, y, hx, hr⟩

theorem runs_stopSession {i j : Nat} (hij : i ≠ j) (hr : w.Runs j) :
    (w.modifySession i fun s => { s with stopped := true }).Runs j := by
  obtain ⟨x, hx, hr⟩ := hr
  exact ⟨x, by simp [World.modifySession, hij, hx], hr⟩

theorem unrefused_of_stopSession {i j : Nat}
    (h : (w.modifySession i fun s => { s with stopped := true }).Unrefused j) : w.Unrefused j :=
  h.of_trace List.prefix_rfl fun x hx => by
    refine ⟨_, getElem?_modify_of_some _ hx, ?_⟩
    split
    · exact ⟨rfl, rfl⟩
    · exact ⟨rfl, rfl⟩

theorem Owns.session_stopSession {a : Activation} {i j : Nat} (h : w.Owns but a j) :
    ∃ x, (w.modifySession i fun s => { s with stopped := true }).sessions[j]? = some x ∧
      x.started = true := by
  obtain ⟨x, hx, hstart⟩ := h.session
  refine ⟨_, getElem?_modify_of_some _ hx, ?_⟩
  split
  · exact hstart
  · exact hstart

theorem Undone.stopSession (h : w.Undone) (i : Nat) :
    (w.modifySession i fun s => { s with stopped := true }).Undone := by
  intro d hd n a j hn ha hb hc hj hlog hr
  exact h d hd n a j hn ha hb hc hj (hlog.imp_right unrefused_of_stopSession)
    (runs_of_stopSession hr).2

/-- A session may be stopped that no activation made or no controller holds, or if sessions have been
handled directly. -/
theorem Sound.stopSession (h : w.Sound none none) {i : Nat}
    (hi : w.history.made i = true → w.history.meddled = true ∨ ∀ k, ¬w.Holds k i) :
    (w.modifySession i fun s => { s with stopped := true }).Sound none none where
  owned := by
    refine ⟨?_, h.owned.distinct, ?_, ?_⟩
    · intro n a j hn ha hj
      have ho := h.owned.owns n a j hn ha hj
      refine ⟨ho.session_stopSession, ho.bootstrap, fun hr => ?_, fun k hk => ?_⟩
      · rcases ho.running (runs_of_stopSession hr).2 with ⟨hret, hlog⟩ | hown
        · exact .inl ⟨hret, mt unrefused_of_stopSession hlog⟩
        · exact .inr hown
      · obtain ⟨hans, hr⟩ := ho.held k hk
        refine ⟨hans, fun hm => runs_stopSession ?_ (hr hm)⟩
        rintro rfl
        rcases hi (History.made_iff.mpr ⟨n, a, ha, hj⟩) with hmed | hfree
        · rw [history_modifySession, hmed] at hm
          cases hm
        · exact hfree k hk
    · intro a ha j hj
      simpa [World.modifySession] using h.owned.made a ha j hj
    · intro k j hk
      simpa [World.modifySession] using h.owned.held k j hk
  registry := h.registry.of_eq (fun a ha _ _ => ⟨a, ha, rfl, rfl⟩) rfl rfl rfl
  undone := h.undone.stopSession i

/-- A controller that holds a session lets go of it and stops it. -/
def halt (w : World) (k : Nat) : World :=
  match (w.controllers[k]?).bind fun c => if c.state = .running then c.session else none with
  | some i =>
    (w.modifyController k fun c => { c with session := none, state := .stopped }).modifySession i
      fun s => { s with stopped := true }
  | none => w

/-- Whether there is anything to halt. -/
theorem halt_cases (w : World) (k : Nat) :
    (∃ c i, w.controllers[k]? = some c ∧ c.state = .running ∧ c.session = some i ∧
      w.halt k = (w.modifyController k fun c => { c with session := none, state := .stopped
        }).modifySession i fun s => { s with stopped := true }) ∨
    ((∀ c, w.controllers[k]? = some c → c.state = .running → c.session = none) ∧ w.halt k = w) := by
  unfold halt
  cases hc : w.controllers[k]? with
  | none => exact .inr ⟨nofun, rfl⟩
  | some c =>
    by_cases hr : c.state = .running
    · cases hs : c.session with
      | none =>
        refine .inr ⟨fun c' hc' _ => ?_, by simp [hr, hs]⟩
        rw [← Option.some.inj hc', hs]
      | some i => exact .inl ⟨c, i, rfl, hr, hs, by simp [hr, hs]⟩
    · refine .inr ⟨fun c' hc' hr' => ?_, by simp [hr]⟩
      rw [← Option.some.inj hc'] at hr'
      exact absurd hr' hr

theorem holds_of_release {k j i : Nat}
    (hj : (w.modifyController k fun c => { c with session := none, state := .stopped }).Holds j i) :
    k ≠ j ∧ w.Holds j i := by
  obtain ⟨c', hc', hs⟩ := hj
  obtain ⟨c, hc, ⟨_, rfl⟩ | ⟨hkj, rfl⟩⟩ := getElem?_modify_cases hc'
  · cases hs
  · exact ⟨hkj, c', hc, hs⟩

theorem holds_release {k j i : Nat} (hkj : k ≠ j) (hj : w.Holds j i) :
    (w.modifyController k fun c => { c with session := none, state := .stopped }).Holds j i := by
  obtain ⟨c, hc, hs⟩ := hj
  exact ⟨c, by simp [World.modifyController, hkj, hc], hs⟩

theorem Registry.release {k : Nat} (h : w.Registry (some k)) :
    (w.modifyController k fun c => { c with session := none, state := .stopped }).Registry none where
  running := by
    intro j c' hc'
    obtain ⟨x, hx, ⟨_, rfl⟩ | ⟨_, rfl⟩⟩ := getElem?_modify_cases hc'
    · simp
    · exact h.running j c' hx
  answered := by
    intro a ha j hans
    obtain ⟨x, hx, hu, hs, hreg⟩ := h.answered a ha j hans
    refine ⟨_, getElem?_modify_of_some _ hx, ?_⟩
    split
    · exact ⟨nofun, nofun, nofun⟩
    · rename_i hkj
      exact ⟨hu, hs, fun hr _ => hreg hr (by simpa using hkj)⟩
  bound := by
    intro d x j hx hj
    obtain ⟨y, hy, hst⟩ := h.bound d x j hx hj
    refine ⟨_, getElem?_modify_of_some _ hy, ?_⟩
    split
    · exact .inr rfl
    · exact hst
  listed := h.listed

/-- A controller lets go of its session, and that is stopped. -/
theorem Owned.release {k i : Nat} {c : Controller} (h : w.Owned (some k) none)
    (hc : w.controllers[k]? = some c) (hs : c.session = some i) :
    ((w.modifyController k fun c => { c with session := none, state := .stopped }).modifySession i
      fun s => { s with stopped := true }).Owned none none where
  owns := by
    intro n a j hn ha hj
    have ho := h.owns n a j hn ha hj
    refine ⟨ho.session_stopSession, ho.bootstrap, fun hr => ?_, fun m hm => ?_⟩
    · obtain ⟨hij, hr⟩ := runs_of_stopSession hr
      rcases ho.running hr with ⟨hret, hlog⟩ | ⟨m, hans, hm, hcur⟩
      · exact .inl ⟨hret, mt unrefused_of_stopSession hlog⟩
      · -- The session runs on, so it is another one and another controller holds it.
        have hkm : k ≠ m := by
          rintro rfl
          obtain ⟨c', hc', hs'⟩ := hm
          rw [hc, Option.some.injEq] at hc'
          rw [← hc', hs] at hs'
          exact hij (Option.some.inj hs')
        exact .inr ⟨m, hans, holds_release hkm hm, fun _ => hcur (by simpa using hkm)⟩
    · obtain ⟨hkm, hm⟩ := holds_of_release hm
      obtain ⟨hans, hr⟩ := ho.held m hm
      refine ⟨hans, fun hmed => runs_stopSession ?_ (hr hmed)⟩
      rintro rfl
      have hans' := (ho.held k ⟨c, hc, hs⟩).1
      rw [hans] at hans'
      cases hans'
      exact hkm rfl
  distinct := h.distinct
  made := fun a ha j hj => by
    simpa [World.modifySession, World.modifyController] using h.made a ha j hj
  held := fun m j hm => by
    simpa [World.modifySession, World.modifyController] using h.held m j (holds_of_release hm).2

/-- Nothing has to be stopped for a controller that holds no session. -/
theorem Sound.of_unheld {k : Nat} (h : w.Sound (some k) none)
    (hidle : ∀ c, w.controllers[k]? = some c → c.state = .running → c.session = none) :
    w.Sound none none where
  owned := by
    refine ⟨fun n a j hn ha hj => ?_, h.owned.distinct, h.owned.made, h.owned.held⟩
    have ho := h.owned.owns n a j hn ha hj
    refine ⟨ho.session, ho.bootstrap, fun hr => (ho.running hr).imp_right ?_, ho.held⟩
    rintro ⟨m, hans, ⟨c, hc, hs⟩, hcur⟩
    refine ⟨m, hans, ⟨c, hc, hs⟩, fun _ => hcur ?_⟩
    rintro he
    obtain rfl := Option.some.inj he
    have hr := (h.registry.running k c hc).mpr (by rw [hs]; rfl)
    rw [hidle c hc hr] at hs
    cases hs
  registry := by
    refine ⟨h.registry.running, fun a ha m hans => ?_, h.registry.bound, h.registry.listed⟩
    obtain ⟨c, hc, hu, hs, hreg⟩ := h.registry.answered a ha m hans
    refine ⟨c, hc, hu, hs, fun hr _ => hreg hr ?_⟩
    rintro he
    obtain rfl := Option.some.inj he
    have hsome := (h.registry.running k c hc).mp hr
    rw [hidle c hc hr] at hsome
    cases hsome
  undone := h.undone

/-- Whatever its disposable and its bootstrap have come to, a controller that is stopped leaves all
in order. -/
theorem Sound.halt {k : Nat} (h : w.Sound (some k) none) : (w.halt k).Sound none none := by
  rcases w.halt_cases k with ⟨c, i, hc, _, hs, he⟩ | ⟨hidle, he⟩
  · rw [he]
    exact ⟨h.owned.release hc hs,
      h.registry.release.of_eq (fun a ha _ _ => ⟨a, ha, rfl, rfl⟩) rfl rfl rfl,
      Undone.stopSession (w := w.modifyController k _) h.undone i⟩
  · rw [he]
    exact h.of_unheld hidle

end World

end EditorClient
