import EditorClient.Proofs.Quiet

/-! How a world may differ once other steps have been taken. Sessions and controllers only move on,
and what belongs to an activation under way is left to it, unless the bootstrap is activated or
deactivated meanwhile, or the session is handled directly. -/

namespace EditorClient

structure Session.Evolves (x y : Session) : Prop where
  slug : y.slug = x.slug
  name : y.name = x.name
  started : x.started = true → y.started = true
  initialized : x.started = true → y.initialized = x.initialized
  stopped : x.stopped = true → y.stopped = true

theorem Session.Evolves.refl (x : Session) : x.Evolves x := ⟨rfl, rfl, id, fun _ => rfl, id⟩

theorem Session.Evolves.trans {x y z : Session} (h : x.Evolves y) (h' : y.Evolves z) :
    x.Evolves z :=
  ⟨h'.slug.trans h.slug, h'.name.trans h.name, fun hs => h'.started (h.started hs),
    fun hs => (h'.initialized (h.started hs)).trans (h.initialized hs),
    fun hs => h'.stopped (h.stopped hs)⟩

/-- Once a session has been started, it does not begin to run without its start going on. -/
theorem Session.Evolves.isRunning {x y : Session} (h : x.Evolves y) (hs : x.started = true)
    (hr : y.isRunning = true) : x.isRunning = true := by
  have hi := h.initialized hs
  have hp := h.stopped
  simp only [Session.isRunning, Bool.and_eq_true, Bool.not_eq_true'] at hr ⊢
  refine ⟨hi ▸ hr.1, ?_⟩
  cases hx : x.stopped with
  | false => rfl
  | true => rw [hp hx] at hr; cases hr.2

/-- Only from the state unstarted may a controller do anything but stop. -/
def Controller.Evolves (c c' : Controller) : Prop :=
  c.state = .unstarted ∨ c' = c ∨
    (c.state = .running ∧ c'.state = .stopped ∧ c'.session = none)

theorem Controller.Evolves.refl (c : Controller) : c.Evolves c := .inr (.inl rfl)

theorem Controller.Evolves.trans {c c' c'' : Controller} (h : c.Evolves c')
    (h' : c'.Evolves c'') : c.Evolves c'' := by
  rcases h with h | rfl | ⟨hr, hs, hn⟩
  · exact .inl h
  · exact h'
  · rcases h' with h' | rfl | ⟨hr', _, _⟩
    · rw [hs] at h'; cases h'
    · exact .inr (.inr ⟨hr, hs, hn⟩)
    · rw [hs] at hr'; cases hr'

theorem Controller.Evolves.unstarted {c c' : Controller} (h : c.Evolves c')
    (hu : c'.state = .unstarted) : c.state = .unstarted := by
  rcases h with h | rfl | ⟨_, hs, _⟩
  · exact h
  · exact hu
  · rw [hs] at hu; cases hu

namespace World

def Holds (w : World) (k i : Nat) : Prop := ∃ c, w.controllers[k]? = some c ∧ c.session = some i

/-- The controller of a bootstrap. -/
def current (w : World) (b : Nat) : Option Nat := (w.bootstraps[b]?).bind fun b => b.controller

/-- An activation has made and started the session and no controller holds it, so that nothing but
the activation itself or a host that handles the session directly can stop it. -/
structure Spared (w : World) (i : Nat) : Prop where
  started : ∃ x, w.sessions[i]? = some x ∧ x.started = true
  made : w.history.made i = true
  unheld : ∀ k, ¬w.Holds k i

/-- What a controller has called on sessions, in order. -/
def callsBy (w : World) (k : Nat) : List SessionCall :=
  w.sessionCalls.filterMap fun c => if c.1 = k then some c.2 else none

theorem callsBy_callSession (w : World) (k : Nat) (c : SessionCall) (i : Nat) :
    (w.callSession k c).callsBy i = if k = i then w.callsBy i ++ [c] else w.callsBy i := by
  simp only [callsBy, callSession, List.filterMap_append, List.filterMap_cons, List.filterMap_nil]
  split <;> simp_all

structure Evolves (w w' : World) : Prop where
  history : w.history.Evolves w'.history
  sessions : ∀ (i : Nat) (x : Session), w.sessions[i]? = some x →
    ∃ y, w'.sessions[i]? = some y ∧ x.Evolves y
  controllers : ∀ (k : Nat) (c : Controller), w.controllers[k]? = some c →
    ∃ c', w'.controllers[k]? = some c' ∧ c.Evolves c'
  calls : ∀ (k : Nat) (c : Controller), w.controllers[k]? = some c →
    c.state = .starting ∨ c.state = .failed → w'.callsBy k = w.callsBy k
  contexts : w.contexts.length ≤ w'.contexts.length
  bootstraps : w.bootstraps.length ≤ w'.bootstraps.length
  trace : w.trace <+: w'.trace
  fresh : ∀ (n : Nat) (a : Activation) (i : Nat), w.history.activations.length ≤ n →
    w'.history.activations[n]? = some a → a.session = some i → w.sessions.length ≤ i
  current : ∀ (n : Nat) (a a' : Activation), w.history.activations[n]? = some a →
    a.answer = none → a.hold = .current → 1 ≤ a.bootstrap → w'.history.activations[n]? = some a' →
      a'.hold = .lost ∨ a'.hold = .current ∧
        w'.current (a.bootstrap.toNat - 1) = w.current (a.bootstrap.toNat - 1)
  spared : ∀ (i : Nat), w.Spared i → w'.history.meddled = false →
    w'.Spared i ∧ ∀ x y, w.sessions[i]? = some x → w'.sessions[i]? = some y →
      y.stopped = x.stopped

theorem Evolves.sessions_length {w w' : World} (h : w.Evolves w') :
    w.sessions.length ≤ w'.sessions.length := by
  refine length_le_of_getElem? fun i x hx => ?_
  obtain ⟨y, hy, _⟩ := h.sessions i x hx
  exact ⟨y, hy⟩

/-- Nobody else does anything to a controller that is starting or has failed. -/
theorem Evolves.controller {w w' : World} (h : w.Evolves w') {k : Nat} {c : Controller}
    (hc : w.controllers[k]? = some c) (hstarted : c.state ≠ .unstarted)
    (hrunning : c.state ≠ .running) : w'.controllers[k]? = some c := by
  obtain ⟨c', hc', hu | rfl | ⟨hr, _⟩⟩ := h.controllers k c hc
  · exact absurd hu hstarted
  · exact hc'
  · exact absurd hr hrunning

theorem Evolves.trans {w w' w'' : World} (h : w.Evolves w') (h' : w'.Evolves w'') :
    w.Evolves w'' where
  history := h.history.trans h'.history
  sessions := by
    intro i x hx
    obtain ⟨y, hy, hxy⟩ := h.sessions i x hx
    obtain ⟨z, hz, hyz⟩ := h'.sessions i y hy
    exact ⟨z, hz, hxy.trans hyz⟩
  controllers := by
    intro k c hc
    obtain ⟨c', hc', hcc⟩ := h.controllers k c hc
    obtain ⟨c'', hc'', hcc'⟩ := h'.controllers k c' hc'
    exact ⟨c'', hc'', hcc.trans hcc'⟩
  calls := by
    intro k c hc hs
    have hc' : w'.controllers[k]? = some c := by
      rcases hs with hs | hs <;> exact h.controller hc (by simp [hs]) (by simp [hs])
    rw [h'.calls k c hc' hs, h.calls k c hc hs]
  contexts := Nat.le_trans h.contexts h'.contexts
  bootstraps := Nat.le_trans h.bootstraps h'.bootstraps
  trace := h.trace.trans h'.trace
  fresh := by
    intro n a i hn ha hi
    by_cases hn' : n < w'.history.activations.length
    · have haa := h'.history.activation (List.getElem?_eq_getElem hn') ha
      exact h.fresh n _ i hn (List.getElem?_eq_getElem hn') (haa.session.symm.trans hi)
    · exact Nat.le_trans h.sessions_length (h'.fresh n a i (Nat.le_of_not_lt hn') ha hi)
  current := by
    intro n a a'' ha hopen hc hb ha''
    obtain ⟨a', ha', haa⟩ := h.history.kept n a ha
    rcases h.current n a a' ha hopen hc hb ha' with hl | ⟨hc', hfirst⟩
    · exact .inl ((h'.history.activation ha' ha'').lost hl)
    · refine (h'.current n a' a'' ha' (haa.answer.trans hopen) hc' (haa.bootstrap ▸ hb) ha'').imp_right
        fun ⟨hc'', hsecond⟩ => ⟨hc'', ?_⟩
      rw [haa.bootstrap] at hsecond
      exact hsecond.trans hfirst
  spared := by
    intro i hs hm
    obtain ⟨hs', hsame⟩ := h.spared i hs (h'.history.unmeddled hm)
    obtain ⟨hs'', hsame'⟩ := h'.spared i hs' hm
    refine ⟨hs'', fun x z hx hz => ?_⟩
    obtain ⟨y, hy, _⟩ := h.sessions i x hx
    exact (hsame' y z hy hz).trans (hsame x y hx hy)

/-- What does not touch the history, stops no session, lets no controller hold one and gives no
bootstrap another controller. -/
theorem Evolves.of_history_eq {w w' : World} (hh : w'.history = w.history)
    (hs : ∀ (i : Nat) (x : Session), w.sessions[i]? = some x →
      ∃ y, w'.sessions[i]? = some y ∧ x.Evolves y ∧ y.stopped = x.stopped)
    (hc : ∀ (k : Nat) (c : Controller), w.controllers[k]? = some c →
      ∃ c', w'.controllers[k]? = some c' ∧ c.Evolves c')
    (ha : w'.sessionCalls = w.sessionCalls) (hheld : ∀ k i, w'.Holds k i → w.Holds k i)
    (hb : ∀ b, w'.current b = w.current b)
    (hlen : w.contexts.length ≤ w'.contexts.length ∧ w.bootstraps.length ≤ w'.bootstraps.length)
    (ht : w.trace <+: w'.trace) : w.Evolves w' where
  history := hh ▸ .refl _
  sessions := fun i x hx => by
    obtain ⟨y, hy, hxy, _⟩ := hs i x hx
    exact ⟨y, hy, hxy⟩
  controllers := hc
  calls := fun _ _ _ _ => by rw [callsBy, ha, callsBy]
  contexts := hlen.1
  bootstraps := hlen.2
  trace := ht
  fresh := by
    intro n a i hn ha
    rw [hh, List.getElem?_eq_none hn] at ha
    cases ha
  current := by
    intro n a a' ha _ hc _ ha'
    rw [hh, ha, Option.some.injEq] at ha'
    exact .inr ⟨ha' ▸ hc, hb _⟩
  spared := by
    intro i hsp _
    obtain ⟨x, hx, hstart⟩ := hsp.started
    obtain ⟨y, hy, hxy, hstop⟩ := hs i x hx
    refine ⟨⟨⟨y, hy, hxy.started hstart⟩, hh ▸ hsp.made, fun k hk => hsp.unheld k (hheld k i hk)⟩,
      fun x' y' hx' hy' => ?_⟩
    rw [hx, Option.some.injEq] at hx'
    rw [hy, Option.some.injEq] at hy'
    exact hy' ▸ hx' ▸ hstop

theorem Evolves.refl (w : World) : w.Evolves w :=
  .of_history_eq rfl (fun _ x hx => ⟨x, hx, .refl x, rfl⟩) (fun _ c hc => ⟨c, hc, .refl c⟩)
    rfl (fun _ _ => id) (fun _ => rfl) ⟨Nat.le_refl _, Nat.le_refl _⟩ List.prefix_rfl

/-- What other steps do from beginning to end. -/
structure Meanwhile (w w' : World) : Prop where
  evolves : w.Evolves w'
  underWay : w'.history.underWay = w.history.underWay

theorem Meanwhile.refl (w : World) : w.Meanwhile w := ⟨.refl w, rfl⟩

theorem Meanwhile.trans {w w' w'' : World} (h : w.Meanwhile w') (h' : w'.Meanwhile w'') :
    w.Meanwhile w'' :=
  ⟨h.evolves.trans h'.evolves, h'.underWay.trans h.underWay⟩

/-- A world while a step is under way that began at another. -/
structure Inside (w₀ : World) (step : Step) (w : World) : Prop where
  evolves : w₀.Evolves w
  within : History.Within w₀.history step w.history

theorem Inside.meanwhile {w₀ w w' : World} {step : Step} (h : w₀.Inside step w)
    (hm : w.Meanwhile w') : w₀.Inside step w' :=
  ⟨h.evolves.trans hm.evolves, h.within.trans hm.evolves.history hm.underWay⟩

end World

/-- What stands at a place after one element of a list has been modified. -/
theorem getElem?_modify_cases {α : Type} {l : List α} {i j : Nat} {f : α → α} {y : α}
    (h : (l.modify i f)[j]? = some y) :
    ∃ x, l[j]? = some x ∧ (i = j ∧ y = f x ∨ i ≠ j ∧ y = x) := by
  rw [List.getElem?_modify] at h
  obtain ⟨x, hx, rfl⟩ := Option.map_eq_some_iff.mp h
  by_cases hij : i = j
  · exact ⟨x, hx, .inl ⟨hij, by simp [hij]⟩⟩
  · exact ⟨x, hx, .inr ⟨hij, by simp [hij]⟩⟩

theorem getElem?_modify_of_some {α : Type} {l : List α} {i j : Nat} {x : α} (f : α → α)
    (h : l[j]? = some x) : (l.modify i f)[j]? = some (if i = j then f x else x) := by
  rw [List.getElem?_modify, h]
  rfl

theorem getElem?_modify_self {α : Type} {l : List α} {i : Nat} {x : α} (f : α → α)
    (h : l[i]? = some x) : (l.modify i f)[i]? = some (f x) := by
  rw [List.getElem?_modify_eq, h]
  rfl

theorem modify_eq_self {α : Type} {l : List α} {i : Nat} {f : α → α}
    (h : ∀ x, l[i]? = some x → f x = x) : l.modify i f = l := by
  apply List.ext_getElem?
  intro j
  rw [List.getElem?_modify]
  cases hj : l[j]? with
  | none => rfl
  | some x =>
    by_cases hij : i = j
    · subst hij
      simp [h x hj]
    · simp [hij]

theorem getElem?_append_of_some {α : Type} {l l' : List α} {j : Nat} {x : α}
    (h : l[j]? = some x) : (l ++ l')[j]? = some x := by
  rw [List.getElem?_append_left (List.getElem?_eq_some_iff.mp h).1, h]

namespace World

variable {w₀ w w' : World} {step : Step}

@[simp]
theorem history_remark (r : Remark) : (w.remark r).history = w.history :=
  (Alike.happen w rfl).history

@[simp]
theorem history_modifySession (i : Nat) (f : Session → Session) :
    (w.modifySession i f).history = w.history := rfl

@[simp]
theorem history_modifyController (i : Nat) (f : Controller → Controller) :
    (w.modifyController i f).history = w.history := rfl

@[simp]
theorem history_callSession (k : Nat) (c : SessionCall) :
    (w.callSession k c).history = w.history := rfl

@[simp]
theorem history_hold (b : Nat) (controller : Option Nat) :
    (w.hold b controller).history = w.history.hold (b + 1) controller.isSome :=
  history_happen (w.modifyBootstrap b _) _

theorem modifySession_eq_self {i : Nat} {f : Session → Session}
    (h : ∀ x, w.sessions[i]? = some x → f x = x) : w.modifySession i f = w := by
  rw [World.modifySession, modify_eq_self h]

theorem Alike.meanwhile (h : w.Alike w') : w.Meanwhile w' := by
  obtain ⟨es, htrace, _⟩ := h.trace
  refine ⟨.of_history_eq h.history ?_ ?_ h.sessionCalls ?_ ?_ ?_ ⟨es, htrace.symm⟩, by rw [h.history]⟩
  · intro i x hx
    exact ⟨x, h.sessions ▸ hx, .refl x, rfl⟩
  · intro k c hc
    exact ⟨c, h.controllers ▸ hc, .refl c⟩
  · rintro k i ⟨c, hc, hs⟩
    exact ⟨c, h.controllers ▸ hc, hs⟩
  · intro b
    rw [World.current, h.bootstraps, World.current]
  · rw [h.contexts, h.bootstraps]
    exact ⟨Nat.le_refl _, Nat.le_refl _⟩

theorem meanwhile_happen {e : Event} (h : ∀ hist : History, hist.next e = hist) :
    w.Meanwhile (w.happen e) := by
  have hh : (w.happen e).history = w.history := by rw [history_happen, h]
  exact ⟨.of_history_eq hh (fun _ x hx => ⟨x, hx, .refl x, rfl⟩) (fun _ c hc => ⟨c, hc, .refl c⟩)
    rfl (fun _ _ => id) (fun _ => rfl) ⟨Nat.le_refl _, Nat.le_refl _⟩ (List.prefix_append _ _),
    by rw [hh]⟩

/-- Contexts and disposables are of no account here. -/
theorem meanwhile_of_contexts (cs : List Context) (hc : w.contexts.length ≤ cs.length)
    (ds : List Disposable) (ns : List Nat) :
    w.Meanwhile { w with contexts := cs, disposables := ds, subscribed := ns } :=
  ⟨.of_history_eq rfl (fun _ x hx => ⟨x, hx, .refl x, rfl⟩) (fun _ c hc => ⟨c, hc, .refl c⟩)
    rfl (fun _ _ => id) (fun _ => rfl) ⟨hc, Nat.le_refl _⟩ List.prefix_rfl, rfl⟩

@[simp]
theorem current_addBootstrap (config : Config) (w : World) (b : Nat) :
    (addBootstrap ⟨config, none⟩ w).current b = w.current b := by
  simp only [World.current, addBootstrap, List.getElem?_append]
  split
  · rfl
  · rename_i hb
    rw [List.getElem?_eq_none (Nat.le_of_not_lt hb)]
    cases b - w.bootstraps.length with
    | zero => rfl
    | succ n => rfl

theorem meanwhile_addBootstrap (config : Config) : w.Meanwhile (addBootstrap ⟨config, none⟩ w) :=
  ⟨.of_history_eq rfl (fun _ x hx => ⟨x, hx, .refl x, rfl⟩) (fun _ c hc => ⟨c, hc, .refl c⟩)
    rfl (fun _ _ => id) (current_addBootstrap config w) ⟨Nat.le_refl _, by simp [addBootstrap]⟩
    List.prefix_rfl, rfl⟩

@[simp]
theorem holds_addController (n : Notifier) (w : World) (k i : Nat) :
    (addController ⟨n, none, .unstarted⟩ w).Holds k i ↔ w.Holds k i := by
  constructor
  · rintro ⟨c, hc, hs⟩
    refine ⟨c, ?_, hs⟩
    simp only [addController, List.getElem?_append] at hc
    split at hc
    · exact hc
    · have hmem := List.mem_of_getElem? hc
      rw [List.mem_singleton.mp hmem] at hs
      cases hs
  · rintro ⟨c, hc, hs⟩
    exact ⟨c, getElem?_append_of_some hc, hs⟩

theorem meanwhile_addController (n : Notifier) :
    w.Meanwhile (addController ⟨n, none, .unstarted⟩ w) :=
  ⟨.of_history_eq rfl (fun _ x hx => ⟨x, hx, .refl x, rfl⟩)
    (fun _ c hc => ⟨c, getElem?_append_of_some hc, .refl c⟩) rfl
    (fun _ _ => (holds_addController n w _ _).mp) (fun _ => rfl)
    ⟨Nat.le_refl _, Nat.le_refl _⟩ List.prefix_rfl, rfl⟩

theorem meanwhile_addSession (x : Session) : w.Meanwhile (addSession x w) :=
  ⟨.of_history_eq rfl (fun _ y hy => ⟨y, getElem?_append_of_some hy, .refl y, rfl⟩)
    (fun _ c hc => ⟨c, hc, .refl c⟩) rfl (fun _ _ => id) (fun _ => rfl)
    ⟨Nat.le_refl _, Nat.le_refl _⟩ List.prefix_rfl, rfl⟩

theorem meanwhile_modifySession (w : World) (i : Nat) {f : Session → Session}
    (hf : ∀ x, x.Evolves (f x) ∧ (f x).stopped = x.stopped) :
    w.Meanwhile (w.modifySession i f) := by
  refine ⟨.of_history_eq rfl (fun j x hx => ⟨_, getElem?_modify_of_some f hx, ?_⟩)
    (fun _ c hc => ⟨c, hc, .refl c⟩) rfl (fun _ _ => id) (fun _ => rfl)
    ⟨Nat.le_refl _, Nat.le_refl _⟩ List.prefix_rfl, rfl⟩
  split
  · exact hf x
  · exact ⟨.refl x, rfl⟩

theorem meanwhile_stopController {k : Nat} {c : Controller} (hc : w.controllers[k]? = some c)
    (hr : c.state = .running) :
    w.Meanwhile (w.modifyController k fun c => { c with session := none, state := .stopped }) := by
  refine ⟨.of_history_eq rfl (fun _ x hx => ⟨x, hx, .refl x, rfl⟩) ?_ rfl ?_ (fun _ => rfl)
    ⟨Nat.le_refl _, Nat.le_refl _⟩ List.prefix_rfl, rfl⟩
  · intro j x hx
    refine ⟨_, getElem?_modify_of_some _ hx, ?_⟩
    split
    · rename_i hkj
      subst hkj
      rw [hc, Option.some.injEq] at hx
      exact .inr (.inr ⟨hx ▸ hr, rfl, rfl⟩)
    · exact .refl x
  · rintro j i ⟨x, hx, hs⟩
    obtain ⟨y, hy, ⟨_, rfl⟩ | ⟨_, rfl⟩⟩ := getElem?_modify_cases hx
    · cases hs
    · exact ⟨x, hy, hs⟩

/-- A controller may call a session unless it was starting or had failed before. -/
theorem Evolves.callSession (h : w₀.Evolves w) {k : Nat}
    (hk : ∀ c, w₀.controllers[k]? = some c → c.state ≠ .starting ∧ c.state ≠ .failed)
    (call : SessionCall) : w₀.Evolves (w.callSession k call) := by
  refine ⟨h.history, h.sessions, h.controllers, fun j c hc hs => ?_, h.contexts, h.bootstraps,
    h.trace, h.fresh, h.current, fun i hsp hm => ?_⟩
  · have hne : k ≠ j := by
      rintro rfl
      obtain ⟨hstarting, hfailed⟩ := hk c hc
      exact hs.elim hstarting hfailed
    rw [← h.calls j c hc hs, callsBy_callSession, if_neg hne]
  · obtain ⟨hsp', hsame⟩ := h.spared i hsp hm
    exact ⟨⟨hsp'.started, hsp'.made, hsp'.unheld⟩, hsame⟩

theorem meanwhile_callSession {k : Nat}
    (hk : ∀ c, w.controllers[k]? = some c → c.state ≠ .starting ∧ c.state ≠ .failed)
    (call : SessionCall) : w.Meanwhile (w.callSession k call) :=
  ⟨(Evolves.refl w).callSession hk call, rfl⟩

namespace Inside

theorem begin (w : World) (step : Step) : w.Inside step (w.happen (.began step)) := by
  have hin : History.Within w.history step (w.happen (.began step)).history := by
    rw [history_happen]
    exact History.within_begin _ _
  refine ⟨⟨hin.evolves, fun i x hx => ⟨x, hx, .refl x⟩, fun k c hc => ⟨c, hc, .refl c⟩,
    fun _ _ _ _ => rfl, Nat.le_refl _, Nat.le_refl _, List.prefix_append _ _, ?_, ?_, ?_⟩, hin⟩
  · intro n a i hn ha hs
    rw [history_happen] at ha
    obtain ⟨b, c, _, _, rfl⟩ := History.eq_of_getElem?_begin hn ha
    cases hs
  · intro n a a' ha _ hc _ ha'
    rw [history_happen, History.next, History.getElem?_begin step ha, Option.some.injEq] at ha'
    exact .inr ⟨ha' ▸ hc, rfl⟩
  · intro i hsp _
    refine ⟨⟨hsp.started, hin.evolves.made hsp.made, hsp.unheld⟩, fun x y hx hy => ?_⟩
    rw [show (w.happen (.began step)).sessions = w.sessions from rfl, hx,
      Option.some.injEq] at hy
    rw [hy]

/-- An event after which activations differ in nothing but their answers, and in sessions that are
new. -/
theorem evolves_happen (h : w₀.Evolves w) (e : Event)
    (hh : w₀.history.Evolves (w.history.next e))
    (hm : (w.history.next e).meddled = w.history.meddled)
    (hact : ∀ (n : Nat) (a' : Activation), (w.history.next e).activations[n]? = some a' →
      ∃ a, w.history.activations[n]? = some a ∧ a'.hold = a.hold ∧
        ∀ i, a'.session = some i → a.session = some i ∨ w₀.sessions.length ≤ i) :
    w₀.Evolves (w.happen e) := by
  rw [← history_happen] at hh hm hact
  refine ⟨hh, h.sessions, h.controllers, h.calls, h.contexts, h.bootstraps,
    h.trace.trans (List.prefix_append _ _), ?_, ?_, ?_⟩
  · intro n a' i hn ha' hi
    obtain ⟨a, ha, _, hs⟩ := hact n a' ha'
    rcases hs i hi with hs | hs
    · exact h.fresh n a i hn ha hs
    · exact hs
  · intro n a a'' ha hopen hc hb ha''
    obtain ⟨a', ha', hsame, _⟩ := hact n a'' ha''
    rw [hsame]
    exact h.current n a a' ha hopen hc hb ha'
  · intro i hsp hmed
    obtain ⟨hsp', hsame⟩ := h.spared i hsp (hm ▸ hmed)
    exact ⟨⟨hsp'.started, hh.made hsp.made, hsp'.unheld⟩, hsame⟩

theorem finish (h : w₀.Inside step w) (answer : Answer) :
    w₀.Meanwhile (w.happen (.ended answer)) := by
  obtain ⟨hh, hu⟩ := h.within.finish answer
  refine ⟨evolves_happen h.evolves _ hh ?_ ?_, by rw [history_happen]; exact hu⟩
  · change (w.history.finish answer).meddled = _
    unfold History.finish
    split <;> rfl
  · intro n a' ha'
    change (w.history.finish answer).activations[n]? = some a' at ha'
    unfold History.finish at ha'
    split at ha'
    · exact ⟨a', ha', rfl, fun i hi => .inl hi⟩
    · obtain ⟨a, ha, ⟨_, rfl⟩ | ⟨_, rfl⟩⟩ := getElem?_modify_cases ha'
      · exact ⟨a, ha, rfl, fun i hi => .inl hi⟩
      · exact ⟨a', ha, rfl, fun i hi => .inl hi⟩
    · exact ⟨a', ha', rfl, fun i hi => .inl hi⟩
    · exact ⟨a', ha', rfl, fun i hi => .inl hi⟩

theorem make (h : w₀.Inside step w) {i : Nat} (hi : w₀.sessions.length ≤ i) :
    w₀.Inside step (w.happen (.madeClient i)) := by
  have hw := h.within.make i
  refine ⟨evolves_happen h.evolves _ hw.evolves ?_ ?_, by rw [history_happen]; exact hw⟩
  · change (w.history.make i).meddled = _
    unfold History.make
    split <;> rfl
  · intro n a' ha'
    change (w.history.make i).activations[n]? = some a' at ha'
    unfold History.make at ha'
    split at ha'
    · obtain ⟨a, ha, ⟨_, rfl⟩ | ⟨_, rfl⟩⟩ := getElem?_modify_cases ha'
      · refine ⟨a, ha, rfl, fun j hj => .inr ?_⟩
        rw [← Option.some.inj hj]
        exact hi
      · exact ⟨a', ha, rfl, fun j hj => .inl hj⟩
    · exact ⟨a', ha', rfl, fun j hj => .inl hj⟩

/-- A session that is not spared may move on. -/
theorem changeSession (h : w₀.Inside step w) {i : Nat} {f : Session → Session}
    (hf : ∀ x y, w₀.sessions[i]? = some x → x.Evolves y → x.Evolves (f y))
    (hi : w₀.Spared i → w.history.meddled = true) : w₀.Inside step (w.modifySession i f) := by
  refine ⟨⟨h.evolves.history, ?_, h.evolves.controllers, h.evolves.calls, h.evolves.contexts,
    h.evolves.bootstraps, h.evolves.trace, h.evolves.fresh, h.evolves.current, ?_⟩, h.within⟩
  · intro j x hx
    obtain ⟨y, hy, hxy⟩ := h.evolves.sessions j x hx
    refine ⟨_, getElem?_modify_of_some f hy, ?_⟩
    split
    · rename_i hij
      subst hij
      exact hf x y hx hxy
    · exact hxy
  · intro j hsp hm
    obtain ⟨⟨⟨y, hy, hstart⟩, hmade, hheld⟩, hsame⟩ := h.evolves.spared j hsp hm
    have hne : i ≠ j := by
      rintro rfl
      rw [history_modifySession, hi hsp] at hm
      cases hm
    have hget : (w.modifySession i f).sessions[j]? = w.sessions[j]? := by
      simp [World.modifySession, hne]
    refine ⟨⟨⟨y, hget ▸ hy, hstart⟩, hmade, hheld⟩, fun x y hx hy => ?_⟩
    exact hsame x y hx (hget ▸ hy)

/-- A session that is new to the step, or that the step starts, may be changed in any way. -/
theorem modifySession (h : w₀.Inside step w) {i : Nat} {f : Session → Session}
    (hi : ∀ x, w₀.sessions[i]? = some x → x.started = false)
    (hf : ∀ x, (f x).slug = x.slug ∧ (f x).name = x.name ∧
      (x.started = true → (f x).started = true) ∧ (x.stopped = true → (f x).stopped = true)) :
    w₀.Inside step (w.modifySession i f) := by
  refine h.changeSession (fun x y hx hxy => ?_) fun hsp => ?_
  · obtain ⟨hslug, hname, hstart, hstop⟩ := hf y
    exact ⟨hslug.trans hxy.slug, hname.trans hxy.name, fun hs => hstart (hxy.started hs),
      fun hs => (by rw [hi x hx] at hs; cases hs), fun hs => hstop (hxy.stopped hs)⟩
  · obtain ⟨x, hx, hstart⟩ := hsp.started
    rw [hi x hx] at hstart
    cases hstart

theorem stopSession (h : w₀.Inside step w) {i : Nat}
    (hi : w₀.Spared i → w.history.meddled = true) :
    w₀.Inside step (w.modifySession i fun s => { s with stopped := true }) :=
  h.changeSession (fun _ _ _ hxy => ⟨hxy.slug, hxy.name, hxy.started, hxy.initialized, fun _ => rfl⟩) hi

/-- A controller that is new to the step, or that the step starts, may be changed in any way, but
not be given a session that is spared. -/
theorem modifyController (h : w₀.Inside step w) {k : Nat} {f : Controller → Controller}
    (hk : ∀ c, w₀.controllers[k]? = some c → c.state = .unstarted)
    (hf : ∀ c i, (f c).session = some i →
      c.session = some i ∨ (w₀.Spared i → w.history.meddled = true)) :
    w₀.Inside step (w.modifyController k f) := by
  refine ⟨⟨h.evolves.history, h.evolves.sessions, ?_, h.evolves.calls, h.evolves.contexts,
    h.evolves.bootstraps, h.evolves.trace, h.evolves.fresh, h.evolves.current, ?_⟩, h.within⟩
  · intro j c hc
    obtain ⟨c', hc', hcc⟩ := h.evolves.controllers j c hc
    refine ⟨_, getElem?_modify_of_some f hc', ?_⟩
    split
    · rename_i hkj
      subst hkj
      exact .inl (hk c hc)
    · exact hcc
  · intro i hsp hm
    obtain ⟨⟨hstart, hmade, hheld⟩, hsame⟩ := h.evolves.spared i hsp hm
    refine ⟨⟨hstart, hmade, ?_⟩, hsame⟩
    rintro j ⟨c', hc', hs⟩
    obtain ⟨c, hc, ⟨_, rfl⟩ | ⟨_, rfl⟩⟩ := getElem?_modify_cases hc'
    · rcases hf c i hs with hs | hmed
      · exact hheld j ⟨c, hc, hs⟩
      · rw [history_modifyController, hmed hsp] at hm
        cases hm
    · exact hheld j ⟨c', hc, hs⟩

theorem callSession (h : w₀.Inside step w) {k : Nat}
    (hk : ∀ c, w₀.controllers[k]? = some c → c.state ≠ .starting ∧ c.state ≠ .failed)
    (call : SessionCall) : w₀.Inside step (w.callSession k call) :=
  ⟨h.evolves.callSession hk call, h.within⟩

/-- When a bootstrap changes its controller, the activation of it that is under way loses its own. -/
theorem hold (h : w₀.Inside step w) (b : Nat) (controller : Option Nat) :
    w₀.Inside step (w.hold b controller) := by
  have hin := h.within.hold (b + 1) controller.isSome
  rw [← history_hold] at hin
  refine ⟨⟨hin.evolves, h.evolves.sessions, h.evolves.controllers, h.evolves.calls, h.evolves.contexts, ?_,
    h.evolves.trace.trans (List.prefix_append _ _), ?_, ?_, ?_⟩, hin⟩
  · simpa [World.hold, World.happen, World.modifyBootstrap] using h.evolves.bootstraps
  · intro n a i hn ha hi
    rw [history_hold, History.getElem?_hold] at ha
    obtain ⟨a₀, ha₀, rfl⟩ := Option.map_eq_some_iff.mp ha
    obtain ⟨hold, he⟩ := w.history.rehold_eq (b + 1) controller.isSome n a₀
    rw [he] at hi
    exact h.evolves.fresh n a₀ i hn ha₀ hi
  · intro n a a'' ha hopen hc hpos ha''
    rw [history_hold, History.getElem?_hold] at ha''
    obtain ⟨a', ha', rfl⟩ := Option.map_eq_some_iff.mp ha''
    have hinner := h.within.innermost?_ne (List.getElem?_eq_some_iff.mp ha).1
    have hev := h.evolves.history.activation ha ha'
    rcases h.evolves.current n a a' ha hopen hc hpos ha' with hl | ⟨hc', hsame⟩
    · exact .inl ((History.rehold_evolves (fun _ => hinner) _ a').lost hl)
    · by_cases hb : a'.bootstrap = b + 1
      · rw [← hb]
        exact .inl (History.rehold_lost hinner (hev.answer.trans hopen) hc' _)
      · rw [History.rehold_of_ne (fun _ => hinner) hb]
        refine .inr ⟨hc', ?_⟩
        rw [hev.bootstrap] at hb
        have hne : b ≠ a.bootstrap.toNat - 1 := by omega
        rw [← hsame]
        simp [World.current, World.hold, World.happen, World.modifyBootstrap, hne]
  · intro i hsp hm
    rw [history_hold] at hm
    obtain ⟨hsp', hsame⟩ := h.evolves.spared i hsp hm
    exact ⟨⟨hsp'.started, hin.evolves.made hsp.made, hsp'.unheld⟩, hsame⟩

end Inside

end World

end EditorClient
