import EditorClient.Proofs.Passage
import EditorClient.Setting

/-! Two procedures side by side, each in a setting of its own. What the settings have in common is
what neither procedure disturbs, whatever else sets them apart, as long as neither comes to a world that
is out of bounds. -/

namespace EditorClient

/-- The same fault, or values that belong together. -/
inductive Corresponds {α β : Type} (rel : α → β → Prop) : Except Fault α → Except Fault β → Prop
  | ok {a : α} {b : β} (h : rel a b) : Corresponds rel (.ok a) (.ok b)
  | error (f : Fault) : Corresponds rel (.error f) (.error f)

theorem Corresponds.mono {α β : Type} {rel rel' : α → β → Prop} {r : Except Fault α}
    {r' : Except Fault β} (h : Corresponds rel r r') (hrel : ∀ a b, rel a b → rel' a b) :
    Corresponds rel' r r' := by
  cases h with
  | ok hab => exact .ok (hrel _ _ hab)
  | error f => exact .error f

theorem corresponds_eq {α : Type} {r r' : Except Fault α} : Corresponds Eq r r' ↔ r = r' := by
  constructor
  · rintro (rfl | f)
    · rfl
    · rfl
  · rintro rfl
    cases r with
    | ok a => exact .ok rfl
    | error f => exact .error f

namespace Procedure

variable {α β γ δ : Type} {respond : Call → Setting → Except Fault Reply × Setting}
  {bounds : World → Prop} {alike : Setting → Setting → Prop} {rel : α → β → Prop}
  {rel' : γ → δ → Prop}

/-- No world that a procedure comes to is out of bounds. -/
def Stays (respond : Call → Setting → Except Fault Reply × Setting) (bounds : World → Prop) :
    Procedure α → Setting → Prop
  | done _, _ => True
  | fail _, _ => True
  | read next, s => (next s.world).Stays respond bounds s
  | update f next, s =>
    bounds (f s.world) ∧ next.Stays respond bounds { s with world := f s.world }
  | call c next, s =>
    let r := respond c s
    bounds r.2.world ∧ (next r.1).Stays respond bounds r.2

theorem stays_of_forall (h : ∀ w, bounds w) (p : Procedure α) (s : Setting) :
    p.Stays respond bounds s := by
  induction p generalizing s with
  | done a => trivial
  | fail f => trivial
  | read next ih => exact ih s.world s
  | update f next ih => exact ⟨h _, ih _⟩
  | call c next ih => exact ⟨h _, ih _ _⟩

theorem stays_bind {p : Procedure α} {k : α → Procedure γ} {s : Setting}
    (h : (p >>= k).Stays respond bounds s) :
    p.Stays respond bounds s ∧ ∀ a, (p.run respond s).1 = .ok a →
      (k a).Stays respond bounds (p.run respond s).2 := by
  change (p.bind k).Stays respond bounds s at h
  induction p generalizing s with
  | done a =>
    refine ⟨trivial, fun b hb => ?_⟩
    rw [← Except.ok.inj hb]
    exact h
  | fail f => exact ⟨trivial, nofun⟩
  | read next ih => exact ih s.world h
  | update f next ih => exact ⟨⟨h.1, (ih h.2).1⟩, (ih h.2).2⟩
  | call c next ih => exact ⟨⟨h.1, (ih _ h.2).1⟩, (ih _ h.2).2⟩

theorem stays_recover {p : Procedure α} {handler : Fault → Procedure α} {s : Setting}
    (h : (p.recover handler).Stays respond bounds s) :
    p.Stays respond bounds s ∧ ∀ f, (p.run respond s).1 = .error f →
      (handler f).Stays respond bounds (p.run respond s).2 := by
  induction p generalizing s with
  | done a => exact ⟨trivial, nofun⟩
  | fail f =>
    refine ⟨trivial, fun g hg => ?_⟩
    rw [← Except.error.inj hg]
    exact h
  | read next ih => exact ih s.world h
  | update f next ih => exact ⟨⟨h.1, (ih h.2).1⟩, (ih h.2).2⟩
  | call c next ih => exact ⟨⟨h.1, (ih _ h.2).1⟩, (ih _ h.2).2⟩

/-- From settings that are alike the procedures come to results that belong together, and the
settings that they leave are alike, if both stay in bounds. -/
def Parallel (respond : Call → Setting → Except Fault Reply × Setting) (bounds : World → Prop)
    (alike : Setting → Setting → Prop) (rel : α → β → Prop) (p : Procedure α) (q : Procedure β) :
    Prop :=
  ∀ s t, alike s t → p.Stays respond bounds s → q.Stays respond bounds t →
    Corresponds rel (p.run respond s).1 (q.run respond t).1 ∧
      alike (p.run respond s).2 (q.run respond t).2

/-- A procedure that takes no notice of what sets two settings apart. -/
abbrev Blind (respond : Call → Setting → Except Fault Reply × Setting) (bounds : World → Prop)
    (alike : Setting → Setting → Prop) (p : Procedure α) : Prop :=
  Parallel respond bounds alike Eq p p

/-- Where nothing is out of bounds, the procedures are parallel from all settings that are alike. -/
theorem Parallel.unbounded {p : Procedure α} {q : Procedure β}
    (hp : Parallel respond bounds alike rel p q) (h : ∀ w, bounds w) {s t : Setting}
    (hst : alike s t) :
    Corresponds rel (p.run respond s).1 (q.run respond t).1 ∧
      alike (p.run respond s).2 (q.run respond t).2 :=
  hp s t hst (stays_of_forall h p s) (stays_of_forall h q t)

theorem Parallel.mono {p : Procedure α} {q : Procedure β} {rel' : α → β → Prop}
    (hp : Parallel respond bounds alike rel p q) (h : ∀ a b, rel a b → rel' a b) :
    Parallel respond bounds alike rel' p q := by
  intro s t hst hs ht
  obtain ⟨hr, halike⟩ := hp s t hst hs ht
  exact ⟨hr.mono h, halike⟩

theorem Parallel.bind {p : Procedure α} {q : Procedure β} {k : α → Procedure γ}
    {l : β → Procedure δ} (hp : Parallel respond bounds alike rel p q)
    (hk : ∀ a b, rel a b → Parallel respond bounds alike rel' (k a) (l b)) :
    Parallel respond bounds alike rel' (p >>= k) (q >>= l) := by
  intro s t hst hs ht
  obtain ⟨hs, hks⟩ := stays_bind hs
  obtain ⟨ht, hkt⟩ := stays_bind ht
  obtain ⟨hr, halike⟩ := hp s t hst hs ht
  rw [run_bind, run_bind]
  generalize p.run respond s = x at hr halike hks
  generalize q.run respond t = y at hr halike hkt
  obtain ⟨r, s'⟩ := x
  obtain ⟨r', t'⟩ := y
  cases hr with
  | ok h => exact hk _ _ h s' t' halike (hks _ rfl) (hkt _ rfl)
  | error f => exact ⟨.error f, halike⟩

theorem Parallel.recover {p : Procedure α} {q : Procedure β} {h : Fault → Procedure α}
    {h' : Fault → Procedure β} (hp : Parallel respond bounds alike rel p q)
    (hh : ∀ f, Parallel respond bounds alike rel (h f) (h' f)) :
    Parallel respond bounds alike rel (p.recover h) (q.recover h') := by
  intro s t hst hs ht
  obtain ⟨hs, hhs⟩ := stays_recover hs
  obtain ⟨ht, hht⟩ := stays_recover ht
  obtain ⟨hr, halike⟩ := hp s t hst hs ht
  rw [run_recover, run_recover]
  generalize p.run respond s = x at hr halike hhs
  generalize q.run respond t = y at hr halike hht
  obtain ⟨r, s'⟩ := x
  obtain ⟨r', t'⟩ := y
  cases hr with
  | ok h => exact ⟨.ok h, halike⟩
  | error f => exact hh f s' t' halike (hhs f rfl) (hht f rfl)

theorem parallel_pure {a : α} {b : β} (h : rel a b) :
    Parallel respond bounds alike rel (pure a) (pure b) := fun _ _ hst _ _ => ⟨.ok h, hst⟩

theorem parallel_throw (f : Fault) : Parallel respond bounds alike rel (throw f) (throw f) :=
  fun _ _ hst _ _ => ⟨.error f, hst⟩

theorem parallel_ask {f : World → α} {g : World → β}
    (h : ∀ s t, alike s t → rel (f s.world) (g t.world)) :
    Parallel respond bounds alike rel (ask f) (ask g) := fun s t hst _ _ => ⟨.ok (h s t hst), hst⟩

theorem parallel_find {sort : ObjectSort} {objects : World → List α} {objects' : World → List β}
    {i : Nat} (h : ∀ s t, alike s t → Option.Rel rel (objects s.world)[i]? (objects' t.world)[i]?) :
    Parallel respond bounds alike rel (find sort objects i) (find sort objects' i) := by
  intro s t hst _ _
  have hi := h s t hst
  simp only [find, run]
  generalize (objects s.world)[i]? = x at hi
  generalize (objects' t.world)[i]? = y at hi
  cases hi with
  | some hab => exact ⟨.ok hab, hst⟩
  | none => exact ⟨.error _, hst⟩

theorem parallel_change {f g : World → World}
    (h : ∀ s t, alike s t → alike { s with world := f s.world } { t with world := g t.world }) :
    Parallel respond bounds alike Eq (change f) (change g) := fun s t hst _ _ => ⟨.ok rfl, h s t hst⟩

theorem run_request (c : Call) (s : Setting) : (request c).run respond s = respond c s := by
  simp only [request, run]
  obtain ⟨r, s'⟩ := respond c s
  cases r with
  | ok reply => rfl
  | error f => rfl

theorem run_find {sort : ObjectSort} {objects : World → List α} {i : Nat} {s : Setting} {a : α}
    (h : (objects s.world)[i]? = some a) : (find sort objects i).run respond s = (.ok a, s) := by
  simp only [find, run, h]

theorem run_index {sort : ObjectSort} {objects : World → List α} {i : Nat} {s : Setting}
    (h : i < (objects s.world).length) :
    (index sort objects (i + 1)).run respond s = (.ok i, s) := by
  have hi : (1 : Int) ≤ i + 1 ∧ ((i : Int) + 1) ≤ (objects s.world).length := by omega
  simp only [index, run, objectIndex, if_pos hi]
  exact congrArg (fun j => (Except.ok j, s)) (by omega)

theorem run_bind_pure (p : Procedure α) (g : α → γ) (s : Setting) :
    (p >>= fun a => pure (g a)).run respond s =
      ((p.run respond s).1.map g, (p.run respond s).2) := by
  rw [run_bind]
  obtain ⟨r, t⟩ := p.run respond s
  cases r with
  | ok a => rfl
  | error f => rfl

theorem parallel_request {c c' : Call} (h : ∀ s t, alike s t → bounds (respond c s).2.world →
      bounds (respond c' t).2.world →
        (respond c s).1 = (respond c' t).1 ∧ alike (respond c s).2 (respond c' t).2) :
    Parallel respond bounds alike Eq (request c) (request c') := by
  intro s t hst hs ht
  rw [run_request, run_request, corresponds_eq]
  exact h s t hst hs.1 ht.1

theorem blind_ofExcept (r : Except Fault α) : Blind respond bounds alike (ofExcept r) := by
  cases r with
  | ok a => exact parallel_pure rfl
  | error f => exact parallel_throw f

/-- The number by which a step names an object is one more than its index. -/
theorem parallel_index {sort : ObjectSort} {objects : World → List α} (number : Int)
    (h : ∀ s t, alike s t → (objects s.world).length = (objects t.world).length) :
    Parallel respond bounds alike (fun i j : Nat => i = j ∧ number = i + 1) (index sort objects number)
      (index sort objects number) := by
  intro s t hst _ _
  simp only [index, run, ← h s t hst, objectIndex]
  split
  · exact ⟨.ok ⟨rfl, by omega⟩, hst⟩
  · exact ⟨.error _, hst⟩

theorem blind_index {sort : ObjectSort} {objects : World → List α} (number : Int)
    (h : ∀ s t, alike s t → (objects s.world).length = (objects t.world).length) :
    Blind respond bounds alike (index sort objects number) :=
  (parallel_index number h).mono fun _ _ hij => hij.1

theorem Parallel.recoverIf {p : Procedure α} {q : Procedure β} {h : Fault → Procedure α}
    {h' : Fault → Procedure β} {stops : Fault → Bool} (hp : Parallel respond bounds alike rel p q)
    (hh : ∀ f, Parallel respond bounds alike rel (h f) (h' f)) :
    Parallel respond bounds alike rel (p.recover fun f => if stops f then h f else fail f)
      (q.recover fun f => if stops f then h' f else fail f) := by
  refine hp.recover fun f => ?_
  split
  · exact hh f
  · exact parallel_throw f

/-- In a sequence of which both sides are the same, the second parts get the same value. -/
theorem Parallel.bind_eq {p q : Procedure α} {k : α → Procedure γ} {l : α → Procedure δ}
    (hp : Parallel respond bounds alike Eq p q) (hk : ∀ a, Parallel respond bounds alike rel' (k a) (l a)) :
    Parallel respond bounds alike rel' (p >>= k) (q >>= l) :=
  hp.bind fun a _ h => h ▸ hk a

theorem blind_compositional (respond : Call → Setting → Except Fault Reply × Setting)
    (bounds : World → Prop) (alike : Setting → Setting → Prop) :
    Compositional fun p => Blind respond bounds alike p where
  bind := fun hp hk => hp.bind_eq hk
  recoverOrdinary := fun hp hh => hp.recoverIf hh
  recoverOs := fun hp hh => hp.recoverIf hh

end Procedure

end EditorClient
