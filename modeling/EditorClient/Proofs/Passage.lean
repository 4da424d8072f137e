import EditorClient.Procedure

/-! Following a procedure through states of any sort that have a world. What comes of a call is left
to the sort of states, so that sequences, handlers and the small procedures are dealt with once. -/

namespace EditorClient

/-- How to go on from a state: an update leads to one other state, a call to whatever comes of it. -/
structure Passage (σ : Type) where
  world : σ → World
  update : (World → World) → σ → σ
  call : Call → σ → (Except Fault Reply → σ → Prop) → Prop
  mono : ∀ {c s} {post post' : Except Fault Reply → σ → Prop},
    (∀ r s', post r s' → post' r s') → call c s post → call c s post'

namespace Procedure

variable {α β σ : Type}

/-- Wherever a procedure ends, it has a result and leaves a state such as this. -/
def Leads (way : Passage σ) : Procedure α → σ → (Except Fault α → σ → Prop) → Prop
  | done a, s, post => post (.ok a) s
  | fail f, s, post => post (.error f) s
  | read next, s, post => (next (way.world s)).Leads way s post
  | update f next, s, post => next.Leads way (way.update f s) post
  | call c next, s, post => way.call c s fun r s' => (next r).Leads way s' post

/-- What holds after a sequence, said of its first part. -/
def onOk (next : α → σ → Prop) (post : Except Fault β → σ → Prop) : Except Fault α → σ → Prop
  | .ok a, s => next a s
  | .error f, s => post (.error f) s

/-- What holds after a handler, said of the procedure that it is for. -/
def onError (post : Except Fault α → σ → Prop) (handler : Fault → σ → Prop) :
    Except Fault α → σ → Prop
  | .ok a, s => post (.ok a) s
  | .error f, s => handler f s

variable {way : Passage σ} {s : σ}

theorem Leads.mono {p : Procedure α} {post post' : Except Fault α → σ → Prop}
    (h : p.Leads way s post) (hp : ∀ r s', post r s' → post' r s') : p.Leads way s post' := by
  induction p generalizing s with
  | done a => exact hp _ _ h
  | fail f => exact hp _ _ h
  | read next ih => exact ih _ h
  | update f next ih => exact ih h
  | call c next ih => exact way.mono (fun r s' hr => ih r hr) h

theorem leads_bind (p : Procedure α) (k : α → Procedure β) (post : Except Fault β → σ → Prop) :
    (p >>= k).Leads way s post ↔
      p.Leads way s (onOk (fun a s' => (k a).Leads way s' post) post) := by
  change (p.bind k).Leads way s post ↔ _
  induction p generalizing s with
  | done a => rfl
  | fail f => rfl
  | read next ih => exact ih _
  | update f next ih => exact ih
  | call c next ih =>
    exact ⟨way.mono fun r _ => (ih r).mp, way.mono fun r _ => (ih r).mpr⟩

theorem leads_recover (p : Procedure α) (h : Fault → Procedure α)
    (post : Except Fault α → σ → Prop) :
    (p.recover h).Leads way s post ↔
      p.Leads way s (onError post fun f s' => (h f).Leads way s' post) := by
  induction p generalizing s with
  | done a => rfl
  | fail f => rfl
  | read next ih => exact ih _
  | update f next ih => exact ih
  | call c next ih =>
    exact ⟨way.mono fun r _ => (ih r).mp, way.mono fun r _ => (ih r).mpr⟩

section Rules

variable {post : Except Fault α → σ → Prop}

theorem leads_pure (a : α) : (pure a : Procedure α).Leads way s post ↔ post (.ok a) s := Iff.rfl

theorem leads_throw (f : Fault) :
    (throw f : Procedure α).Leads way s post ↔ post (.error f) s := Iff.rfl

theorem leads_ask (f : World → α) :
    (ask f).Leads way s post ↔ post (.ok (f (way.world s))) s := Iff.rfl

theorem leads_change (f : World → World) (post : Except Fault Unit → σ → Prop) :
    (change f).Leads way s post ↔ post (.ok ()) (way.update f s) := Iff.rfl

theorem leads_remark (r : Remark) (post : Except Fault Unit → σ → Prop) :
    (remark r).Leads way s post ↔ post (.ok ()) (way.update (·.remark r) s) := Iff.rfl

theorem leads_happen (e : Event) (post : Except Fault Unit → σ → Prop) :
    (happen e).Leads way s post ↔ post (.ok ()) (way.update (·.happen e) s) := Iff.rfl

theorem leads_post (p : Posting) (post : Except Fault Unit → σ → Prop) :
    (Procedure.post p).Leads way s post ↔
      (∀ f, (way.world s).refusal? p.record = some f →
          post (.error f) (way.update (·.happen (.refused p)) s)) ∧
        ((way.world s).refusal? p.record = none → post (.ok ()) (way.update (·.post p) s)) := by
  unfold Procedure.post Leads
  dsimp only
  cases (way.world s).refusal? p.record with
  | some f => simp [Leads]
  | none => simp [leads_change]

theorem leads_request (c : Call) (post : Except Fault Reply → σ → Prop) :
    (request c).Leads way s post ↔ way.call c s post := by
  refine ⟨way.mono fun r s' h => ?_, way.mono fun r s' h => ?_⟩
  · cases r with
    | ok reply => exact h
    | error f => exact h
  · cases r with
    | ok reply => exact h
    | error f => exact h

theorem leads_ofExcept (r : Except Fault α) : (ofExcept r).Leads way s post ↔ post r s := by
  cases r <;> rfl

theorem leads_find (sort : ObjectSort) (objects : World → List α) (i : Nat) :
    (find sort objects i).Leads way s post ↔
      (∀ a, (objects (way.world s))[i]? = some a → post (.ok a) s) ∧
        ((objects (way.world s))[i]? = none → post (.error (.missing sort (i + 1))) s) := by
  unfold find Leads
  dsimp only
  cases (objects (way.world s))[i]? with
  | some a => simp [Leads]
  | none => simp [Leads]

theorem leads_find_bind {sort : ObjectSort} {objects : World → List β} {i : Nat}
    {k : β → Procedure α} {b : β} (h : (objects (way.world s))[i]? = some b) :
    (find sort objects i >>= k).Leads way s post ↔ (k b).Leads way s post := by
  rw [leads_bind, leads_find]
  refine ⟨fun hk => hk.1 b h, fun hk => ⟨fun c hc => ?_, fun hn => ?_⟩⟩
  · rw [h, Option.some.injEq] at hc
    exact hc ▸ hk
  · rw [h] at hn
    cases hn

/-- The number by which a step names an object is one more than its index. -/
theorem leads_index (sort : ObjectSort) (objects : World → List α) (number : Int)
    (post : Except Fault Nat → σ → Prop) :
    (index sort objects number).Leads way s post ↔
      (∀ i : Nat, number = i + 1 → i < (objects (way.world s)).length → post (.ok i) s) ∧
        (¬(1 ≤ number ∧ number ≤ (objects (way.world s)).length) →
          post (.error (.missing sort number)) s) := by
  change (ofExcept (objectIndex sort (objects (way.world s)).length number)).Leads way s post ↔ _
  rw [leads_ofExcept]
  unfold objectIndex
  split
  · rename_i hn
    refine ⟨fun h => ⟨fun i hi _ => ?_, fun hn' => absurd hn hn'⟩, fun h => h.1 _ ?_ ?_⟩
    · have he : number.toNat - 1 = i := by omega
      exact he ▸ h
    · omega
    · omega
  · rename_i hn
    refine ⟨fun h => ⟨fun i hi hlt => absurd ?_ hn, fun _ => h⟩, fun h => h.2 hn⟩
    omega

theorem leads_ite (c : Prop) [Decidable c] (p q : Procedure α) :
    (if c then p else q).Leads way s post ↔
      (c → p.Leads way s post) ∧ (¬c → q.Leads way s post) := by
  by_cases h : c <;> simp [h]

theorem leads_recoverOrdinary (p : Procedure α) (h : Fault → Procedure α) :
    (p.recoverOrdinary h).Leads way s post ↔
      p.Leads way s (onError post fun f s' =>
        (f.isOrdinary = true → (h f).Leads way s' post) ∧
          (f.isOrdinary = false → post (.error f) s')) := by
  simp only [recoverOrdinary, leads_recover, leads_ite, Bool.not_eq_true]
  rfl

theorem leads_recoverOs (p : Procedure α) (h : Fault → Procedure α) :
    (p.recoverOs h).Leads way s post ↔
      p.Leads way s (onError post fun f s' =>
        (f.isOs = true → (h f).Leads way s' post) ∧
          (f.isOs = false → post (.error f) s')) := by
  simp only [recoverOs, leads_recover, leads_ite, Bool.not_eq_true]
  rfl

end Rules

/-- A property of procedures that goes through sequences and handlers. -/
structure Compositional (good : ∀ {α : Type}, Procedure α → Prop) : Prop where
  bind : ∀ {α β : Type} {p : Procedure α} {k : α → Procedure β}, good p → (∀ a, good (k a)) →
    good (p >>= k)
  recoverOrdinary : ∀ {α : Type} {p : Procedure α} {h : Fault → Procedure α}, good p →
    (∀ f, good (h f)) → good (p.recoverOrdinary h)
  recoverOs : ∀ {α : Type} {p : Procedure α} {h : Fault → Procedure α}, good p →
    (∀ f, good (h f)) → good (p.recoverOs h)

/-- What holds before a procedure holds after it, however it ends. -/
def Maintains (way : Passage σ) (P : σ → Prop) (p : Procedure α) : Prop :=
  ∀ s, P s → p.Leads way s fun _ s' => P s'

section Maintains

variable {way : Passage σ} {P : σ → Prop} {p : Procedure α} {s : σ}

theorem Leads.bind_maintains {k : α → Procedure β} (hp : p.Leads way s fun _ s' => P s')
    (hk : ∀ a, (k a).Maintains way P) : (p >>= k).Leads way s fun _ s' => P s' := by
  rw [leads_bind]
  refine hp.mono fun r s' hs' => ?_
  cases r with
  | ok a => exact hk a s' hs'
  | error f => exact hs'

theorem Leads.recoverOrdinary_maintains {h : Fault → Procedure α}
    (hp : p.Leads way s fun _ s' => P s') (hh : ∀ f, (h f).Maintains way P) :
    (p.recoverOrdinary h).Leads way s fun _ s' => P s' := by
  rw [leads_recoverOrdinary]
  refine hp.mono fun r s' hs' => ?_
  cases r with
  | ok a => exact hs'
  | error f => exact ⟨fun _ => hh f s' hs', fun _ => hs'⟩

theorem Leads.recoverOs_maintains {h : Fault → Procedure α}
    (hp : p.Leads way s fun _ s' => P s') (hh : ∀ f, (h f).Maintains way P) :
    (p.recoverOs h).Leads way s fun _ s' => P s' := by
  rw [leads_recoverOs]
  refine hp.mono fun r s' hs' => ?_
  cases r with
  | ok a => exact hs'
  | error f => exact ⟨fun _ => hh f s' hs', fun _ => hs'⟩

theorem Maintains.recover {h : Fault → Procedure α} (hp : p.Maintains way P)
    (hh : ∀ f, (h f).Maintains way P) : (p.recover h).Maintains way P := by
  intro s hs
  rw [leads_recover]
  refine (hp s hs).mono fun r s' hs' => ?_
  cases r with
  | ok a => exact hs'
  | error f => exact hh f s' hs'

/-- What is maintained before the second part of a sequence begins is there when it does. -/
theorem Maintains.leads_bind {k : α → Procedure β} {post : Except Fault β → σ → Prop}
    (hp : p.Maintains way P) (hfault : ∀ f s, P s → post (.error f) s)
    (hk : ∀ a s, P s → (k a).Leads way s post) (hs : P s) : (p >>= k).Leads way s post := by
  rw [Procedure.leads_bind]
  refine (hp s hs).mono fun r s' hs' => ?_
  cases r with
  | ok a => exact hk a s' hs'
  | error f => exact hfault f s' hs'

theorem maintains_find (sort : ObjectSort) (objects : World → List α) (i : Nat) :
    (find sort objects i).Maintains way P :=
  fun _ hs => (leads_find _ _ _).mpr ⟨fun _ _ => hs, fun _ => hs⟩

end Maintains

theorem maintains_compositional (way : Passage σ) (P : σ → Prop) :
    Compositional fun p => p.Maintains way P where
  bind := fun hp hk s hs => (hp s hs).bind_maintains hk
  recoverOrdinary := fun hp hh s hs => (hp s hs).recoverOrdinary_maintains hh
  recoverOs := fun hp hh s hs => (hp s hs).recoverOs_maintains hh

/-- If the procedure gives a value, then one such as this, and it leaves a state such as this. -/
def Yields (way : Passage σ) (p : Procedure α) (s : σ) (Q : α → σ → Prop) : Prop :=
  p.Leads way s fun r s' => ∀ a, r = .ok a → Q a s'

section Yields

variable {way : Passage σ} {s : σ} {Q : α → σ → Prop}

theorem yields_pure {a : α} (h : Q a s) : (pure a : Procedure α).Yields way s Q :=
  fun _ ha => Except.ok.inj ha ▸ h

theorem yields_throw (f : Fault) : (throw f : Procedure α).Yields way s Q := fun _ ha => by cases ha

theorem Yields.mono {p : Procedure α} {Q' : α → σ → Prop} (h : p.Yields way s Q)
    (hq : ∀ a s', Q a s' → Q' a s') : p.Yields way s Q' :=
  Leads.mono h fun _ _ hr a ha => hq a _ (hr a ha)

theorem Yields.bind {p : Procedure α} {k : α → Procedure β} {R : β → σ → Prop}
    (hp : p.Yields way s Q) (hk : ∀ a s', Q a s' → (k a).Yields way s' R) :
    (p >>= k).Yields way s R := by
  rw [Yields, Procedure.leads_bind]
  refine Leads.mono hp fun r s' hr => ?_
  cases r with
  | ok a => exact hk a s' (hr a rfl)
  | error f => exact fun _ hb => by cases hb

theorem Maintains.yields {P : σ → Prop} {p : Procedure α} (hp : p.Maintains way P) (hs : P s) :
    p.Yields way s fun _ s' => P s' := (hp s hs).mono fun _ _ hs' _ _ => hs'

end Yields

end Procedure

end EditorClient
