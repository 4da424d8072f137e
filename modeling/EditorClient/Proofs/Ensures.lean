import EditorClient.Proofs.Moment
import EditorClient.Proofs.Passage

/-! What a procedure ensures although its calls may do much in the meantime: every call is made in a
world with an invariant and leaves such a world, changed as `rely` allows. Steps whose procedures
ensure the same of themselves do so however they are nested. -/

namespace EditorClient

/-- A call may come to anything that is expected of it. -/
def Passage.ofWorlds (inv : World → Prop) (rely : World → World → Prop) : Passage World where
  world := fun w => w
  update := fun f w => f w
  call := fun c w post =>
    inv (w.happen (.called c)) ∧ ∀ r w', inv w' → rely (w.happen (.called c)) w' → post r w'
  mono := fun hp h => ⟨h.1, fun r w' hi hr => hp r w' (h.2 r w' hi hr)⟩

namespace Procedure

variable {α β : Type}

def Ensures (inv : World → Prop) (rely : World → World → Prop) (p : Procedure α) (w : World)
    (post : Except Fault α → World → Prop) : Prop :=
  p.Leads (.ofWorlds inv rely) w post

variable {inv : World → Prop} {rely : World → World → Prop} {w : World}

theorem Ensures.mono {p : Procedure α} {post post' : Except Fault α → World → Prop}
    (h : p.Ensures inv rely w post) (hp : ∀ r w', post r w' → post' r w') :
    p.Ensures inv rely w post' := Leads.mono h hp

/-- What is ensured under weaker expectations of the calls is ensured besides. -/
theorem Ensures.and {p : Procedure α} {inv' : World → Prop} {post post' : Except Fault α → World → Prop}
    (h : p.Ensures inv rely w post) (h' : p.Ensures inv' rely w post')
    (hinv : ∀ w, inv w → inv' w) : p.Ensures inv rely w fun r w' => post r w' ∧ post' r w' := by
  induction p generalizing w with
  | done a => exact ⟨h, h'⟩
  | fail f => exact ⟨h, h'⟩
  | read next ih => exact ih w h h'
  | update f next ih => exact ih h h'
  | call c next ih =>
    exact ⟨h.1, fun r w' hi hr => ih r (h.2 r w' hi hr) (h'.2 r w' (hinv w' hi) hr)⟩

@[simp]
theorem ensures_bind (p : Procedure α) (k : α → Procedure β) (post : Except Fault β → World → Prop) :
    (p >>= k).Ensures inv rely w post ↔
      p.Ensures inv rely w (onOk (fun a w' => (k a).Ensures inv rely w' post) post) :=
  leads_bind p k post

section Rules

variable {post : Except Fault α → World → Prop}

@[simp]
theorem ensures_pure (a : α) :
    (pure a : Procedure α).Ensures inv rely w post ↔ post (.ok a) w := leads_pure a

@[simp]
theorem ensures_ask (f : World → α) :
    (ask f).Ensures inv rely w post ↔ post (.ok (f w)) w := leads_ask f

@[simp]
theorem ensures_change (f : World → World) (post : Except Fault Unit → World → Prop) :
    (change f).Ensures inv rely w post ↔ post (.ok ()) (f w) := leads_change f post

@[simp]
theorem ensures_remark (r : Remark) (post : Except Fault Unit → World → Prop) :
    (remark r).Ensures inv rely w post ↔ post (.ok ()) (w.remark r) := leads_remark r post

@[simp]
theorem ensures_happen (e : Event) (post : Except Fault Unit → World → Prop) :
    (happen e).Ensures inv rely w post ↔ post (.ok ()) (w.happen e) := leads_happen e post

theorem ensures_post (p : Posting) (post : Except Fault Unit → World → Prop) :
    (Procedure.post p).Ensures inv rely w post ↔
      (∀ f, w.refusal? p.record = some f → post (.error f) (w.happen (.refused p))) ∧
        (w.refusal? p.record = none → post (.ok ()) (w.post p)) := leads_post p post

theorem ensures_request (c : Call) (post : Except Fault Reply → World → Prop) :
    (request c).Ensures inv rely w post ↔
      inv (w.happen (.called c)) ∧
        ∀ r w', inv w' → rely (w.happen (.called c)) w' → post r w' := leads_request c post

theorem ensures_ofExcept (r : Except Fault α) :
    (ofExcept r).Ensures inv rely w post ↔ post r w := leads_ofExcept r

theorem ensures_find (sort : ObjectSort) (objects : World → List α) (i : Nat) :
    (find sort objects i).Ensures inv rely w post ↔
      (∀ a, (objects w)[i]? = some a → post (.ok a) w) ∧
        ((objects w)[i]? = none → post (.error (.missing sort (i + 1))) w) :=
  leads_find sort objects i

theorem ensures_index (sort : ObjectSort) (objects : World → List α) (number : Int)
    (post : Except Fault Nat → World → Prop) :
    (index sort objects number).Ensures inv rely w post ↔
      (∀ i : Nat, number = i + 1 → i < (objects w).length → post (.ok i) w) ∧
        (¬(1 ≤ number ∧ number ≤ (objects w).length) → post (.error (.missing sort number)) w) :=
  leads_index sort objects number post

theorem ensures_index_bind {sort : ObjectSort} {objects : World → List β} {number : Int}
    {k : Nat → Procedure α} :
    (index sort objects number >>= k).Ensures inv rely w post ↔
      (∀ i : Nat, number = i + 1 → i < (objects w).length → (k i).Ensures inv rely w post) ∧
        (¬(1 ≤ number ∧ number ≤ (objects w).length) → post (.error (.missing sort number)) w) := by
  rw [ensures_bind, ensures_index]
  rfl

theorem ensures_recoverOrdinary (p : Procedure α) (h : Fault → Procedure α) :
    (p.recoverOrdinary h).Ensures inv rely w post ↔
      p.Ensures inv rely w (onError post fun f w' =>
        (f.isOrdinary = true → (h f).Ensures inv rely w' post) ∧
          (f.isOrdinary = false → post (.error f) w')) := leads_recoverOrdinary p h

end Rules

/-- What holds before a procedure holds after it, however it ends. -/
def Preserves (inv : World → Prop) (rely : World → World → Prop) (P : World → Prop)
    (p : Procedure α) : Prop :=
  ∀ w, P w → p.Ensures inv rely w fun _ w' => P w'

theorem preserves_compositional (inv : World → Prop) (rely : World → World → Prop)
    (P : World → Prop) : Compositional fun p => p.Preserves inv rely P :=
  maintains_compositional (.ofWorlds inv rely) P

section Preserves

variable {P : World → Prop}

theorem Ensures.bind_preserves {p : Procedure α} {k : α → Procedure β}
    (hp : p.Ensures inv rely w fun _ w' => P w') (hk : ∀ a, (k a).Preserves inv rely P) :
    (p >>= k).Ensures inv rely w fun _ w' => P w' := Leads.bind_maintains hp hk

theorem Preserves.bind {p : Procedure α} {k : α → Procedure β} (hp : p.Preserves inv rely P)
    (hk : ∀ a, (k a).Preserves inv rely P) : (p >>= k).Preserves inv rely P :=
  (preserves_compositional inv rely P).bind hp hk

theorem Preserves.recoverOrdinary {p : Procedure α} {h : Fault → Procedure α}
    (hp : p.Preserves inv rely P) (hh : ∀ f, (h f).Preserves inv rely P) :
    (p.recoverOrdinary h).Preserves inv rely P :=
  (preserves_compositional inv rely P).recoverOrdinary hp hh

theorem Preserves.recoverOs {p : Procedure α} {h : Fault → Procedure α}
    (hp : p.Preserves inv rely P) (hh : ∀ f, (h f).Preserves inv rely P) :
    (p.recoverOs h).Preserves inv rely P :=
  (preserves_compositional inv rely P).recoverOs hp hh

theorem preserves_pure (a : α) : (pure a : Procedure α).Preserves inv rely P := fun _ hw => hw

theorem preserves_throw (f : Fault) : (throw f : Procedure α).Preserves inv rely P := fun _ hw => hw

theorem preserves_change {f : World → World} (h : ∀ w, P w → P (f w)) :
    (change f).Preserves inv rely P := h

/-- The number by which a step names an object is one more than its index. -/
theorem preserves_index_bind {sort : ObjectSort} {objects : World → List α} {number : Int}
    {k : Nat → Procedure β} (hk : ∀ i : Nat, number = i + 1 → (k i).Preserves inv rely P) :
    (index sort objects number >>= k).Preserves inv rely P := by
  intro w hw
  rw [ensures_bind, ensures_index]
  exact ⟨fun i hi _ => hk i hi w hw, fun _ => hw⟩

end Preserves

/-- What a procedure ensures holds of its run, if calls keep to what is expected of them. -/
theorem Ensures.run {p : Procedure α} {post : Except Fault α → World → Prop} {s : Setting}
    (respond : Call → Setting → Except Fault Reply × Setting)
    (during : Call → Setting → List Moment) (good : Moment → Prop)
    (h : p.Ensures inv rely s.world post)
    (hc : ∀ c s, inv (s.world.happen (.called c)) →
      inv (respond c s).2.world ∧ rely (s.world.happen (.called c)) (respond c s).2.world ∧
        ∀ m ∈ during c s, good m) :
    post (p.run respond s).1 (p.run respond s).2.world ∧
      ∀ m ∈ p.moments respond during s, good m := by
  induction p generalizing s with
  | done a => exact ⟨h, by simp [moments]⟩
  | fail f => exact ⟨h, by simp [moments]⟩
  | read next ih => exact ih s.world h
  | update f next ih => exact ih (s := { s with world := f s.world }) h
  | call c next ih =>
    obtain ⟨hi, hr, hm⟩ := hc c s h.1
    obtain ⟨hp, hrest⟩ := ih (respond c s).1 (h.2 (respond c s).1 _ hi hr)
    refine ⟨hp, fun m hmem => ?_⟩
    rcases List.mem_append.mp hmem with hmem | hmem
    · exact hm m hmem
    · exact hrest m hmem

end Procedure

/-- Every moment has the invariant, and a step that ends also has what is said of its end. -/
def Moment.Good (inv : World → Prop) (ends : Step → Answer → World → Prop) : Moment → Prop
  | .ends step answer w => inv w ∧ ends step answer w
  | m => inv m.world

theorem Moment.Good.world {inv : World → Prop} {ends : Step → Answer → World → Prop} {m : Moment}
    (h : m.Good inv ends) : inv m.world := by
  cases m with
  | ends step answer w => exact h.1
  | _ => exact h

/-- What is to be shown of each kind of step by itself. The procedure of a step relies on what other
steps do during its calls, and guarantees something of its own. -/
structure Step.Contract (limit : Nat) (inv : World → Prop) (rely guarantee : World → World → Prop)
    (ends : Step → Answer → World → Prop) : Prop where
  refl : ∀ w, guarantee w w
  trans : ∀ {a b c}, guarantee a b → guarantee b c → guarantee a c
  relied : ∀ depth steps s,
    guarantee s.world (Step.leaveAll limit depth steps s).world →
      rely s.world (Step.leaveAll limit depth steps s).world
  begins : ∀ step w, inv w → inv (w.happen (.began step))
  course : ∀ (step : Step) w, inv w →
    (step.procedure limit).Ensures inv rely (w.happen (.began step)) fun answer w' =>
      inv (w'.happen (.ended answer)) ∧ guarantee w (w'.happen (.ended answer)) ∧
        ends step answer (w'.happen (.ended answer))

namespace Step.Contract

variable {limit : Nat} {inv : World → Prop} {rely guarantee : World → World → Prop}
  {ends : Step → Answer → World → Prop}

theorem ofSteps (hc : Contract limit inv rely guarantee ends) {take : Step → Setting → Setting}
    {moments : Step → Setting → List Moment}
    (h : ∀ step s, inv s.world → inv (take step s).world ∧ guarantee s.world (take step s).world ∧
      ∀ m ∈ moments step s, m.Good inv ends)
    (steps : List Step) (s : Setting) (hs : inv s.world) :
    inv (steps.foldl (fun s step => take step s) s).world ∧
      guarantee s.world (steps.foldl (fun s step => take step s) s).world ∧
      ∀ m ∈ Moment.ofSteps take moments steps s, m.Good inv ends := by
  induction steps generalizing s with
  | nil => exact ⟨hs, hc.refl _, by simp [Moment.ofSteps]⟩
  | cons step steps ih =>
    obtain ⟨hi, hg, hm⟩ := h step s hs
    obtain ⟨hi', hg', hm'⟩ := ih (take step s) hi
    refine ⟨hi', hc.trans hg hg', fun m hmem => ?_⟩
    rcases List.mem_append.mp hmem with hmem | hmem
    · exact hm m hmem
    · exact hm' m hmem

/-- The induction is on how deep calls may be nested. -/
theorem leave (hc : Contract limit inv rely guarantee ends) (depth : Nat) (step : Step) (s : Setting)
    (hs : inv s.world) :
    inv (step.leave limit depth s).world ∧ guarantee s.world (step.leave limit depth s).world ∧
      ∀ m ∈ step.moments limit depth s, m.Good inv ends := by
  induction depth generalizing step s with
  | zero => exact ⟨hs, hc.refl _, by simp [Step.moments]⟩
  | succ depth ih =>
    obtain ⟨hpost, hmoments⟩ := Procedure.Ensures.run (s := s.happen (.began step))
      (Call.respond (Step.leave limit depth))
      (Call.moments (Step.leave limit depth) (Step.moments limit depth))
      (fun m => m.Good inv ends) (hc.course step s.world hs) (by
        intro c s hi
        have hsteps := hc.ofSteps ih (c.react s.script).1.steps (c.noted s) hi
        rw [Call.respond_snd]
        refine ⟨hsteps.1, hc.relied depth _ (c.noted s) hsteps.2.1, fun m hm => ?_⟩
        rcases List.mem_cons.mp hm with rfl | hm
        · exact hi
        · rcases List.mem_append.mp hm with hm | hm
          · exact hsteps.2.2 m hm
          · rw [List.mem_singleton.mp hm]
            change inv (c.respond _ s).2.world
            rw [Call.respond_snd]
            exact hsteps.1)
    have hw := Step.perform_world limit depth step s
    have ha := Step.perform_answer limit depth step s
    change inv (step.perform limit (depth + 1) s).2.world ∧
      guarantee s.world (step.perform limit (depth + 1) s).2.world ∧ _
    rw [hw]
    refine ⟨hpost.1, hpost.2.1, fun m hm => ?_⟩
    rcases List.mem_cons.mp hm with rfl | hm
    · exact hc.begins step s.world hs
    · rcases List.mem_append.mp hm with hm | hm
      · exact hmoments m hm
      · rw [List.mem_singleton.mp hm, ha, hw]
        exact ⟨hpost.1, hpost.2.2⟩

theorem leaveAll (hc : Contract limit inv rely guarantee ends) (depth : Nat) (steps : List Step)
    (s : Setting) (hs : inv s.world) :
    inv (Step.leaveAll limit depth steps s).world ∧
      guarantee s.world (Step.leaveAll limit depth steps s).world ∧
      ∀ m ∈ Step.runMoments limit depth steps s, m.Good inv ends :=
  hc.ofSteps (hc.leave depth) steps s hs

end Step.Contract

end EditorClient
