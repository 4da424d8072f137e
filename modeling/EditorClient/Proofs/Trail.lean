import EditorClient.Proofs.StepEvolution
import Mathlib.Data.List.Chain

/-! All the worlds that a run passes through, one after each change and each event, whoever brings it
about. A trail holds them in order, so that one can say how each world comes of the one before. -/

namespace EditorClient

def World.ofSteps (take : Step → Setting → Setting) (worlds : Step → Setting → List World) :
    List Step → Setting → List World
  | [], _ => []
  | step :: steps, s => worlds step s ++ ofSteps take worlds steps (take step s)

/-- The worlds of a procedure, where `during` gives those from a call to its return. -/
def Procedure.worlds {α : Type} (respond : Call → Setting → Except Fault Reply × Setting)
    (during : Call → Setting → List World) : Procedure α → Setting → List World
  | done _, _ => []
  | fail _, _ => []
  | read next, s => (next s.world).worlds respond during s
  | update f next, s =>
    f s.world :: next.worlds respond during { s with world := f s.world }
  | call c next, s =>
    let r := respond c s
    during c s ++ (next r.1).worlds respond during r.2

def Call.worlds (take : Step → Setting → Setting) (worlds : Step → Setting → List World) (c : Call)
    (s : Setting) : List World :=
  (c.noted s).world :: World.ofSteps take worlds (c.react s.script).1.steps (c.noted s)

namespace Step

def worlds (limit : Nat) : Nat → Step → Setting → List World
  | 0, _, _ => []
  | depth + 1, step, s =>
    let began := s.happen (.began step)
    began.world ::
      ((step.procedure limit).worlds (Call.respond (leave limit depth))
          (Call.worlds (leave limit depth) (worlds limit depth)) began ++
        [(step.leave limit (depth + 1) s).world])

def runWorlds (limit depth : Nat) (steps : List Step) (s : Setting) : List World :=
  World.ofSteps (leave limit depth) (worlds limit depth) steps s

end Step

/-- The worlds of a procedure whose calls may be nested as deep as those of a step. -/
def Procedure.nestedWorlds {α : Type} (limit depth : Nat) (p : Procedure α) (s : Setting) :
    List World :=
  p.worlds (Call.respond (Step.leave limit depth))
    (Call.worlds (Step.leave limit depth) (Step.worlds limit depth)) s

/-- What is handed on from world to world holds between any two. -/
theorem rel_of_isChain {α : Type} {R : α → α → Prop} (hrefl : ∀ x, R x x)
    (htrans : ∀ {x y z}, R x y → R y z → R x z) {l : List α} (h : l.IsChain R) {i j : Nat}
    (hij : i ≤ j) {x y : α} (hx : l[i]? = some x) (hy : l[j]? = some y) : R x y := by
  have : Trans R R R := ⟨htrans⟩
  obtain ⟨hi, rfl⟩ := List.getElem?_eq_some_iff.mp hx
  obtain ⟨hj, rfl⟩ := List.getElem?_eq_some_iff.mp hy
  rcases Nat.eq_or_lt_of_le hij with rfl | hlt
  · exact hrefl _
  · exact List.pairwise_iff_getElem.mp h.pairwise i j hi hj hlt

/-- The worlds so far: a first one and those that came later. -/
structure Trail where
  first : World
  later : List World

namespace Trail

def worlds (t : Trail) : List World := t.first :: t.later

def world (t : Trail) : World := t.later.getLastD t.first

def extend (t : Trail) (ws : List World) : Trail := ⟨t.first, t.later ++ ws⟩

def go (t : Trail) (f : World → World) : Trail := t.extend [f t.world]

def calls (t : Trail) (c : Call) : Trail := t.go (·.happen (.called c))

variable (t : Trail)

theorem world_extend (ws : List World) : (t.extend ws).world = ws.getLastD t.world := by
  cases ws using List.reverseRecOn with
  | nil => simp [extend, world]
  | append_singleton ws w => simp [extend, world]

@[simp]
theorem world_go (f : World → World) : (t.go f).world = f t.world := by
  rw [go, world_extend]
  rfl

@[simp]
theorem worlds_go (f : World → World) : (t.go f).worlds = t.worlds ++ [f t.world] := rfl

theorem extend_extend (ws ws' : List World) : (t.extend ws).extend ws' = t.extend (ws ++ ws') := by
  simp [extend]

@[simp]
theorem extend_nil : t.extend [] = t := by simp [extend]

theorem getLast?_worlds : t.worlds.getLast? = some t.world := by
  rw [worlds, world, List.getLast?_cons, List.getLastD_eq_getLast?]

def Goes (R : World → World → Prop) (t : Trail) : Prop := t.worlds.IsChain R

variable {t} {R : World → World → Prop}

theorem Goes.go (h : t.Goes R) {f : World → World} (hf : R t.world (f t.world)) :
    (t.go f).Goes R := by
  rw [Goes, worlds_go, List.isChain_append]
  refine ⟨h, List.isChain_singleton _, fun x hx y hy => ?_⟩
  rw [List.head?_singleton, Option.mem_some_iff] at hy
  rw [getLast?_worlds, Option.mem_some_iff] at hx
  rwa [← hx, ← hy]

end Trail

/-- A call may come to anything that has the invariant and could happen meanwhile. -/
def Passage.ofTrails (inv : Trail → Prop) : Passage Trail where
  world := Trail.world
  update := fun f t => t.go f
  call := fun c t post => inv (t.calls c) ∧
    ∀ r t', inv t' → (t.calls c).world.Meanwhile t'.world → post r t'
  mono := fun hp h => ⟨h.1, fun r t' hi hm => hp r t' (h.2 r t' hi hm)⟩

section Run

variable {inv : Trail → Prop}

@[simp]
theorem Passage.world_ofTrails (t : Trail) : (Passage.ofTrails inv).world t = t.world := rfl

@[simp]
theorem Passage.update_ofTrails (f : World → World) (t : Trail) :
    (Passage.ofTrails inv).update f t = t.go f := rfl

/-- What a procedure leads to is found in its run, if calls keep the invariant. -/
theorem Procedure.Leads.trail {α : Type} {p : Procedure α}
    {post : Except Fault α → Trail → Prop} {t : Trail} {s : Setting}
    (respond : Call → Setting → Except Fault Reply × Setting)
    (during : Call → Setting → List World) (hp : p.Leads (.ofTrails inv) t post)
    (hs : t.world = s.world)
    (hc : ∀ c (t : Trail) s, t.world = s.world → inv (t.calls c) →
      inv (t.extend (during c s)) ∧ (t.extend (during c s)).world = (respond c s).2.world ∧
        (t.calls c).world.Meanwhile (respond c s).2.world) :
    post (p.run respond s).1 (t.extend (p.worlds respond during s)) ∧
      (t.extend (p.worlds respond during s)).world = (p.run respond s).2.world := by
  induction p generalizing t s with
  | done a =>
    rw [worlds, Trail.extend_nil]
    exact ⟨hp, hs⟩
  | fail f =>
    rw [worlds, Trail.extend_nil]
    exact ⟨hp, hs⟩
  | read next ih =>
    rw [Leads, Passage.world_ofTrails, hs] at hp
    exact ih s.world hp hs
  | update f next ih =>
    have hgo : (t.go f).world = f s.world := by rw [Trail.world_go, hs]
    have hnext := ih (t := t.go f) (s := ⟨f s.world, s.script⟩) hp hgo
    rw [Trail.go, Trail.extend_extend, hs] at hnext
    exact hnext
  | call c next ih =>
    obtain ⟨hi, hw, hm⟩ := hc c t s hs hp.1
    have hnext := ih (respond c s).1 (hp.2 (respond c s).1 _ hi (hw ▸ hm)) hw
    rw [Trail.extend_extend] at hnext
    exact hnext

/-- What is to be shown of each kind of step by itself, so that it holds of runs. -/
def Trail.Contract (limit : Nat) (inv : Trail → Prop) : Prop :=
  ∀ (step : Step) t, inv t → (step.procedure limit).Leads (.ofTrails inv)
    (t.go (·.happen (.began step))) fun answer t' => inv (t'.go (·.happen (.ended answer)))

namespace Trail.Contract

variable {limit : Nat}

theorem ofSteps {take : Step → Setting → Setting} {worlds : Step → Setting → List World}
    (h : ∀ step (t : Trail) s, t.world = s.world → inv t →
      inv (t.extend (worlds step s)) ∧ (t.extend (worlds step s)).world = (take step s).world)
    (steps : List Step) {t : Trail} {s : Setting} (hs : t.world = s.world) (ht : inv t) :
    inv (t.extend (World.ofSteps take worlds steps s)) ∧
      (t.extend (World.ofSteps take worlds steps s)).world =
        (steps.foldl (fun s step => take step s) s).world := by
  induction steps generalizing t s with
  | nil => simpa [World.ofSteps] using ⟨ht, hs⟩
  | cons step steps ih =>
    obtain ⟨hi, hw⟩ := h step t s hs ht
    have hrest := ih hw hi
    rw [extend_extend] at hrest
    exact hrest

theorem keeps_call {depth : Nat} (h : ∀ (step : Step) (t : Trail) (s : Setting),
      t.world = s.world → inv t →
      inv (t.extend (step.worlds limit depth s)) ∧
        (t.extend (step.worlds limit depth s)).world = (step.leave limit depth s).world)
    (c : Call) (t : Trail) (s : Setting) (hs : t.world = s.world) (ht : inv (t.calls c)) :
    let during := Call.worlds (Step.leave limit depth) (Step.worlds limit depth) c s
    let left := (c.respond (Step.leave limit depth) s).2.world
    inv (t.extend during) ∧ (t.extend during).world = left ∧ (t.calls c).world.Meanwhile left := by
  have hnoted : (t.calls c).world = (c.noted s).world := by rw [Trail.calls, world_go, hs]; rfl
  have hsteps := ofSteps h (c.react s.script).1.steps hnoted ht
  rw [Trail.calls, go, extend_extend, hs] at hsteps
  refine ⟨hsteps.1, ?_, hnoted ▸ Step.meanwhile_respond limit depth c s⟩
  rw [Call.respond_snd]
  exact hsteps.2

theorem leave (hc : Contract limit inv) (depth : Nat) (step : Step) (t : Trail) (s : Setting)
    (hs : t.world = s.world) (ht : inv t) :
    inv (t.extend (step.worlds limit depth s)) ∧
      (t.extend (step.worlds limit depth s)).world = (step.leave limit depth s).world := by
  -- the steps that a reaction takes are nested one level less deep
  induction depth generalizing step t s with
  | zero => simpa [Step.worlds, Step.leave, Step.perform] using ⟨ht, hs⟩
  | succ depth ih =>
    have hbegan : (t.go (·.happen (.began step))).world = (s.happen (.began step)).world := by
      rw [world_go, hs]
      rfl
    obtain ⟨hi, hw⟩ := (hc step t ht).trail (Call.respond (Step.leave limit depth)) _ hbegan
      (keeps_call ih)
    have hended : (step.leave limit (depth + 1) s).world = _ := Step.perform_world limit depth step s
    rw [go, hw, go, extend_extend, extend_extend, hs] at hi
    rw [Step.worlds, hended]
    refine ⟨hi, ?_⟩
    rw [world_extend, ← List.cons_append, List.getLastD_concat]

/-- What a procedure leads to is found in its run, whatever steps are taken during its calls. -/
theorem run (hc : Contract limit inv) (depth : Nat) {α : Type} {p : Procedure α} {t : Trail}
    {s : Setting} {post : Except Fault α → Trail → Prop} (hp : p.Leads (.ofTrails inv) t post)
    (hs : t.world = s.world) :
    let r := p.run (Call.respond (Step.leave limit depth)) s
    post r.1 (t.extend (p.nestedWorlds limit depth s)) ∧
      (t.extend (p.nestedWorlds limit depth s)).world = r.2.world :=
  hp.trail _ _ hs (keeps_call (hc.leave depth))

theorem leaveAll (hc : Contract limit inv) (depth : Nat) (steps : List Step) (s : Setting)
    (hs : inv ⟨s.world, []⟩) : inv ⟨s.world, Step.runWorlds limit depth steps s⟩ :=
  (ofSteps (hc.leave depth) steps (t := ⟨s.world, []⟩) rfl hs).1

end Trail.Contract

end Run

end EditorClient
