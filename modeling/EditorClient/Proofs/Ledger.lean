import EditorClient.Proofs.OwnerSteps
import EditorClient.Proofs.Trail

/-! The books of a registry. A list that only ever changes at its end is known by what was put in and
what was taken out, whoever did it. -/

namespace EditorClient

open Procedure

/-- One list comes of another by no more than one change at its end. -/
inductive Shift (l l' : List Nat) : Prop where
  | stays (h : l' = l)
  | puts (d : Nat) (h : l' = l ++ [d])
  | takes (d : Nat) (h : l = l' ++ [d])

namespace Ledger

/-- What is put in from each list to the next. -/
def putIn : List (List Nat) → List Nat
  | l :: l' :: ls => l'.drop l.length ++ putIn (l' :: ls)
  | _ => []

def takenOut : List (List Nat) → List Nat
  | l :: l' :: ls => l.drop l'.length ++ takenOut (l' :: ls)
  | _ => []

variable {l : List Nat} {ls : List (List Nat)}

/-- Nothing is lost, and nothing comes twice. -/
theorem perm (h : (l :: ls).IsChain Shift) :
    (l ++ putIn (l :: ls)).Perm (ls.getLastD l ++ takenOut (l :: ls)) := by
  induction ls generalizing l with
  | nil => simp [putIn, takenOut]
  | cons l' ls ih =>
    obtain ⟨hshift, hrest⟩ := List.isChain_cons_cons.mp h
    have hbooks := ih hrest
    rw [List.getLastD_cons, putIn, takenOut]
    rcases hshift with rfl | ⟨d, rfl⟩ | ⟨d, rfl⟩
    · simpa using hbooks
    · have hput : (l ++ [d]).drop l.length = [d] := by simp
      have htaken : l.drop (l ++ [d]).length = [] := by simp
      rwa [hput, htaken, List.nil_append, ← List.append_assoc]
    · have hput : l'.drop (l' ++ [d]).length = [] := by simp
      have htaken : (l' ++ [d]).drop l'.length = [d] := by simp
      rw [hput, htaken, List.nil_append, List.append_assoc, List.singleton_append]
      exact (List.perm_middle.trans (hbooks.cons d)).trans List.perm_middle.symm

theorem sublist (h : (l :: ls).IsChain Shift) :
    (ls.getLastD l).Sublist (l ++ putIn (l :: ls)) := by
  induction ls generalizing l with
  | nil => simp [putIn]
  | cons l' ls ih =>
    obtain ⟨hshift, hrest⟩ := List.isChain_cons_cons.mp h
    have hbooks := ih hrest
    rw [List.getLastD_cons, putIn]
    rcases hshift with rfl | ⟨d, rfl⟩ | ⟨d, rfl⟩
    · simpa using hbooks
    · simpa using hbooks
    · have hput : l'.drop (l' ++ [d]).length = [] := by simp
      rw [hput, List.nil_append]
      exact hbooks.trans (List.Sublist.append_right (List.sublist_append_left _ _) _)

/-- If nothing is put in, the end comes out first. -/
theorem eq_reverse (h : (l :: ls).IsChain Shift) (hput : putIn (l :: ls) = []) :
    l = ls.getLastD l ++ (takenOut (l :: ls)).reverse := by
  induction ls generalizing l with
  | nil => simp [takenOut]
  | cons l' ls ih =>
    obtain ⟨hshift, hrest⟩ := List.isChain_cons_cons.mp h
    rw [putIn, List.append_eq_nil_iff] at hput
    have hbooks := ih hrest hput.2
    rw [List.getLastD_cons, takenOut]
    rcases hshift with rfl | ⟨d, rfl⟩ | ⟨d, rfl⟩
    · simpa using hbooks
    · simp at hput
    · have htaken : (l' ++ [d]).drop l'.length = [d] := by simp
      rw [htaken, List.reverse_append, List.reverse_singleton, ← List.append_assoc, ← hbooks]

theorem takenOut_concat (l l' : List Nat) (ls : List (List Nat)) :
    takenOut (l :: ls ++ [l']) = takenOut (l :: ls) ++ (ls.getLastD l).drop l'.length := by
  induction ls generalizing l with
  | nil => simp [takenOut]
  | cons m ls ih =>
    rw [List.cons_append, List.cons_append, takenOut, takenOut, ← List.cons_append, ih,
      List.getLastD_cons, List.append_assoc]

end Ledger

namespace World

/-- The subscriptions of a context; one that is not there has none. -/
def subscriptions (w : World) (i : Nat) : List Nat := ((w.contexts[i]?).map (·.subscriptions)).getD []

def Listed (w : World) : Prop :=
  ∀ c ∈ w.contexts, ∀ d ∈ c.subscriptions, d < w.disposables.length

def IsDisposed (w : World) (d : Nat) : Prop := ∃ x, w.disposables[d]? = some x ∧ x.disposed = true

def mark (d : Nat) (w : World) : World := w.modifyDisposable d fun x => { x with disposed := true }

/-- Registries change at their ends only. A disposable keeps its action and comes to be disposed of by
being marked, for good. -/
structure Shifts (w w' : World) : Prop where
  lists : ∀ i, Shift (w.subscriptions i) (w'.subscriptions i)
  actions : ∀ (d : Nat) (x : Disposable), w.disposables[d]? = some x →
    ∃ x', w'.disposables[d]? = some x' ∧ x'.action = x.action
  disposed : ∀ d, w.IsDisposed d → w'.IsDisposed d
  marks : ∀ d, ¬w.IsDisposed d → w'.IsDisposed d → w' = w.mark d

variable {w w' : World} {d : Nat}

theorem shifts_of_append (ds : List Disposable) (hd : w'.disposables = w.disposables ++ ds)
    (hnew : ∀ x ∈ ds, x.disposed = false)
    (hlists : ∀ i, Shift (w.subscriptions i) (w'.subscriptions i)) : w.Shifts w' where
  lists := hlists
  actions := fun d x hx => ⟨x, by rw [hd, getElem?_append_of_some hx], rfl⟩
  disposed := fun d ⟨x, hx, hdisposed⟩ => ⟨x, by rw [hd, getElem?_append_of_some hx], hdisposed⟩
  marks := by
    intro d hd₀ ⟨x, hx, hdisposed⟩
    rw [hd] at hx
    by_cases hlt : d < w.disposables.length
    · rw [List.getElem?_append_left hlt] at hx
      exact absurd ⟨x, hx, hdisposed⟩ hd₀
    · rw [List.getElem?_append_right (Nat.le_of_not_lt hlt)] at hx
      rw [hnew x (List.mem_of_getElem? hx)] at hdisposed
      cases hdisposed

theorem shifts_of_eq (hc : w'.contexts = w.contexts) (hd : w'.disposables = w.disposables) :
    w.Shifts w' :=
  shifts_of_append [] (by rw [hd, List.append_nil]) nofun fun i => .stays (by
    rw [subscriptions, subscriptions, hc])

theorem listed_of_eq (h : w.Listed) (hc : w'.contexts = w.contexts)
    (hd : w.disposables.length ≤ w'.disposables.length) : w'.Listed := by
  intro c hmem e he
  rw [hc] at hmem
  exact Nat.lt_of_lt_of_le (h c hmem e he) hd

theorem subscriptions_of_some {i : Nat} {c : Context} (hc : w.contexts[i]? = some c) :
    w.subscriptions i = c.subscriptions := by
  rw [subscriptions, hc]
  rfl

theorem subscriptions_modifyContext (w : World) (c i : Nat) (f : Context → Context) :
    (w.modifyContext c f).subscriptions i =
      if c = i then ((w.contexts[i]?).map fun x => (f x).subscriptions).getD []
      else w.subscriptions i := by
  rw [subscriptions, modifyContext, List.getElem?_modify]
  split
  · cases w.contexts[i]? <;> rfl
  · rw [subscriptions]
    simp

theorem subscriptions_takeOut (w : World) (c i : Nat) :
    (w.modifyContext c fun x => { x with subscriptions := x.subscriptions.dropLast }).subscriptions
      i = if c = i then (w.subscriptions i).dropLast else w.subscriptions i := by
  rw [subscriptions_modifyContext]
  split
  · rw [subscriptions]
    cases w.contexts[i]? <;> rfl
  · rfl

theorem subscriptions_register (w : World) (c i d : Nat) :
    (register c d w).subscriptions i = w.subscriptions i ∨
      (register c d w).subscriptions i = w.subscriptions i ++ [d] := by
  rw [register, subscriptions_modifyContext]
  split
  · rw [subscriptions]
    cases w.contexts[i]? with
    | none => exact .inl rfl
    | some x => exact .inr rfl
  · exact .inl rfl

theorem isDisposed_mark {x : Disposable} (hx : w.disposables[d]? = some x) :
    (w.mark d).IsDisposed d := ⟨_, getElem?_modify_self _ hx, rfl⟩

theorem shifts_mark (w : World) (d : Nat) : w.Shifts (w.mark d) where
  lists := fun _ => .stays rfl
  actions := fun e x hx => ⟨_, getElem?_modify_of_some _ hx, by split <;> rfl⟩
  disposed := fun e ⟨x, hx, hdisposed⟩ =>
    ⟨_, getElem?_modify_of_some _ hx, by split <;> simp [hdisposed]⟩
  marks := by
    intro e he ⟨x, hx, hdisposed⟩
    obtain ⟨y, hy, ⟨rfl, _⟩ | ⟨_, rfl⟩⟩ := getElem?_modify_cases hx
    · rfl
    · exact absurd ⟨x, hy, hdisposed⟩ he

theorem shifts_takeOut (w : World) (c : Nat) :
    w.Shifts (w.modifyContext c fun x => { x with subscriptions := x.subscriptions.dropLast }) := by
  refine shifts_of_append [] (List.append_nil _).symm nofun fun i => ?_
  rw [subscriptions_takeOut]
  split
  · cases hlast : (w.subscriptions i).getLast? with
    | none => exact .stays (by rw [List.getLast?_eq_none_iff.mp hlast]; rfl)
    | some d =>
      obtain ⟨l, hl⟩ := List.getLast?_eq_some_iff.mp hlast
      exact .takes d (by rw [hl, List.dropLast_concat])
  · exact .stays rfl

theorem shifts_register (w : World) (c d : Nat) : w.Shifts (register c d w) := by
  refine shifts_of_append [] (List.append_nil _).symm nofun fun i => ?_
  rcases subscriptions_register w c i d with h | h
  · exact .stays h
  · exact .puts d h

theorem listed_modifyContext (h : w.Listed) (c : Nat) {f : Context → Context}
    (hf : ∀ x ∈ w.contexts, ∀ d ∈ (f x).subscriptions, d < w.disposables.length) :
    (w.modifyContext c f).Listed := by
  intro x hx d hd
  obtain ⟨j, hj⟩ := List.getElem?_of_mem hx
  obtain ⟨y, hy, ⟨_, rfl⟩ | ⟨_, rfl⟩⟩ := getElem?_modify_cases hj
  · exact hf y (List.mem_of_getElem? hy) d hd
  · exact h x (List.mem_of_getElem? hy) d hd

theorem listed_takeOut (h : w.Listed) (c : Nat) :
    (w.modifyContext c fun x => { x with subscriptions := x.subscriptions.dropLast }).Listed :=
  listed_modifyContext h c fun x hx d hd => h x hx d ((List.dropLast_sublist _).subset hd)

theorem listed_register (h : w.Listed) (c : Nat) (hd : d < w.disposables.length) :
    (register c d w).Listed :=
  listed_modifyContext h c fun x hx e he => by
    rcases List.mem_append.mp he with he | he
    · exact h x hx e he
    · rwa [List.mem_singleton.mp he]

end World

/-- The books of a context are in order: what was taken out has been disposed of, but for one entry that
may just have been taken. -/
structure Trail.Booked (i : Nat) (pending : Option Nat) (t : Trail) : Prop where
  goes : t.Goes World.Shifts
  listed : t.world.Listed
  disposed : ∀ d ∈ Ledger.takenOut (t.worlds.map (·.subscriptions i)),
    t.world.IsDisposed d ∨ pending = some d

namespace Trail.Booked

variable {t : Trail} {i : Nat} {pending : Option Nat} {f : World → World}

theorem takenOut_go (t : Trail) (i : Nat) (f : World → World) :
    Ledger.takenOut ((t.go f).worlds.map (·.subscriptions i)) =
      Ledger.takenOut (t.worlds.map (·.subscriptions i)) ++
        (t.world.subscriptions i).drop ((f t.world).subscriptions i).length := by
  rw [worlds_go, List.map_append, worlds, List.map_cons, List.map_singleton,
    Ledger.takenOut_concat, List.getLastD_eq_getLast?, List.getLast?_map, world,
    List.getLastD_eq_getLast?]
  cases t.later.getLast? <;> rfl

theorem go (h : t.Booked i pending) {pending' : Option Nat} (hshifts : t.world.Shifts (f t.world))
    (hlisted : (f t.world).Listed)
    (hkept : ∀ d, pending = some d → (f t.world).IsDisposed d ∨ pending' = some d)
    (htaken : ∀ d ∈ (t.world.subscriptions i).drop ((f t.world).subscriptions i).length,
      (f t.world).IsDisposed d ∨ pending' = some d) : (t.go f).Booked i pending' where
  goes := h.goes.go hshifts
  listed := by rwa [world_go]
  disposed := by
    rw [takenOut_go, world_go]
    intro d hd
    rcases List.mem_append.mp hd with hd | hd
    · rcases h.disposed d hd with hdisposed | hpending
      · exact .inl (hshifts.disposed d hdisposed)
      · exact hkept d hpending
    · exact htaken d hd

theorem stays (h : t.Booked i pending) (hshifts : t.world.Shifts (f t.world))
    (hlisted : (f t.world).Listed)
    (hlonger : (t.world.subscriptions i).length ≤ ((f t.world).subscriptions i).length) :
    (t.go f).Booked i pending :=
  h.go hshifts hlisted (fun _ => .inr) (by simp [List.drop_eq_nil_of_le hlonger])

theorem alike (h : t.Booked i pending) (hc : (f t.world).contexts = t.world.contexts)
    (hd : (f t.world).disposables = t.world.disposables) : (t.go f).Booked i pending :=
  h.stays (World.shifts_of_eq hc hd) (World.listed_of_eq h.listed hc (by rw [hd]))
    (by rw [World.subscriptions, World.subscriptions, hc])

end Trail.Booked

end EditorClient
