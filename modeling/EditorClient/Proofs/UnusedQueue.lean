import EditorClient.Proofs.ParallelSteps

/-! What the reactions in a queue of the script would be is nothing to a run that makes no call which is
answered from it. -/

namespace EditorClient

open Procedure

/-- A call that is answered from the queue. -/
def Event.draws (queue : Queue) : Event → Bool
  | called c => c.queue? == some queue
  | _ => false

/-- The script with nothing in the queue. -/
def Script.without (script : Script) (queue : Queue) : Script :=
  fun q => if q = queue then [] else script q

/-- Nothing has been answered from the queue since the trace had this length. -/
def World.LeavesQueue (queue : Queue) (n : Nat) (w : World) : Prop :=
  ∀ e ∈ w.trace.drop n, e.draws queue = false

instance (queue : Queue) (n : Nat) (w : World) : Decidable (w.LeavesQueue queue n) :=
  inferInstanceAs (Decidable (∀ e ∈ w.trace.drop n, e.draws queue = false))

/-- Two settings that differ in one queue of their scripts at most. -/
structure Setting.SameBut (queue : Queue) (s t : Setting) : Prop where
  world : t.world = s.world
  script : ∀ q, q ≠ queue → t.script q = s.script q

variable {queue : Queue} {n : Nat} {s t : Setting}

theorem World.leavesQueue_iff {w : World} {before after : List Event} (h : w.trace = before ++ after) :
    w.LeavesQueue queue before.length ↔ ∀ e ∈ after, e.draws queue = false := by
  rw [LeavesQueue, h, List.drop_left]

theorem World.LeavesQueue.mono {w w' : World} (h : w'.LeavesQueue queue n)
    (ht : w.trace <+: w'.trace) : w.LeavesQueue queue n := by
  obtain ⟨es, he⟩ := ht
  intro e hmem
  refine h e ?_
  rw [← he, List.drop_append]
  exact List.mem_append_left _ hmem

theorem World.LeavesQueue.queue?_ne {w : World} {c : Call}
    (h : (w.happen (.called c)).LeavesQueue queue n) (hn : n ≤ w.trace.length) : c.queue? ≠ some queue := by
  have hmem : Event.called c ∈ (w.happen (.called c)).trace.drop n := by
    rw [World.happen, List.drop_append_of_le_length hn]
    exact List.mem_append_right _ (List.mem_singleton_self _)
  simpa [Event.draws] using h _ hmem

theorem Script.without_of_ne {script : Script} {q : Queue} (h : q ≠ queue) :
    script.without queue q = script q := if_neg h

theorem Script.mem_without {script : Script} {q : Queue} {r : Reaction} :
    r ∈ script.without queue q ↔ q ≠ queue ∧ r ∈ script q := by
  unfold without
  split <;> simp_all

theorem Script.extend_congr {script script' : Script} {q : Queue} (h : script' q = script q)
    (additions : List (Queue × List Reaction)) :
    script'.extend additions q = script.extend additions q := by
  unfold extend
  induction additions generalizing script script' with
  | nil => exact h
  | cons a rest ih =>
    refine ih ?_
    simp only [append]
    split
    · rw [h]
    · exact h

/-- The reaction to any other call is the same, and so is what it leaves of the other queues. -/
theorem Call.react_congr {c : Call} (hc : c.queue? ≠ some queue) {script script' : Script}
    (h : ∀ q, q ≠ queue → script' q = script q) :
    (c.react script').1 = (c.react script).1 ∧
      ∀ q, q ≠ queue → (c.react script').2 q = (c.react script).2 q := by
  have hdrawn : ∀ drawn, drawn ≠ queue → script'.next drawn = script.next drawn ∧
      ∀ q, q ≠ queue → script'.rest drawn q = script.rest drawn q := by
    refine fun drawn hd => ⟨by rw [Script.next, Script.next, h drawn hd], fun q hq => ?_⟩
    rw [Script.rest, Script.rest, h q hq]
  cases c with
  | act name reaction => exact ⟨rfl, h⟩
  | _ => exact hdrawn _ fun he => hc (congrArg some he)

namespace Setting.SameBut

theorem happen (h : s.SameBut queue t) (e : Event) : (s.happen e).SameBut queue (t.happen e) :=
  ⟨congrArg (World.happen · e) h.world, h.script⟩

/-- These steps cannot tell such settings apart unless they draw on the queue. -/
def KeptBy (queue : Queue) (n : Nat) (take : Step → Setting → Setting) : Prop :=
  ∀ step s t, SameBut queue s t → n ≤ s.world.trace.length →
    (take step s).world.LeavesQueue queue n → SameBut queue (take step s) (take step t)

section Kept

variable {take : Step → Setting → Setting} (hkept : KeptBy queue n take)
  (hgrows : ∀ step s, s.world.trace <+: (take step s).world.trace)
include hkept hgrows

theorem foldl (h : s.SameBut queue t) (hn : n ≤ s.world.trace.length) (steps : List Step)
    (hleft : (steps.foldl (fun s step => take step s) s).world.LeavesQueue queue n) :
    (steps.foldl (fun s step => take step s) s).SameBut queue
      (steps.foldl (fun s step => take step s) t) := by
  induction steps generalizing s t with
  | nil => exact h
  | cons step steps ih =>
    have hfirst := hleft.mono (Step.trace_foldl hgrows steps (take step s))
    exact ih (hkept step s t h hn hfirst) (Nat.le_trans hn (hgrows step s).length_le) hleft

theorem respond (h : s.SameBut queue t) (hn : n ≤ s.world.trace.length) (c : Call)
    (hleft : (c.respond take s).2.world.LeavesQueue queue n) :
    (c.respond take t).1 = (c.respond take s).1 ∧
      (c.respond take s).2.SameBut queue (c.respond take t).2 := by
  obtain ⟨hreaction, hscript⟩ := Call.react_congr
    ((hleft.mono (Call.trace_respond hgrows c s)).queue?_ne hn) h.script
  have hbegun : (c.noted s).SameBut queue (c.noted t) :=
    ⟨congrArg (World.happen · (.called c)) h.world, hscript⟩
  constructor
  · simp only [Call.respond, hreaction]
    cases (c.react s.script).1.fault with
    | none => rfl
    | some f => rfl
  · rw [Call.respond_snd] at hleft ⊢
    rw [Call.respond_snd, hreaction]
    exact foldl hkept hgrows hbegun (Nat.le_trans hn (List.prefix_append _ _).length_le) _ hleft

theorem run {α : Type} {p : Procedure α} (hp : p.Remembers) (h : s.SameBut queue t)
    (hn : n ≤ s.world.trace.length)
    (hleft : (p.run (Call.respond take) s).2.world.LeavesQueue queue n) :
    (p.run (Call.respond take) t).1 = (p.run (Call.respond take) s).1 ∧
      (p.run (Call.respond take) s).2.SameBut queue (p.run (Call.respond take) t).2 := by
  have hresponds : ∀ c s, s.world.trace <+: (Call.respond take c s).2.world.trace :=
    fun c s => (List.prefix_append _ _).trans (Call.trace_respond hgrows c s)
  induction p generalizing s t with
  | done a => exact ⟨rfl, h⟩
  | fail f => exact ⟨rfl, h⟩
  | read next ih =>
    simp only [Procedure.run, h.world]
    exact ih s.world (hp s.world) h hn hleft
  | update f next ih =>
    exact ih hp.2 ⟨congrArg f h.world, h.script⟩ (Nat.le_trans hn (hp.1 s.world).length_le) hleft
  | call c next ih =>
    obtain ⟨hr, hafter⟩ := respond hkept hgrows h hn c
      (hleft.mono ((hp _).trace_run hresponds _))
    simp only [Procedure.run, hr]
    exact ih _ (hp _) hafter (Nat.le_trans hn (hresponds c s).length_le) hleft

end Kept

end Setting.SameBut

open Setting.SameBut

namespace Step

/-- The induction is on how deep steps may be nested. -/
theorem perform_sameBut (limit depth : Nat) (step : Step) (h : s.SameBut queue t)
    (hn : n ≤ s.world.trace.length)
    (hleft : (step.perform limit depth s).2.world.LeavesQueue queue n) :
    (step.perform limit depth t).1 = (step.perform limit depth s).1 ∧
      (step.perform limit depth s).2.SameBut queue (step.perform limit depth t).2 := by
  induction depth generalizing step s t with
  | zero => exact ⟨rfl, h⟩
  | succ depth ih =>
    have hkept : KeptBy queue n (leave limit depth) := fun step s t h hn hleft =>
      (ih step h hn hleft).2
    have hgrows : ∀ step s, s.world.trace <+: (leave limit depth step s).world.trace :=
      Contrast.remembers_leave limit depth
    have hbegun : n ≤ (s.happen (.began step)).world.trace.length :=
      Nat.le_trans hn (List.prefix_append _ _).length_le
    have hcourse : (step.course limit depth t).1 = (step.course limit depth s).1 ∧
        (step.course limit depth s).2.SameBut queue (step.course limit depth t).2 := by
      refine run hkept hgrows (step.remembers_procedure limit) (h.happen _) hbegun ?_
      rw [perform_world] at hleft
      exact hleft.mono (List.prefix_append _ _)
    obtain ⟨hanswer, hafter⟩ := hcourse
    refine ⟨by rw [perform_answer, perform_answer, hanswer], ?_, ?_⟩
    · rw [perform_world, perform_world, hanswer, hafter.world]
    · intro q hq
      by_cases hstep : step.isExtension = true
      · cases step with
        | extendScript additions => exact Script.extend_congr (h.script q hq) additions
        | _ => cases hstep
      · rw [Bool.not_eq_true] at hstep
        rw [perform_of_not_isExtension hstep, perform_of_not_isExtension hstep]
        exact hafter.script q hq

/-- A step from whose calls none is answered from a queue comes to the same whatever is in that queue. -/
theorem perform_of_unused (limit depth : Nat) (step : Step) (v : World) {script script' : Script}
    (hscript : ∀ q, q ≠ queue → script' q = script q)
    (hleft : (step.perform limit depth ⟨v, script⟩).2.world.LeavesQueue queue v.trace.length) :
    (step.perform limit depth ⟨v, script'⟩).1 = (step.perform limit depth ⟨v, script⟩).1 ∧
      (step.perform limit depth ⟨v, script⟩).2.SameBut queue
        (step.perform limit depth ⟨v, script'⟩).2 :=
  perform_sameBut limit depth step ⟨rfl, hscript⟩ (Nat.le_refl _) hleft

end Step

end EditorClient
