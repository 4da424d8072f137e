import EditorClient.Proofs.OwnershipRun

/-! Which sessions run, and who holds them: after the steps of a run, after a deactivation, and at
every moment at which a host may look. -/

namespace EditorClient

namespace World

/-- The controller is in its running state and holds the session. -/
def Controls (w : World) (k i : Nat) : Prop :=
  ∃ c, w.controllers[k]? = some c ∧ c.state = .running ∧ c.session = some i

/-- The session is one that an activation of the bootstrap made, and it runs. -/
structure RunsFor (w : World) (b : Int) (a : Activation) (i : Nat) : Prop where
  made : a ∈ w.history.activations
  bootstrap : a.bootstrap = b
  session : a.session = some i
  runs : w.Runs i

/-- The activation has returned, or no log has refused to say that a session like its own has started. -/
def Settled (w : World) (a : Activation) (i : Nat) : Prop := a.returned = true ∨ w.Unrefused i

variable {but skip : Option Nat} {w : World} {a : Activation} {i k : Nat}

theorem Registry.controls_iff (h : w.Registry but) : w.Controls k i ↔ w.Holds k i := by
  constructor
  · rintro ⟨c, hc, _, hs⟩
    exact ⟨c, hc, hs⟩
  · rintro ⟨c, hc, hs⟩
    exact ⟨c, hc, (h.running k c hc).mpr (by rw [hs]; rfl), hs⟩

theorem Sound.owns (h : w.Sound none none) (ha : a ∈ w.history.activations)
    (hi : a.session = some i) : w.Owns none a i := by
  obtain ⟨n, hn⟩ := List.getElem?_of_mem ha
  exact h.owns_at hn hi

/-- A settled session that runs is in the hands of the controller that its activation answered. -/
theorem Sound.controlled (h : w.Sound none none) (ha : a ∈ w.history.activations)
    (hi : a.session = some i) (hr : w.Runs i) (hset : w.Settled a i) :
    ∃ k, a.answer = some (.ok (.activated k)) ∧ w.Controls k i ∧
      (a.hold = .lost ∨ a.hold = .current ∧ w.current (a.bootstrap.toNat - 1) = some k) := by
  rcases (h.owns ha hi).running hr with ⟨hret, hlog⟩ | ⟨k, hans, hk, hcur⟩
  · rcases hset with hret' | hlog'
    · rw [hret] at hret'
      cases hret'
    · exact absurd hlog' hlog
  · exact ⟨k, hans, h.registry.controls_iff.mpr hk, hcur nofun⟩

theorem Sound.answer_of_controls (h : w.Sound none none) (ha : a ∈ w.history.activations)
    (hi : a.session = some i) (hk : w.Controls k i) : a.answer = some (.ok (.activated k)) :=
  ((h.owns ha hi).held k (h.registry.controls_iff.mp hk)).1

theorem Sound.not_controls_of_not_settled (h : w.Sound none none) (ha : a ∈ w.history.activations)
    (hi : a.session = some i) (hset : ¬w.Settled a i) (k : Nat) : ¬w.Controls k i := by
  intro hk
  exact hset (.inl (by simp [Activation.returned, h.answer_of_controls ha hi hk]))

theorem Sound.registered (h : w.Sound none none) (ha : a ∈ w.history.activations)
    (hans : a.answer = some (.ok (.activated k))) (hk : w.Controls k i) :
    w.Registered a.context k := by
  obtain ⟨c, hc, hrun, _⟩ := hk
  obtain ⟨c', hc', _, _, hreg⟩ := h.registry.answered a ha k hans
  rw [hc, Option.some.injEq] at hc'
  exact hreg (hc' ▸ hrun) nofun

theorem exists_runsFor {b : Int}
    (ha : (w.history.activations.any fun a => a.bootstrap == b && a.session == some i) = true)
    (hr : w.Runs i) : ∃ a, w.RunsFor b a i := by
  simp only [List.any_eq_true, Bool.and_eq_true, beq_iff_eq] at ha
  obtain ⟨a, hmem, hb, hi⟩ := ha
  exact ⟨a, hmem, hb, hi, hr⟩

theorem not_controls_of_all (h : w.controllers.all (fun c => c.session.isNone) = true) (k : Nat) :
    ¬w.Controls k i := by
  rintro ⟨c, hc, _, hs⟩
  have hnone := List.all_eq_true.mp h c (List.mem_of_getElem? hc)
  simp [hs] at hnone

end World

/-- A host in development makes a context and a bootstrap. -/
def openingSteps (notifier : Notifier) : List Step :=
  [.newContext (.path ⟨.none, []⟩) (.member (.text "development")) .null notifier,
    .newBootstrap none]

section SingleOwner

variable (limit depth : Nat) (directory : String) (log : LogDirectory) (script : Script)
  (steps : List Step)

/-- As long as no step begins within another, at most one settled session of each bootstrap runs,
and the bootstrap knows the controller that holds it. A session that runs unsettled has none. -/
theorem runsFor_unique_of_sequential {w : World}
    (hw : w = (Step.leaveAll limit depth steps (.start directory log script)).world)
    (hseq : w.history.nested = false) (b : Int) :
    (∀ a a' i i', w.RunsFor b a i → w.RunsFor b a' i' → w.Settled a i → w.Settled a' i' → i = i') ∧
      ∀ a i, w.RunsFor b a i →
        (w.Settled a i → ∃ k, a.answer = some (.ok (.activated k)) ∧
          w.current (b.toNat - 1) = some k ∧ w.Controls k i) ∧
        (¬w.Settled a i → ∀ k, ¬w.Controls k i) := by
  have hsound := hw ▸ Step.sound_leaveAll limit depth directory log script steps
  have howner : ∀ a i, w.RunsFor b a i → w.Settled a i →
      ∃ k, a.answer = some (.ok (.activated k)) ∧ w.current (b.toNat - 1) = some k ∧
        w.Controls k i := by
    intro a i ha hset
    obtain ⟨k, hans, hk, hcur⟩ := hsound.controlled ha.made ha.session ha.runs hset
    have hlost := (History.orderly_ofTrace w.trace).sequential hseq a ha.made
    exact ⟨k, hans, ha.bootstrap ▸ (hcur.resolve_left hlost).2, hk⟩
  refine ⟨fun a a' i i' ha ha' hset hset' => ?_, fun a i ha => ⟨howner a i ha, fun hset => ?_⟩⟩
  · obtain ⟨k, _, hcur, hk⟩ := howner a i ha hset
    obtain ⟨k', _, hcur', hk'⟩ := howner a' i' ha' hset'
    have hkk : k = k' := Option.some.inj (hcur.symm.trans hcur')
    obtain ⟨c, hc, _, hs⟩ := hk
    obtain ⟨c', hc', _, hs'⟩ := hk'
    rw [← hkk, hc, Option.some.injEq] at hc'
    rw [← hc', hs, Option.some.injEq] at hs'
    exact hs'
  · exact hsound.not_controls_of_not_settled ha.made ha.session hset

theorem runsFor_unique_reactivated :
    let w := (Step.leaveAll 9 9 (openingSteps .absent ++ [.activate 1 1, .activate 1 1])
      (.unlogged .empty)).world
    w.history.nested = false ∧ (∃ a i, w.RunsFor 1 a i ∧ w.Settled a i) ∧
      ∀ a a' i i', w.RunsFor 1 a i → w.RunsFor 1 a' i' → w.Settled a i → w.Settled a' i' →
        i = i' := by
  refine ⟨by decide +kernel, ⟨⟨1, 1, some 1, some (.ok (.activated 1)), .current⟩, 1, ?_, .inl rfl⟩, ?_⟩
  · exact ⟨List.mem_of_getElem? (i := 1) (by rfl), rfl, rfl, _, rfl, by decide +kernel⟩
  · exact (runsFor_unique_of_sequential 9 9 "" _ .empty _ rfl (by decide +kernel) 1).1

/-- A channel whose file has a name of 256 bytes. -/
def longNamed : Config :=
  { Config.standard with
    options := { SessionOptions.standard with
      channelName := String.ofList (List.replicate 252 '0') } }

/-- An activation that can neither log its session nor tell the user. -/
def unloggedSteps : List Step :=
  openingSteps .host ++ [.newConfig longNamed, .newBootstrap (some 1), .activate 2 1]

def unloggedStart : Setting :=
  .start "" (.usable "logs") (.once (.notify .error) [] (some (.raised .runtime "")))

/-- The session is initialized when its start cannot be logged, and the notice of that fails before
the session is released. -/
theorem unlogged_runs :
    let w := (Step.leaveAll 9 9 unloggedSteps unloggedStart).world
    (w.history.nested = false ∧ w.history.meddled = false) ∧
      (w.history.activations.any fun a => a.bootstrap == 2 && a.session == some 0) = true ∧
      w.Runs 0 ∧ w.controllers.all (fun c => c.session.isNone) = true := by
  decide +kernel

theorem runsFor_uncontrolled :
    let w := (Step.leaveAll 9 9 unloggedSteps unloggedStart).world
    w.history.nested = false ∧ (∃ a, w.RunsFor 2 a 0) ∧ ∀ k, ¬w.Controls k 0 := by
  intro w
  obtain ⟨⟨hseq, _⟩, hmade, hruns, hfree⟩ := unlogged_runs
  exact ⟨hseq, World.exists_runsFor hmade hruns, World.not_controls_of_all hfree⟩

end SingleOwner

section Deactivation

theorem History.deactivations_subset_next (h : History) (e : Event) :
    h.deactivations ⊆ (h.next e).deactivations := by
  cases e with
  | began step => exact List.Subset.refl _
  | ended answer =>
    change h.deactivations ⊆ (h.finish answer).deactivations
    unfold History.finish
    split
    · exact List.Subset.refl _
    · exact List.Subset.refl _
    · exact List.subset_append_left _ _
    · exact List.Subset.refl _
  | madeClient session =>
    change h.deactivations ⊆ (h.make session).deactivations
    unfold History.make
    split
    · exact List.Subset.refl _
    · exact List.Subset.refl _
  | _ => exact List.Subset.refl _

/-- A deactivation that has returned is not forgotten. -/
theorem History.deactivations_subset_append (t es : List Event) :
    (History.ofTrace t).deactivations ⊆ (History.ofTrace (t ++ es)).deactivations := by
  unfold History.ofTrace
  rw [List.foldl_append]
  generalize t.foldl History.next History.empty = h
  induction es generalizing h with
  | nil => exact List.Subset.refl _
  | cons e es ih => exact List.Subset.trans (h.deactivations_subset_next e) (ih (h.next e))

/-- Once a deactivation has returned, no session of an activation of its bootstrap that had ended before
it runs any more, unless that activation has lost its controller. -/
theorem not_runs_after_deactivate (limit depth : Nat) (directory : String) (log : LogDirectory)
    (script : Script) (steps : List Step) {m : Moment}
    (hm : m ∈ Step.runMoments limit depth steps (.start directory log script))
    {before after : List Event} (ht : m.world.trace = before ++ after) {d : Deactivation}
    (hd : d ∈ (History.ofTrace before).deactivations) {n : Nat} {a : Activation}
    (hn : n ∈ d.ended) (ha : m.world.history.activations[n]? = some a)
    (hb : a.bootstrap = d.bootstrap) (hlost : a.hold ≠ .lost) {i : Nat}
    (hi : a.session = some i) (hset : m.world.Settled a i) : ¬m.world.Runs i := by
  have hsound := Step.sound_moments limit depth directory log script steps hm
  have hmem : d ∈ m.world.history.deactivations := by
    rw [World.history, ht]
    exact History.deactivations_subset_append before after hd
  exact hsound.undone d hmem n a i hn ha hb hlost hi hset

theorem not_runs_after_reactivated :
    let moments := Step.runMoments 9 9
      (openingSteps .absent ++ [.activate 1 1, .deactivate 1, .activate 1 1]) (.unlogged .empty)
    ∃ m ∈ moments, m.world.history.deactivations.length = 1 ∧ m.world.Runs 1 ∧ ¬m.world.Runs 0 := by
  intro moments
  refine ⟨moments.get ⟨41, by decide +kernel⟩, List.get_mem .., by decide +kernel,
    by decide +kernel, ?_⟩
  exact not_runs_after_deactivate 9 9 "" _ .empty _ (List.get_mem ..) (List.append_nil _).symm
    (d := ⟨1, 1, [0]⟩) (n := 0) (a := ⟨1, 1, some 0, some (.ok (.activated 0)), .released⟩)
    (List.mem_of_getElem? (i := 0) (by rfl)) (by decide) (by rfl) rfl (by simp) rfl (.inl rfl)

/-- A session of an activation that began before a deactivation of its bootstrap outlives that. -/
def World.Outlives (w : World) (i : Nat) (d : Deactivation) : Prop :=
  ∃ n a, n < d.past ∧ w.history.activations[n]? = some a ∧ a.bootstrap = d.bootstrap ∧
    a.session = some i ∧ w.Runs i

theorem World.exists_outlives {w : World} {i : Nat}
    (ha : (w.history.deactivations.any fun d => (w.history.activations.take d.past).any fun a =>
      a.bootstrap == d.bootstrap && a.session == some i) = true)
    (hr : w.Runs i) : ∃ d ∈ w.history.deactivations, w.Outlives i d := by
  simp only [List.any_eq_true, Bool.and_eq_true, beq_iff_eq] at ha
  obtain ⟨d, hd, a, ha, hb, hi⟩ := ha
  obtain ⟨n, hn⟩ := List.getElem?_of_mem ha
  rw [List.getElem?_take] at hn
  split at hn
  · rename_i hlt
    exact ⟨d, hd, n, a, hlt, hn, hb, hi, hr⟩
  · cases hn

/-- A controller that has not got as far as running has nothing to stop, and a bootstrap knows no
more than one controller. So a session outlives a deactivation that comes while it starts, and one
that comes after its activation had another within it, or was within another itself. -/
theorem exists_outlives_deactivation :
    let left := fun queue meanwhile steps => (Step.leaveAll 9 9 (openingSteps .absent ++ steps)
      (.unlogged (.once queue [meanwhile] none))).world
    let stopped := left .connect (.deactivate 1) [.activate 1 1]
    let outer := left .connect (.activate 1 1) [.activate 1 1, .deactivate 1]
    let inner := left .stopClient (.activate 1 1) [.activate 1 1, .activate 1 1, .deactivate 1]
    (∃ d ∈ stopped.history.deactivations, stopped.Outlives 0 d) ∧
      (∃ d ∈ outer.history.deactivations, outer.Outlives 0 d) ∧
        ∃ d ∈ inner.history.deactivations, inner.Outlives 1 d :=
  ⟨World.exists_outlives (by decide +kernel) (by decide +kernel),
    World.exists_outlives (by decide +kernel) (by decide +kernel),
    World.exists_outlives (by decide +kernel) (by decide +kernel)⟩

end Deactivation

section Cleanup

/-- The context whose disposal has just returned. -/
def Moment.disposed : Moment → Option Int
  | ends (.disposeContext c) (.ok _) _ => some c
  | _ => none

theorem Moment.eq_of_disposed {m : Moment} {c : Int} (h : m.disposed = some c) :
    ∃ r, m = .ends (.disposeContext c) (.ok r) m.world := by
  unfold disposed at h
  split at h
  · rename_i r w
    rw [Option.some.injEq] at h
    exact ⟨r, by rw [h]; rfl⟩
  · cases h

/-- As long as no step handles the sessions of activations directly, a settled session runs just as
long as its controller holds it, and then one subscription of its context stops that controller.
Hence a context that has been disposed has no activation whose controller runs. -/
theorem controls_registered (limit depth : Nat) (directory : String) (log : LogDirectory)
    (script : Script) (steps : List Step) {m : Moment}
    (hm : m ∈ Step.runMoments limit depth steps (.start directory log script)) :
    (m.world.history.meddled = false →
      ∀ a ∈ m.world.history.activations, ∀ i, a.session = some i →
        (∀ k, m.world.Controls k i → a.answer = some (.ok (.activated k)) ∧ m.world.Runs i ∧
          m.world.Registered a.context k) ∧
        (m.world.Runs i → m.world.Settled a i →
          ∃ k, a.answer = some (.ok (.activated k)) ∧ m.world.Controls k i) ∧
        (¬m.world.Settled a i → ∀ k, ¬m.world.Controls k i)) ∧
    ∀ c, m.disposed = some c → ∀ a ∈ m.world.history.activations, a.context = c → ∀ k,
      (a.answer = some (.ok (.activated k)) →
        ∀ x, m.world.controllers[k]? = some x → x.state ≠ .running) ∧
      ∀ i, a.session = some i → ¬m.world.Controls k i := by
  have hsound := Step.sound_moments limit depth directory log script steps hm
  refine ⟨fun hmed a ha i hi => ⟨fun k hk => ?_, fun hr hset => ?_, fun hset => ?_⟩, ?_⟩
  · have hans := hsound.answer_of_controls ha hi hk
    have hruns := ((hsound.owns ha hi).held k (hsound.registry.controls_iff.mp hk)).2 hmed
    exact ⟨hans, hruns, hsound.registered ha hans hk⟩
  · obtain ⟨k, hans, hk, _⟩ := hsound.controlled ha hi hr hset
    exact ⟨k, hans, hk⟩
  · exact hsound.not_controls_of_not_settled ha hi hset
  · rintro c hc a ha rfl k
    obtain ⟨r, he⟩ := Moment.eq_of_disposed hc
    obtain ⟨x, hx, hnil⟩ := Step.drained_moments limit depth directory log script steps (he ▸ hm)
      a.context r rfl rfl
    have hunbound : ¬m.world.Registered a.context k := by
      rintro ⟨d, y, hd, _⟩
      simp [World.bound, hx, hnil] at hd
    have hidle : a.answer = some (.ok (.activated k)) →
        ∀ x, m.world.controllers[k]? = some x → x.state ≠ .running := by
      intro hans x hx hrun
      obtain ⟨i, hs⟩ := Option.isSome_iff_exists.mp ((hsound.registry.running k x hx).mp hrun)
      exact hunbound (hsound.registered ha hans ⟨x, hx, hrun, hs⟩)
    refine ⟨hidle, fun i hi hk => ?_⟩
    have hans := hsound.answer_of_controls ha hi hk
    obtain ⟨x, hx, hrun, _⟩ := hk
    exact hidle hans x hx hrun

/-- First a context has a controller registered that runs, and then it is disposed. -/
theorem controls_registered_disposed :
    let moments := Step.runMoments 9 9 (openingSteps .absent ++ [.activate 1 1, .disposeContext 1])
      (.unlogged .empty)
    (∃ m ∈ moments, m.world.history.meddled = false ∧ m.world.Runs 0 ∧ m.world.Registered 1 0) ∧
      ∃ m ∈ moments, m.disposed = some 1 ∧ ¬m.world.Controls 0 0 := by
  intro moments
  refine ⟨⟨moments.get ⟨17, by decide +kernel⟩, List.get_mem .., ?_⟩,
    moments.get ⟨27, by decide +kernel⟩, List.get_mem .., by decide +kernel, ?_⟩
  · have hmed : (moments.get ⟨17, by decide +kernel⟩).world.history.meddled = false := by
      decide +kernel
    have h := (controls_registered 9 9 "" _ .empty _ (List.get_mem moments ⟨17, by decide +kernel⟩)).1
      hmed ⟨1, 1, some 0, some (.ok (.activated 0)), .current⟩
      (List.mem_of_getElem? (i := 0) (by rfl)) 0 rfl
    have hruns : (moments.get ⟨17, by decide +kernel⟩).world.Runs 0 :=
      by decide +kernel
    obtain ⟨k, hans, hk⟩ := h.2.1 hruns (.inl rfl)
    cases hans
    exact ⟨hmed, hruns, (h.1 0 hk).2.2⟩
  · have h := (controls_registered 9 9 "" _ .empty _ (List.get_mem moments ⟨27, by decide +kernel⟩)).2
      1 (by decide +kernel)
    have hmade : ((moments.get ⟨27, by decide +kernel⟩).world.history.activations.any fun a =>
        a.context == 1 && a.session == some 0) = true := by
      decide +kernel
    simp only [List.any_eq_true, Bool.and_eq_true, beq_iff_eq] at hmade
    obtain ⟨a, ha, hctx, hi⟩ := hmade
    exact (h a ha hctx 0).2 0 hi

/-- At the end of a run nobody holds a session that an activation made and that runs. -/
theorem exists_runs_uncontrolled :
    ∃ m ∈ Step.runMoments 9 9 unloggedSteps unloggedStart, m.world.history.meddled = false ∧
      (∃ a, m.world.RunsFor 2 a 0) ∧ ∀ k, ¬m.world.Controls k 0 := by
  obtain ⟨m, hm, hw⟩ := Step.exists_moment_leaveAll 9 (show 9 ≠ 0 by decide) unloggedSteps
    (List.append_ne_nil_of_left_ne_nil (List.cons_ne_nil _ _) _) unloggedStart
  obtain ⟨⟨_, hmed⟩, hmade, hruns, hfree⟩ := unlogged_runs
  rw [← hw] at hmed hmade hruns hfree
  exact ⟨m, hm, hmed, World.exists_runsFor hmade hruns, World.not_controls_of_all hfree⟩

end Cleanup

end EditorClient
