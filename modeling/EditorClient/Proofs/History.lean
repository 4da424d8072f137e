import EditorClient.World

/-! What a trace tells of activations. It says which session an activation made and what it answered,
and whether its bootstrap still has its controller or how that was given up. -/

namespace EditorClient

/-- Whether the bootstrap of an activation has its controller: not yet, at present, or no longer. It is
lost to the activation if it was given up while the activation was still under way, or if an activation
put its own controller in its place without stopping it. -/
inductive Hold where
  | pending
  | current
  | released
  | lost
deriving DecidableEq, Repr

structure Activation where
  bootstrap : Int
  context : Int
  session : Option Nat
  answer : Option Answer
  hold : Hold

/-- A deactivation that has returned, with the number of activations that had begun before it and the
places of those that had ended. -/
structure Deactivation where
  bootstrap : Int
  past : Nat
  ended : List Nat

/-- A step that has not ended, with the number of activations that had begun before it. -/
structure StepUnderWay where
  step : Step
  past : Nat

structure History where
  underWay : List StepUnderWay
  activations : List Activation
  deactivations : List Deactivation
  nested : Bool
  meddled : Bool

namespace Activation

def isUnderWay (a : Activation) : Bool := a.answer.isNone

/-- The answer is a controller, whether or not it runs. -/
def returned (a : Activation) : Bool :=
  match a.answer with
  | some (.ok _) => true
  | _ => false

end Activation

namespace Step

/-- Neither an activation nor a deactivation. -/
def isOther : Step → Bool
  | activate .. | deactivate _ => false
  | _ => true

/-- The session that a step starts or stops directly or gives to a controller. -/
def handled : Step → Option Int
  | startSession session | stopSession session | startController _ session _ => some session
  | _ => none

end Step

namespace History

def empty : History := ⟨[], [], [], false, false⟩

/-- Whether an activation has made the session at this index. -/
def made (h : History) (session : Nat) : Bool := h.activations.any fun a => a.session == some session

/-- Whether a step handles a session of an activation. -/
def isMeddling (h : History) (step : Step) : Bool :=
  match step.handled with
  | some number => 1 ≤ number && h.made (number.toNat - 1)
  | none => false

/-- The activation that a step is, if it is one. -/
def opened : Step → List Activation
  | .activate b c => [⟨b, c, none, none, .pending⟩]
  | _ => []

def begin (h : History) (step : Step) : History where
  underWay := ⟨step, h.activations.length⟩ :: h.underWay
  activations := h.activations ++ opened step
  deactivations := h.deactivations
  nested := h.nested || !h.underWay.isEmpty
  meddled := h.meddled || h.isMeddling step

/-- The first activations, as far as they have ended. -/
def ended (h : History) (past : Nat) : List Nat :=
  (List.range past).filter fun n => (h.activations[n]?).any fun a => !a.isUnderWay

/-- The innermost step under way ends. -/
def finish (h : History) (answer : Answer) : History :=
  match h.underWay with
  | [] => h
  | ⟨.activate _ _, n⟩ :: rest =>
    { h with
      underWay := rest
      activations := h.activations.modify n fun a => { a with answer := some answer } }
  | ⟨.deactivate b, n⟩ :: rest =>
    { h with
      underWay := rest
      deactivations := h.deactivations ++ (match answer with
        | .ok _ => [⟨b, n, h.ended n⟩]
        | .error _ => []) }
  | _ :: rest => { h with underWay := rest }

/-- A session is made for the innermost step under way. -/
def make (h : History) (session : Nat) : History :=
  match h.underWay with
  | ⟨.activate _ _, n⟩ :: _ =>
    { h with activations := h.activations.modify n fun a => { a with session := some session } }
  | _ => h

/-- The activation that is the innermost step under way, if that is one. -/
def innermost? (h : History) : Option Nat :=
  match h.underWay with
  | ⟨.activate _ _, n⟩ :: _ => some n
  | _ => none

/-- Whether the controller of the activation at this place is given up out of turn, either before the
activation has ended or for one that began earlier and has not stopped it. -/
def isSurprised (h : History) (taken : Bool) (n : Nat) (a : Activation) : Bool :=
  match h.innermost? with
  | some m => n != m && (a.isUnderWay || taken && decide (m < n))
  | none => a.isUnderWay

/-- What an activation comes to when a bootstrap takes the controller of the innermost activation, or
drops the one it has. -/
def rehold (h : History) (b : Int) (taken : Bool) (n : Nat) (a : Activation) : Activation :=
  if taken = true ∧ h.innermost? = some n then { a with hold := .current }
  else if a.bootstrap = b ∧ a.hold = .current then
    { a with hold := if h.isSurprised taken n a then .lost else .released }
  else a

def hold (h : History) (b : Int) (taken : Bool) : History :=
  { h with activations := h.activations.mapIdx (h.rehold b taken) }

def next (h : History) : Event → History
  | .began step => h.begin step
  | .ended answer => h.finish answer
  | .madeClient session => h.make session
  | .held b controller => h.hold (b + 1) controller.isSome
  | _ => h

def ofTrace (trace : List Event) : History := trace.foldl next empty

/-- What holds at first and is kept by each event holds of every trace. -/
theorem ofTrace_induct {P : History → Prop} (hempty : P empty) (hnext : ∀ h e, P h → P (h.next e))
    (trace : List Event) : P (ofTrace trace) := by
  have hfold : ∀ (trace : List Event) h, P h → P (trace.foldl next h) := by
    intro trace
    induction trace with
    | nil => exact fun _ hh => hh
    | cons e trace ih => exact fun h hh => ih _ (hnext h e hh)
  exact hfold trace empty hempty

end History

def World.history (w : World) : History := History.ofTrace w.trace

@[simp]
theorem World.history_happen (w : World) (e : Event) : (w.happen e).history = w.history.next e := by
  simp [World.history, World.happen, History.ofTrace]

/-- A list is no longer than one that has an element at each of its places. -/
theorem length_le_of_getElem? {α β : Type} {l : List α} {l' : List β}
    (h : ∀ (i : Nat) (x : α), l[i]? = some x → ∃ y, l'[i]? = some y) : l.length ≤ l'.length := by
  apply Nat.le_of_not_lt
  intro hlt
  obtain ⟨y, hy⟩ := h _ _ (List.getElem?_eq_getElem hlt)
  rw [List.getElem?_eq_none (Nat.le_refl _)] at hy
  cases hy

/-- How an activation looks later, as long as it has not ended meanwhile. -/
structure Activation.Evolves (a b : Activation) : Prop where
  bootstrap : b.bootstrap = a.bootstrap
  context : b.context = a.context
  session : b.session = a.session
  answer : b.answer = a.answer
  hold : b.hold = a.hold ∨ a.hold = .current

theorem Activation.Evolves.refl (a : Activation) : a.Evolves a := ⟨rfl, rfl, rfl, rfl, .inl rfl⟩

theorem Activation.Evolves.trans {a b c : Activation} (h : a.Evolves b) (h' : b.Evolves c) :
    a.Evolves c where
  bootstrap := h'.bootstrap.trans h.bootstrap
  context := h'.context.trans h.context
  session := h'.session.trans h.session
  answer := h'.answer.trans h.answer
  hold := by
    rcases h.hold with hb | ha
    · rw [← hb]
      exact h'.hold
    · exact .inr ha

theorem Activation.Evolves.lost {a b : Activation} (h : a.Evolves b) (ha : a.hold = .lost) :
    b.hold = .lost := by
  rcases h.hold with hb | hc
  · exact hb.trans ha
  · rw [ha] at hc
    cases hc

theorem Activation.Evolves.not_lost {a b : Activation} (h : a.Evolves b) (hb : b.hold ≠ .lost) :
    a.hold ≠ .lost := mt h.lost hb

theorem Activation.Evolves.returned {a b : Activation} (h : a.Evolves b) :
    b.returned = a.returned := by simp [Activation.returned, h.answer]

namespace History

theorem made_iff {h : History} {i : Nat} : h.made i = true ↔
    ∃ (n : Nat) (a : Activation), h.activations[n]? = some a ∧ a.session = some i := by
  simp only [made, List.any_eq_true, beq_iff_eq]
  constructor
  · rintro ⟨a, ha, hs⟩
    obtain ⟨n, hn⟩ := List.getElem?_of_mem ha
    exact ⟨n, a, hn, hs⟩
  · rintro ⟨n, a, ha, hs⟩
    exact ⟨a, List.mem_of_getElem? ha, hs⟩

/-- How a history looks later, when no step has ended that was under way. -/
structure Evolves (h h' : History) : Prop where
  kept : ∀ (n : Nat) (a : Activation), h.activations[n]? = some a →
    ∃ b, h'.activations[n]? = some b ∧ a.Evolves b
  meddled : h.meddled = true → h'.meddled = true

theorem Evolves.refl (h : History) : h.Evolves h := ⟨fun _ a ha => ⟨a, ha, .refl a⟩, id⟩

theorem Evolves.activation {h h' : History} (he : h.Evolves h') {n : Nat} {a b : Activation}
    (ha : h.activations[n]? = some a) (hb : h'.activations[n]? = some b) : a.Evolves b := by
  obtain ⟨b', hb', hab⟩ := he.kept n a ha
  rw [hb, Option.some.injEq] at hb'
  exact hb' ▸ hab

theorem Evolves.unmeddled {h h' : History} (he : h.Evolves h') (hm : h'.meddled = false) :
    h.meddled = false :=
  Bool.eq_false_iff.mpr fun hm' => Bool.false_ne_true (hm.symm.trans (he.meddled hm'))

theorem Evolves.length_le {h h' : History} (he : h.Evolves h') :
    h.activations.length ≤ h'.activations.length := by
  refine length_le_of_getElem? fun n a ha => ?_
  obtain ⟨b, hb, _⟩ := he.kept n a ha
  exact ⟨b, hb⟩

theorem Evolves.trans {h h' h'' : History} (he : h.Evolves h') (he' : h'.Evolves h'') :
    h.Evolves h'' where
  kept := by
    intro n a ha
    obtain ⟨b, hb, hab⟩ := he.kept n a ha
    obtain ⟨c, hc, hbc⟩ := he'.kept n b hb
    exact ⟨c, hc, hab.trans hbc⟩
  meddled := fun hm => he'.meddled (he.meddled hm)

theorem Evolves.made {h h' : History} (he : h.Evolves h') {i : Nat} (hm : h.made i = true) :
    h'.made i = true := by
  obtain ⟨n, a, ha, hs⟩ := made_iff.mp hm
  obtain ⟨b, hb, hab⟩ := he.kept n a ha
  exact made_iff.mpr ⟨n, b, hb, hab.session.trans hs⟩

@[simp]
theorem getElem?_hold (h : History) (b : Int) (taken : Bool) (n : Nat) :
    (h.hold b taken).activations[n]? = (h.activations[n]?).map (h.rehold b taken n) :=
  List.getElem?_mapIdx

theorem innermost?_activate {h : History} {b c : Int} {n : Nat} {rest : List StepUnderWay}
    (hu : h.underWay = ⟨.activate b c, n⟩ :: rest) : h.innermost? = some n := by
  simp only [innermost?, hu]

theorem innermost?_other {h : History} {step : Step} {n : Nat} {rest : List StepUnderWay}
    (hs : ∀ b c, step ≠ .activate b c) (hu : h.underWay = ⟨step, n⟩ :: rest) :
    h.innermost? = none := by
  unfold innermost?
  split
  · rename_i b c m rest' hu'
    rw [hu, List.cons.injEq, StepUnderWay.mk.injEq] at hu'
    exact absurd hu'.1.1 (hs b c)
  · rfl

/-- An activation evolves when a bootstrap changes its controller, unless it is the one that has made
the new one. -/
theorem rehold_evolves {h : History} {n : Nat} {taken : Bool}
    (hn : taken = true → h.innermost? ≠ some n) (b : Int) (a : Activation) :
    a.Evolves (h.rehold b taken n a) := by
  unfold rehold
  rw [if_neg fun hi => hn hi.1 hi.2]
  split
  · rename_i hc
    exact ⟨rfl, rfl, rfl, rfl, .inr hc.2⟩
  · exact .refl a

theorem rehold_of_ne {h : History} {n : Nat} {taken : Bool}
    (hn : taken = true → h.innermost? ≠ some n) {b : Int} {a : Activation} (hb : a.bootstrap ≠ b) :
    h.rehold b taken n a = a := by
  unfold rehold
  rw [if_neg fun hi => hn hi.1 hi.2, if_neg fun hc => hb hc.1]

/-- What is given up while it is under way is lost, unless it is the innermost activation that does so. -/
theorem rehold_lost {h : History} {n : Nat} (hn : h.innermost? ≠ some n) {a : Activation}
    (hopen : a.answer = none) (hc : a.hold = .current) (taken : Bool) :
    (h.rehold a.bootstrap taken n a).hold = .lost := by
  have hsurprised : h.isSurprised taken n a = true := by
    unfold isSurprised
    split
    · rename_i m hm
      have hne : n ≠ m := fun he => hn (he ▸ hm)
      simp [hne, Activation.isUnderWay, hopen]
    · simp [Activation.isUnderWay, hopen]
  unfold rehold
  rw [if_neg fun hi => hn hi.2, if_pos ⟨rfl, hc⟩, hsurprised]
  rfl

/-- Apart from its hold nothing of an activation changes. -/
theorem rehold_eq (h : History) (b : Int) (taken : Bool) (n : Nat) (a : Activation) :
    ∃ hold, h.rehold b taken n a = { a with hold := hold } := by
  unfold rehold
  split
  · exact ⟨_, rfl⟩
  · split
    · exact ⟨_, rfl⟩
    · exact ⟨a.hold, rfl⟩

theorem made_begin (h : History) (step : Step) (i : Nat) : (h.begin step).made i = h.made i := by
  cases step <;> simp [History.made, begin, opened]

theorem getElem?_begin {h : History} (step : Step) {n : Nat} {a : Activation}
    (ha : h.activations[n]? = some a) : (h.begin step).activations[n]? = some a := by
  rw [begin, List.getElem?_append_left (List.getElem?_eq_some_iff.mp ha).1, ha]

theorem getElem?_begin_activate (h : History) (b c : Int) :
    (h.begin (.activate b c)).activations[h.activations.length]? =
      some ⟨b, c, none, none, .pending⟩ := by
  simp [begin, opened]

theorem eq_of_getElem?_begin {h : History} {step : Step} {n : Nat} {a : Activation}
    (hn : h.activations.length ≤ n) (ha : (h.begin step).activations[n]? = some a) :
    ∃ b c, step = .activate b c ∧ n = h.activations.length ∧ a = ⟨b, c, none, none, .pending⟩ := by
  rw [begin, List.getElem?_append_right hn] at ha
  cases step with
  | activate b c =>
    have he : n = h.activations.length := by
      have := (List.getElem?_eq_some_iff.mp ha).1
      simp only [opened, List.length_singleton] at this
      omega
    subst he
    simp only [opened, Nat.sub_self, List.getElem?_cons_zero, Option.some.injEq] at ha
    exact ⟨b, c, rfl, rfl, ha.symm⟩
  | _ => simp [opened] at ha

/-- The activations are those of before, apart from new ones that have made no session and given no
answer yet. -/
def Inherits (h h' : History) : Prop :=
  ∀ (n : Nat) (a' : Activation), h'.activations[n]? = some a' →
    a'.session.isSome = true ∨ a'.answer.isSome = true → h.activations[n]? = some a'

theorem inherits_of_activations {h h' : History} (he : h'.activations = h.activations) :
    h.Inherits h' := fun _ _ ha' _ => he ▸ ha'

theorem inherits_begin (h : History) (step : Step) : h.Inherits (h.begin step) := by
  intro n a' ha' hsome
  by_cases hn : n < h.activations.length
  · have ha := getElem?_begin step (List.getElem?_eq_getElem hn)
    exact (List.getElem?_eq_getElem hn).trans (ha.symm.trans ha')
  · obtain ⟨b, c, _, _, rfl⟩ := eq_of_getElem?_begin (Nat.le_of_not_lt hn) ha'
    simp at hsome

theorem evolves_begin (h : History) (step : Step) : h.Evolves (h.begin step) where
  kept := fun _ a ha => ⟨a, getElem?_begin step ha, .refl a⟩
  meddled := fun hm => by simp [begin, hm]

/-- A history while a step is under way that began at another, apart from steps within it that have
not ended. -/
structure Within (h₀ : History) (step : Step) (h : History) : Prop where
  evolves : h₀.Evolves h
  underWay : h.underWay = ⟨step, h₀.activations.length⟩ :: h₀.underWay
  meddled : h₀.isMeddling step = true → h.meddled = true

theorem within_begin (h : History) (step : Step) : Within h step (h.begin step) where
  evolves := evolves_begin h step
  underWay := rfl
  meddled := fun hm => by simp [begin, hm]

theorem Within.trans {h₀ h h' : History} {step : Step} (hw : Within h₀ step h) (he : h.Evolves h')
    (hu : h'.underWay = h.underWay) : Within h₀ step h' where
  evolves := hw.evolves.trans he
  underWay := hu.trans hw.underWay
  meddled := fun hm => he.meddled (hw.meddled hm)

/-- The innermost activation can only be the step itself. -/
theorem Within.innermost?_ne {h₀ h : History} {step : Step} (hw : Within h₀ step h) {n : Nat}
    (hn : n < h₀.activations.length) : h.innermost? ≠ some n := by
  by_cases hs : ∃ b c, step = .activate b c
  · obtain ⟨b, c, rfl⟩ := hs
    rw [innermost?_activate hw.underWay, Ne, Option.some.injEq]
    omega
  · rw [innermost?_other (fun b c hs' => hs ⟨b, c, hs'⟩) hw.underWay]
    exact (Option.some_ne_none n).symm

/-- A change of the step's own activation only. -/
theorem Within.modify {h₀ h : History} {step : Step} (hw : Within h₀ step h)
    {f : Activation → Activation} {us : List StepUnderWay} {ds : List Deactivation} :
    h₀.Evolves { h with
      underWay := us
      activations := h.activations.modify h₀.activations.length f
      deactivations := ds } where
  kept := by
    intro n a ha
    obtain ⟨b, hb, hab⟩ := hw.evolves.kept n a ha
    have hn : n < h₀.activations.length := (List.getElem?_eq_some_iff.mp ha).1
    refine ⟨b, ?_, hab⟩
    rw [List.getElem?_modify, hb]
    simp [Nat.ne_of_gt hn]
  meddled := hw.evolves.meddled

theorem Within.hold {h₀ h : History} {step : Step} (hw : Within h₀ step h) (b : Int)
    (taken : Bool) : Within h₀ step (h.hold b taken) where
  evolves := by
    refine ⟨fun n a ha => ?_, hw.evolves.meddled⟩
    obtain ⟨a', ha', haa⟩ := hw.evolves.kept n a ha
    refine ⟨_, by rw [getElem?_hold, ha']; rfl, haa.trans (rehold_evolves ?_ b a')⟩
    exact fun _ => hw.innermost?_ne (List.getElem?_eq_some_iff.mp ha).1
  underWay := hw.underWay
  meddled := hw.meddled

theorem finish_activate {h : History} {b c : Int} {n : Nat} {rest : List StepUnderWay}
    (hu : h.underWay = ⟨.activate b c, n⟩ :: rest) (answer : Answer) :
    h.finish answer = { h with
      underWay := rest
      activations := h.activations.modify n fun a => { a with answer := some answer } } := by
  simp only [finish, hu]

theorem finish_deactivate {h : History} {b : Int} {n : Nat} {rest : List StepUnderWay}
    (hu : h.underWay = ⟨.deactivate b, n⟩ :: rest) (answer : Answer) :
    h.finish answer = { h with
      underWay := rest
      deactivations := h.deactivations ++ (match answer with
        | .ok _ => [⟨b, n, h.ended n⟩]
        | .error _ => []) } := by
  simp only [finish, hu]

theorem finish_other {h : History} {step : Step} {n : Nat} {rest : List StepUnderWay}
    (hs : step.isOther = true) (hu : h.underWay = ⟨step, n⟩ :: rest) (answer : Answer) :
    h.finish answer = { h with underWay := rest } := by
  cases step <;> simp_all [finish, Step.isOther]

theorem make_activate {h : History} {b c : Int} {n : Nat} {rest : List StepUnderWay}
    (hu : h.underWay = ⟨.activate b c, n⟩ :: rest) (session : Nat) :
    h.make session = { h with
      activations := h.activations.modify n fun a => { a with session := some session } } := by
  simp only [make, hu]

theorem make_other {h : History} {step : Step} {n : Nat} {rest : List StepUnderWay}
    (hs : step.isOther = true) (hu : h.underWay = ⟨step, n⟩ :: rest) (session : Nat) :
    h.make session = h := by
  cases step <;> simp_all [make, Step.isOther]

theorem Within.finish {h₀ h : History} {step : Step} (hw : Within h₀ step h) (answer : Answer) :
    h₀.Evolves (h.finish answer) ∧ (h.finish answer).underWay = h₀.underWay := by
  have hkept : ∀ us ds, h₀.Evolves { h with underWay := us, deactivations := ds } :=
    fun us ds => ⟨hw.evolves.kept, hw.evolves.meddled⟩
  by_cases hs : step.isOther = true
  · rw [finish_other hs hw.underWay]
    exact ⟨hkept _ _, rfl⟩
  · cases step with
    | activate b c =>
      rw [finish_activate hw.underWay]
      exact ⟨hw.modify, rfl⟩
    | deactivate b =>
      rw [finish_deactivate hw.underWay]
      exact ⟨hkept _ _, rfl⟩
    | _ => exact absurd rfl hs

theorem Within.make {h₀ h : History} {step : Step} (hw : Within h₀ step h) (session : Nat) :
    Within h₀ step (h.make session) := by
  by_cases hs : step.isOther = true
  · rwa [make_other hs hw.underWay]
  · cases step with
    | activate b c =>
      rw [make_activate hw.underWay]
      exact ⟨hw.modify, hw.underWay, hw.meddled⟩
    | deactivate b =>
      simp only [History.make, hw.underWay]
      exact hw
    | _ => exact absurd rfl hs

/-- What every trace leads to: an activation that has not ended is under way, and while nothing is
nested the only one under way is the newest and no controller is lost. -/
structure Orderly (h : History) : Prop where
  underWay : ∀ (n : Nat) (a : Activation), h.activations[n]? = some a → a.answer = none →
    ∃ b c, ⟨.activate b c, n⟩ ∈ h.underWay
  sequential : h.nested = false → ∀ a ∈ h.activations, a.hold ≠ .lost
  alone : h.nested = false → h.underWay.length ≤ 1
  newest : h.nested = false → ∀ b c n, ⟨.activate b c, n⟩ ∈ h.underWay →
    n + 1 = h.activations.length
  returned : ∀ d ∈ h.deactivations, ∀ n ∈ d.ended, ∃ a, h.activations[n]? = some a ∧
    a.answer.isSome = true

theorem orderly_empty : Orderly empty := by
  constructor <;> simp [empty]

theorem mem_ended {h : History} {past n : Nat} :
    n ∈ h.ended past ↔
      n < past ∧ ∃ a, h.activations[n]? = some a ∧ a.answer.isSome = true := by
  simp [ended, Activation.isUnderWay, Option.any_eq_true]

theorem Orderly.begin {h : History} (ho : h.Orderly) (step : Step) : (h.begin step).Orderly where
  underWay := by
    intro n a ha hopen
    by_cases hn : n < h.activations.length
    · have ha₀ := getElem?_begin step (List.getElem?_eq_getElem hn)
      rw [Option.some.inj (ha.symm.trans ha₀)] at hopen
      obtain ⟨b, c, hbc⟩ := ho.underWay n _ (List.getElem?_eq_getElem hn) hopen
      exact ⟨b, c, List.mem_cons_of_mem _ hbc⟩
    · obtain ⟨b, c, rfl, rfl, rfl⟩ := eq_of_getElem?_begin (Nat.le_of_not_lt hn) ha
      exact ⟨b, c, List.mem_cons_self ..⟩
  sequential := by
    intro hnest a ha
    simp only [History.begin, Bool.or_eq_false_iff] at hnest
    rcases List.mem_append.mp ha with ha | ha
    · exact ho.sequential hnest.1 a ha
    · cases step with
      | activate b c => simp_all [opened]
      | _ => simp [opened] at ha
  alone := by
    intro hnest
    simp only [History.begin, Bool.or_eq_false_iff, Bool.not_eq_false', List.isEmpty_iff] at hnest
    simp [History.begin, hnest.2]
  newest := by
    intro hnest b c n hmem
    simp only [History.begin, Bool.or_eq_false_iff, Bool.not_eq_false', List.isEmpty_iff] at hnest
    simp only [History.begin, hnest.2, List.mem_singleton, StepUnderWay.mk.injEq] at hmem
    simp [History.begin, ← hmem.1, hmem.2, opened]
  returned := by
    intro d hd n hn
    obtain ⟨a, ha, hans⟩ := ho.returned d hd n hn
    exact ⟨a, getElem?_begin step ha, hans⟩

/-- An activation that has ended is modified, or no more of one than its session. -/
theorem Orderly.modify {h : History} (ho : h.Orderly) {n : Nat} {f : Activation → Activation}
    (hf : ∀ a, (f a).hold = a.hold ∧ ((f a).answer = none → a.answer = none))
    {us : List StepUnderWay} (hus : us.Sublist h.underWay)
    (hopen : ∀ m a, (h.activations.modify n f)[m]? = some a → a.answer = none →
      ∃ b c, ⟨.activate b c, m⟩ ∈ us) :
    Orderly { h with underWay := us, activations := h.activations.modify n f } where
  underWay := hopen
  sequential := by
    intro hnest a ha
    obtain ⟨m, hm⟩ := List.getElem?_of_mem ha
    rw [List.getElem?_modify] at hm
    obtain ⟨a₀, ha₀, rfl⟩ := Option.map_eq_some_iff.mp hm
    have hlost := ho.sequential hnest a₀ (List.mem_of_getElem? ha₀)
    split
    · rwa [(hf a₀).1]
    · exact hlost
  alone := fun hnest => Nat.le_trans hus.length_le (ho.alone hnest)
  newest := by
    intro hnest b c m hm
    simpa using ho.newest hnest b c m (hus.subset hm)
  returned := by
    intro d hd m hm
    obtain ⟨a, ha, hans⟩ := ho.returned d hd m hm
    refine ⟨_, by rw [List.getElem?_modify, ha]; rfl, ?_⟩
    split
    · rw [Option.isSome_iff_ne_none] at hans ⊢
      exact mt (hf a).2 hans
    · exact hans

/-- A bootstrap takes or drops a controller. As long as nothing is nested the only activation under way
is the one that does so. -/
theorem Orderly.hold {h : History} (ho : h.Orderly) (b : Int) (taken : Bool) :
    (h.hold b taken).Orderly where
  underWay := by
    intro n a ha hopen
    obtain ⟨a₀, ha₀, rfl⟩ := Option.map_eq_some_iff.mp (getElem?_hold h b taken n ▸ ha)
    obtain ⟨hold, he⟩ := h.rehold_eq b taken n a₀
    rw [he] at hopen
    exact ho.underWay n a₀ ha₀ hopen
  sequential := by
    intro hnest a ha
    obtain ⟨n, hn⟩ := List.getElem?_of_mem ha
    obtain ⟨a₀, ha₀, rfl⟩ := Option.map_eq_some_iff.mp (getElem?_hold h b taken n ▸ hn)
    have hlost := ho.sequential hnest a₀ (List.mem_of_getElem? ha₀)
    have hinner : a₀.isUnderWay = true → h.innermost? = some n := by
      intro hopen
      obtain ⟨b, c, hmem⟩ := ho.underWay n a₀ ha₀ (by simpa [Activation.isUnderWay] using hopen)
      obtain ⟨u, hu⟩ := List.length_eq_one_iff.mp
        (Nat.le_antisymm (ho.alone hnest) (List.length_pos_of_mem hmem))
      rw [hu, List.mem_singleton] at hmem
      exact innermost?_activate (hmem ▸ hu)
    have hsurprised : h.isSurprised taken n a₀ = false := by
      unfold isSurprised
      split
      · rename_i m hm
        by_cases hnm : n = m
        · simp [hnm]
        · have hopen : a₀.isUnderWay = false := Bool.eq_false_iff.mpr fun hopen =>
            hnm (Option.some.inj ((hinner hopen).symm.trans hm))
          unfold innermost? at hm
          split at hm
          · rename_i b c m' rest hu
            obtain rfl := Option.some.inj hm
            have hnewest := ho.newest hnest b c m' (by rw [hu]; exact List.mem_cons_self ..)
            have hlt := (List.getElem?_eq_some_iff.mp ha₀).1
            simp [hopen, show ¬m' < n by omega]
          · cases hm
      · rename_i hm
        exact Bool.eq_false_iff.mpr fun hopen => Option.some_ne_none n ((hinner hopen).symm.trans hm)
    unfold rehold
    split
    · exact nofun
    · split
      · simp [hsurprised]
      · exact hlost
  alone := ho.alone
  newest := by
    intro hnest b c n hn
    simpa [History.hold] using ho.newest hnest b c n hn
  returned := by
    intro d hd n hn
    obtain ⟨a, ha, hans⟩ := ho.returned d hd n hn
    obtain ⟨hold, he⟩ := h.rehold_eq b taken n a
    exact ⟨_, by rw [getElem?_hold, ha]; rfl, by rw [he]; exact hans⟩

/-- The end of a step that is no activation, and of a deactivation that has returned. -/
theorem Orderly.finish_other {h : History} (ho : h.Orderly) {rest : List StepUnderWay}
    (hrest : rest.Sublist h.underWay)
    (hopen : ∀ (n : Nat) (a : Activation), h.activations[n]? = some a → a.answer = none →
      ∃ b c, ⟨.activate b c, n⟩ ∈ rest) {ds : List Deactivation}
    (hds : ∀ d ∈ ds, ∃ past, d.ended = h.ended past) :
    Orderly { h with underWay := rest, deactivations := h.deactivations ++ ds } where
  underWay := hopen
  sequential := ho.sequential
  alone := fun hnest => Nat.le_trans hrest.length_le (ho.alone hnest)
  newest := fun hnest b c n hn => ho.newest hnest b c n (hrest.subset hn)
  returned := by
    intro d hd n hn
    rcases List.mem_append.mp hd with hd | hd
    · exact ho.returned d hd n hn
    · obtain ⟨past, he⟩ := hds d hd
      exact (mem_ended.mp (he ▸ hn)).2

theorem Orderly.finish {h : History} (ho : h.Orderly) (answer : Answer) :
    (h.finish answer).Orderly := by
  rcases hu : h.underWay with _ | ⟨⟨step, p⟩, rest⟩
  · simpa only [History.finish, hu] using ho
  have hrest : rest.Sublist h.underWay := by
    rw [hu]
    exact List.sublist_cons_self _ _
  -- The frame of an activation that is still under way is not the one that goes.
  have hkeep : ∀ {n : Nat} {a : Activation}, h.activations[n]? = some a → a.answer = none →
      (∀ b c, step = .activate b c → p ≠ n) → ∃ b c, ⟨.activate b c, n⟩ ∈ rest := by
    intro n a ha hans hne
    obtain ⟨b, c, hmem⟩ := ho.underWay n a ha hans
    rw [hu] at hmem
    rcases List.mem_cons.mp hmem with he | hmem
    · rw [StepUnderWay.mk.injEq] at he
      exact absurd he.2.symm (hne b c he.1.symm)
    · exact ⟨b, c, hmem⟩
  cases step with
  | activate b c =>
    rw [finish_activate hu]
    refine ho.modify (f := fun a => { a with answer := some answer }) (fun a => ⟨rfl, nofun⟩)
      hrest fun m a ha hans => ?_
    rw [List.getElem?_modify] at ha
    obtain ⟨a₀, ha₀, rfl⟩ := Option.map_eq_some_iff.mp ha
    by_cases hm : p = m
    · simp [hm] at hans
    · simp only [hm, if_false] at hans
      exact hkeep ha₀ hans fun _ _ _ => hm
  | deactivate b =>
    have hopen := fun n a (ha : h.activations[n]? = some a) hans => hkeep ha hans nofun
    rw [History.finish_deactivate hu]
    refine ho.finish_other hrest hopen fun d hd => ?_
    cases answer with
    | ok r => exact ⟨p, by rw [List.mem_singleton.mp hd]⟩
    | error f => cases hd
  | _ =>
    rw [History.finish_other rfl hu]
    have hnone : ∀ d ∈ ([] : List Deactivation), ∃ past, d.ended = h.ended past := by simp
    simpa using ho.finish_other hrest (fun n a ha hans => hkeep ha hans nofun) hnone

theorem Orderly.make {h : History} (ho : h.Orderly) (session : Nat) : (h.make session).Orderly := by
  unfold History.make
  split
  · rename_i n _ hu
    refine ho.modify (f := fun a => { a with session := some session }) (fun a => ⟨rfl, id⟩)
      (List.Sublist.refl _) fun m a ha hans => ?_
    rw [List.getElem?_modify] at ha
    obtain ⟨a₀, ha₀, rfl⟩ := Option.map_eq_some_iff.mp ha
    refine ho.underWay m a₀ ha₀ ?_
    split at hans
    · exact hans
    · exact hans
  · exact ho

theorem orderly_ofTrace (trace : List Event) : (ofTrace trace).Orderly := by
  refine ofTrace_induct orderly_empty (fun h e ho => ?_) trace
  cases e with
  | began step => exact ho.begin step
  | ended answer => exact ho.finish answer
  | madeClient session => exact ho.make session
  | held b controller => exact ho.hold _ _
  | _ => exact ho

end History

end EditorClient
