import EditorClient.Proofs.SessionSteps
import EditorClient.Proofs.StepEvolution

/-! What a procedure makes of the moments before it. The world does not tell which calls have
returned and with what result; a chronicle has every moment so far beside the world. -/

namespace EditorClient

structure Chronicle where
  past : List Moment
  world : World

namespace Chronicle

def change (h : Chronicle) (f : World → World) : Chronicle := ⟨h.past, f h.world⟩

def add (h : Chronicle) (m : Moment) : Chronicle := ⟨h.past ++ [m], m.world⟩

def begins (h : Chronicle) (step : Step) : Chronicle :=
  h.add (.begins step (h.world.happen (.began step)))

def ends (h : Chronicle) (step : Step) (answer : Answer) : Chronicle :=
  h.add (.ends step answer (h.world.happen (.ended answer)))

def calls (h : Chronicle) (c : Call) : Chronicle := h.add (.calls c (h.world.happen (.called c)))

def returns (h : Chronicle) (c : Call) (result : Except Fault Reply) : Chronicle :=
  h.add (.returns c result h.world)

/-- The beginning of a run. -/
def start (directory : String) (log : LogDirectory) : Chronicle := ⟨[], .initial directory log⟩

variable (h : Chronicle)

@[simp]
theorem world_change (f : World → World) : (h.change f).world = f h.world := rfl

@[simp]
theorem past_add (m : Moment) : (h.add m).past = h.past ++ [m] := rfl

@[simp]
theorem world_add (m : Moment) : (h.add m).world = m.world := rfl

end Chronicle

/-- A call may come to anything that is expected of it, and its return is then added. -/
def Passage.ofChronicles (inv : Chronicle → Prop) (rely : Chronicle → Chronicle → Prop) :
    Passage Chronicle where
  world := Chronicle.world
  update := fun f h => h.change f
  call := fun c h post =>
    inv (h.calls c) ∧ ∀ r h', inv h' → rely (h.calls c) h' → post r (h'.returns c r)
  mono := fun hp h => ⟨h.1, fun r h' hi hr => hp r _ (h.2 r h' hi hr)⟩

namespace Procedure

variable {α β : Type}

/-- As for `Ensures`, but of moments and world. A call is made in a chronicle with an invariant and
returns in such a chronicle, which is then longer by its return. -/
def Follows (inv : Chronicle → Prop) (rely : Chronicle → Chronicle → Prop) (p : Procedure α)
    (h : Chronicle) (post : Except Fault α → Chronicle → Prop) : Prop :=
  p.Leads (.ofChronicles inv rely) h post

variable {inv : Chronicle → Prop} {rely : Chronicle → Chronicle → Prop} {h : Chronicle}

theorem Follows.mono {p : Procedure α} {post post' : Except Fault α → Chronicle → Prop}
    (hf : p.Follows inv rely h post) (hp : ∀ r h', post r h' → post' r h') :
    p.Follows inv rely h post' := Leads.mono hf hp

@[simp]
theorem follows_bind (p : Procedure α) (k : α → Procedure β)
    (post : Except Fault β → Chronicle → Prop) :
    (p >>= k).Follows inv rely h post ↔
      p.Follows inv rely h (onOk (fun a h' => (k a).Follows inv rely h' post) post) :=
  leads_bind p k post

section Rules

variable {post : Except Fault α → Chronicle → Prop}

@[simp]
theorem follows_pure (a : α) :
    (pure a : Procedure α).Follows inv rely h post ↔ post (.ok a) h := leads_pure a

@[simp]
theorem follows_throw (f : Fault) :
    (throw f : Procedure α).Follows inv rely h post ↔ post (.error f) h := leads_throw f

@[simp]
theorem follows_ask (f : World → α) :
    (ask f).Follows inv rely h post ↔ post (.ok (f h.world)) h := leads_ask f

@[simp]
theorem follows_change (f : World → World) (post : Except Fault Unit → Chronicle → Prop) :
    (change f).Follows inv rely h post ↔ post (.ok ()) (h.change f) := leads_change f post

@[simp]
theorem follows_happen (e : Event) (post : Except Fault Unit → Chronicle → Prop) :
    (happen e).Follows inv rely h post ↔ post (.ok ()) (h.change (·.happen e)) := leads_happen e post

@[simp]
theorem follows_remark (r : Remark) (post : Except Fault Unit → Chronicle → Prop) :
    (remark r).Follows inv rely h post ↔ post (.ok ()) (h.change (·.remark r)) := leads_remark r post

theorem follows_request (c : Call) (post : Except Fault Reply → Chronicle → Prop) :
    (request c).Follows inv rely h post ↔
      inv (h.calls c) ∧
        ∀ r h', inv h' → rely (h.calls c) h' → post r (h'.returns c r) := leads_request c post

theorem follows_ofExcept (r : Except Fault α) :
    (ofExcept r).Follows inv rely h post ↔ post r h := leads_ofExcept r

theorem follows_find (sort : ObjectSort) (objects : World → List α) (i : Nat) :
    (find sort objects i).Follows inv rely h post ↔
      (∀ a, (objects h.world)[i]? = some a → post (.ok a) h) ∧
        ((objects h.world)[i]? = none → post (.error (.missing sort (i + 1))) h) :=
  leads_find sort objects i

theorem follows_index (sort : ObjectSort) (objects : World → List α) (number : Int)
    (post : Except Fault Nat → Chronicle → Prop)
    (hok : ∀ i : Nat, number = i + 1 → post (.ok i) h)
    (herror : post (.error (.missing sort number)) h) :
    (index sort objects number).Follows inv rely h post :=
  (leads_index sort objects number post).mpr ⟨fun i hi _ => hok i hi, fun _ => herror⟩

theorem follows_recoverOrdinary (p : Procedure α) (handler : Fault → Procedure α) :
    (p.recoverOrdinary handler).Follows inv rely h post ↔
      p.Follows inv rely h (onError post fun f h' =>
        (f.isOrdinary = true → (handler f).Follows inv rely h' post) ∧
          (f.isOrdinary = false → post (.error f) h')) := leads_recoverOrdinary p handler

theorem follows_recoverOs (p : Procedure α) (handler : Fault → Procedure α) :
    (p.recoverOs handler).Follows inv rely h post ↔
      p.Follows inv rely h (onError post fun f h' =>
        (f.isOs = true → (handler f).Follows inv rely h' post) ∧
          (f.isOs = false → post (.error f) h')) := leads_recoverOs p handler

end Rules

/-- What follows a procedure is found in its run, if calls keep to what is expected of them. -/
theorem Follows.run {p : Procedure α} {post : Except Fault α → Chronicle → Prop}
    {past : List Moment} {s : Setting}
    (respond : Call → Setting → Except Fault Reply × Setting)
    (during between : Call → Setting → List Moment)
    (hduring : ∀ c s, during c s = .calls c (s.world.happen (.called c)) ::
      (between c s ++ [.returns c (respond c s).1 (respond c s).2.world]))
    (hp : p.Follows inv rely ⟨past, s.world⟩ post)
    (hc : ∀ c past s, inv (Chronicle.calls ⟨past, s.world⟩ c) →
      inv ⟨(Chronicle.calls ⟨past, s.world⟩ c).past ++ between c s, (respond c s).2.world⟩ ∧
        rely (Chronicle.calls ⟨past, s.world⟩ c)
          ⟨(Chronicle.calls ⟨past, s.world⟩ c).past ++ between c s, (respond c s).2.world⟩) :
    post (p.run respond s).1
      ⟨past ++ p.moments respond during s, (p.run respond s).2.world⟩ := by
  induction p generalizing past s with
  | done a => simpa [moments, Procedure.run, Follows, Leads] using hp
  | fail f => simpa [moments, Procedure.run, Follows, Leads] using hp
  | read next ih => exact ih s.world hp
  | update f next ih => exact ih (s := { s with world := f s.world }) hp
  | call c next ih =>
    obtain ⟨hi, hr⟩ := hc c past s hp.1
    have hrest := ih (respond c s).1 (s := (respond c s).2) (hp.2 (respond c s).1 _ hi hr)
    simpa [moments, hduring, Chronicle.calls, Chronicle.returns, Chronicle.add, Procedure.run]
      using hrest

end Procedure

/-- What is to be shown of each kind of step by itself, so that it holds of runs. -/
structure Chronicle.Contract (limit : Nat) (inv : Chronicle → Prop)
    (rely guarantee : Chronicle → Chronicle → Prop) : Prop where
  refl : ∀ h, guarantee h h
  trans : ∀ {h h' h''}, guarantee h h' → guarantee h' h'' → guarantee h h''
  relied : ∀ {h h'}, guarantee h h' → h.world.Meanwhile h'.world → rely h h'
  course : ∀ (step : Step) h, inv h →
    (step.procedure limit).Follows inv rely (h.begins step) fun answer h' =>
      inv (h'.ends step answer) ∧ guarantee h (h'.ends step answer)

/-- A step leaves the chronicle that its course leads to, with its end added. -/
theorem Chronicle.ends_course (limit depth : Nat) (step : Step) (past : List Moment) (s : Setting) :
    Chronicle.ends ⟨(Chronicle.begins ⟨past, s.world⟩ step).past ++
        (step.procedure limit).moments (Call.respond (Step.leave limit depth))
          (Call.moments (Step.leave limit depth) (Step.moments limit depth))
          (s.happen (.began step)),
      (step.course limit depth s).2.world⟩ step (step.course limit depth s).1 =
    ⟨past ++ step.moments limit (depth + 1) s, (step.leave limit (depth + 1) s).world⟩ := by
  have hw : (step.leave limit (depth + 1) s).world = _ := Step.perform_world limit depth step s
  have ha := Step.perform_answer limit depth step s
  rw [hw, ends, add, Step.moments, ha]
  simp [begins, add, Setting.happen, Moment.world, Step.perform_world]

namespace Chronicle.Contract

variable {limit : Nat} {inv : Chronicle → Prop} {rely guarantee : Chronicle → Chronicle → Prop}

theorem ofSteps (hc : Contract limit inv rely guarantee) {take : Step → Setting → Setting}
    {moments : Step → Setting → List Moment}
    (h : ∀ step past s, inv ⟨past, s.world⟩ →
      inv ⟨past ++ moments step s, (take step s).world⟩ ∧
        guarantee ⟨past, s.world⟩ ⟨past ++ moments step s, (take step s).world⟩)
    (steps : List Step) (past : List Moment) (s : Setting) (hs : inv ⟨past, s.world⟩) :
    inv ⟨past ++ Moment.ofSteps take moments steps s,
        (steps.foldl (fun s step => take step s) s).world⟩ ∧
      guarantee ⟨past, s.world⟩ ⟨past ++ Moment.ofSteps take moments steps s,
        (steps.foldl (fun s step => take step s) s).world⟩ := by
  induction steps generalizing past s with
  | nil => exact ⟨by simpa [Moment.ofSteps] using hs, by simpa [Moment.ofSteps] using hc.refl _⟩
  | cons step steps ih =>
    obtain ⟨hi, hg⟩ := h step past s hs
    obtain ⟨hi', hg'⟩ := ih _ (take step s) hi
    rw [List.append_assoc] at hi' hg'
    exact ⟨hi', hc.trans hg hg'⟩

/-- The induction is on how deep calls may be nested. -/
theorem leave (hc : Contract limit inv rely guarantee) (depth : Nat) (step : Step)
    (past : List Moment) (s : Setting) (hs : inv ⟨past, s.world⟩) :
    inv ⟨past ++ step.moments limit depth s, (step.leave limit depth s).world⟩ ∧
      guarantee ⟨past, s.world⟩
        ⟨past ++ step.moments limit depth s, (step.leave limit depth s).world⟩ := by
  induction depth generalizing step past s with
  | zero =>
    have hnone : past ++ step.moments limit 0 s = past := List.append_nil past
    exact ⟨by rwa [hnone], by rw [hnone]; exact hc.refl _⟩
  | succ depth ih =>
    have hrun := Procedure.Follows.run (s := s.happen (.began step))
      (Call.respond (Step.leave limit depth))
      (Call.moments (Step.leave limit depth) (Step.moments limit depth))
      (fun c s => Moment.ofSteps (Step.leave limit depth) (Step.moments limit depth)
        (c.react s.script).1.steps (c.noted s)) (fun _ _ => rfl) (hc.course step _ hs) (by
        intro c past s hi
        obtain ⟨hi', hg⟩ := hc.ofSteps ih (c.react s.script).1.steps _ (c.noted s) hi
        rw [Call.respond_snd]
        exact ⟨hi', hc.relied hg (Step.meanwhile_leaveAll limit depth _ (c.noted s))⟩)
    rw [← ends_course]
    exact hrun

theorem leaveAll (hc : Contract limit inv rely guarantee) (depth : Nat) (steps : List Step)
    (s : Setting) (hs : inv ⟨[], s.world⟩) :
    inv ⟨Step.runMoments limit depth steps s, (Step.leaveAll limit depth steps s).world⟩ :=
  (hc.ofSteps (hc.leave depth) steps [] s hs).1

end Chronicle.Contract

end EditorClient
