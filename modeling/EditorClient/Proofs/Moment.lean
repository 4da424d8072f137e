import EditorClient.Run

/-! The moments of a run, in the order in which they come: a step begins or ends, a call is made or
returns. Each comes with the world as it stands then. -/

namespace EditorClient

inductive Moment where
  | begins (step : Step) (w : World)
  | ends (step : Step) (answer : Answer) (w : World)
  | calls (c : Call) (w : World)
  | returns (c : Call) (result : Except Fault Reply) (w : World)

namespace Moment

def world : Moment → World
  | begins _ w | ends _ _ w | calls _ w | returns _ _ w => w

/-- The moments of steps taken one after another. -/
def ofSteps (take : Step → Setting → Setting) (moments : Step → Setting → List Moment) :
    List Step → Setting → List Moment
  | [], _ => []
  | step :: steps, s => moments step s ++ ofSteps take moments steps (take step s)

end Moment

/-- The moments of a procedure, where `during` gives those of a call and of all that happens before
it returns. -/
def Procedure.moments {α : Type} (respond : Call → Setting → Except Fault Reply × Setting)
    (during : Call → Setting → List Moment) : Procedure α → Setting → List Moment
  | done _, _ => []
  | fail _, _ => []
  | read next, s => (next s.world).moments respond during s
  | update f next, s => next.moments respond during { s with world := f s.world }
  | call c next, s =>
    let r := respond c s
    during c s ++ (next r.1).moments respond during r.2

/-- A call of a procedure's own, with the settings just before and just after it. -/
structure Exchange where
  call : Call
  before : Setting
  result : Except Fault Reply
  after : Setting

/-- The calls that a procedure makes itself, without those of steps taken meanwhile. -/
def Procedure.exchanges {α : Type} (respond : Call → Setting → Except Fault Reply × Setting) :
    Procedure α → Setting → List Exchange
  | done _, _ => []
  | fail _, _ => []
  | read next, s => (next s.world).exchanges respond s
  | update f next, s => next.exchanges respond { s with world := f s.world }
  | call c next, s =>
    let r := respond c s
    ⟨c, s, r.1, r.2⟩ :: (next r.1).exchanges respond r.2

namespace Call

/-- The setting once a call is noted, before the steps of the reaction. -/
def noted (c : Call) (s : Setting) : Setting := ⟨s.world.happen (.called c), (c.react s.script).2⟩

def moments (take : Step → Setting → Setting) (moments : Step → Setting → List Moment) (c : Call)
    (s : Setting) : List Moment :=
  .calls c (c.noted s).world ::
    (Moment.ofSteps take moments (c.react s.script).1.steps (c.noted s) ++
      [.returns c (c.respond take s).1 (c.respond take s).2.world])

theorem respond_snd (take : Step → Setting → Setting) (c : Call) (s : Setting) :
    (c.respond take s).2 =
      (c.react s.script).1.steps.foldl (fun s step => take step s) (c.noted s) := by
  simp only [respond, noted]
  split <;> rfl

end Call

namespace Step

/-- The setting that a step leaves. -/
def leave (limit depth : Nat) (step : Step) (s : Setting) : Setting := (step.perform limit depth s).2

/-- The setting that steps leave which are taken one after another. -/
def leaveAll (limit depth : Nat) (steps : List Step) (s : Setting) : Setting :=
  steps.foldl (fun s step => step.leave limit depth s) s

def moments (limit : Nat) : Nat → Step → Setting → List Moment
  | 0, _, _ => []
  | depth + 1, step, s =>
    let began := s.happen (.began step)
    let ended := step.perform limit (depth + 1) s
    .begins step began.world ::
      ((step.procedure limit).moments (Call.respond (leave limit depth))
          (Call.moments (leave limit depth) (moments limit depth)) began ++
        [.ends step ended.1 ended.2.world])

/-- The moments of a run of steps. -/
def runMoments (limit depth : Nat) (steps : List Step) (s : Setting) : List Moment :=
  Moment.ofSteps (leave limit depth) (moments limit depth) steps s

/-- The last moment of a run has the world that the run leaves. -/
theorem exists_moment_leaveAll (limit : Nat) {depth : Nat} (hdepth : depth ≠ 0)
    (steps : List Step) (hsteps : steps ≠ []) (s : Setting) :
    ∃ m ∈ runMoments limit depth steps s, m.world = (leaveAll limit depth steps s).world := by
  obtain ⟨depth, rfl⟩ := Nat.exists_eq_succ_of_ne_zero hdepth
  induction steps generalizing s with
  | nil => exact absurd rfl hsteps
  | cons step steps ih =>
    cases steps with
    | nil =>
      refine ⟨.ends step (step.perform limit (depth + 1) s).1 _, ?_, rfl⟩
      exact List.mem_append_left _ (List.mem_cons_of_mem _ (List.mem_append_right _ (.head _)))
    | cons next steps =>
      obtain ⟨m, hm, hw⟩ := ih (List.cons_ne_nil _ _) (step.leave limit (depth + 1) s)
      exact ⟨m, List.mem_append_right _ hm, hw⟩

/-- What the procedure of a step does, between the beginning and the end of the step. -/
def course (limit depth : Nat) (step : Step) (s : Setting) : Answer × Setting :=
  (step.procedure limit).run (Call.respond (leave limit depth)) (s.happen (.began step))

theorem perform_answer (limit depth : Nat) (step : Step) (s : Setting) :
    (step.perform limit (depth + 1) s).1 = (step.course limit depth s).1 := by
  unfold perform
  split
  · rfl
  · rfl

/-- Extending the script does nothing to the world. -/
theorem perform_world (limit depth : Nat) (step : Step) (s : Setting) :
    (step.perform limit (depth + 1) s).2.world =
      (step.course limit depth s).2.world.happen (.ended (step.course limit depth s).1) := by
  unfold perform
  split
  · rfl
  · rfl

end Step

/-- What a run starts from. -/
def Setting.start (workingDirectory : String) (directory : LogDirectory) (script : Script) : Setting :=
  ⟨World.initial workingDirectory directory, script⟩

/-- The first call of this sort takes these steps before it ends. -/
def Script.once (queue : Queue) (steps : List Step) (fault : Option Fault) : Script :=
  fun q => if q = queue then [.mk steps fault 0 []] else []

/-- No channel gets a file. -/
def Setting.unlogged (script : Script) : Setting :=
  .start "" (.refused "logs" (.raised .os "")) script

end EditorClient
