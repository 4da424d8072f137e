import EditorClient.Run

/-! What a run shows: for each step its answer, what happened meanwhile, and how things stand
afterwards. -/

namespace EditorClient

/-- The events of a trace, with those of a step taken during a call put together. -/
inductive Entry where
  | event (e : Event)
  | step (answer : Answer) (entries : List Entry)

namespace Entry

/-- The entries read so far of the steps under way, innermost first. A record that is refused is not
shown, nor what a bootstrap holds, and the making of a client is shown when it is done and has a
number. -/
structure OpenSteps where
  current : List Entry
  outer : List (List Entry)

def OpenSteps.next (o : OpenSteps) : Event → OpenSteps
  | .began _ => ⟨[], o.current :: o.outer⟩
  | .ended answer =>
    match o.outer with
    | entries :: outer => ⟨entries ++ [step answer o.current], outer⟩
    | [] => ⟨[step answer o.current], []⟩
  | .refused _ | .held .. | .called (.makeClient _) => o
  | e => ⟨o.current ++ [event e], o.outer⟩

def ofEvents (events : List Event) : List Entry := (events.foldl OpenSteps.next ⟨[], []⟩).current

end Entry

/-- What is shown of the objects of a world; numbers start at one. -/
structure Standing where
  contexts : List (List Bool)
  bootstraps : List (Option Nat)
  controllers : List (LifecycleState × Bool × Option Nat)
  sessions : List Bool

def World.isDisposed (w : World) (i : Nat) : Bool := (w.disposables[i]?).any fun d => d.disposed

def World.standing (w : World) : Standing where
  contexts := w.contexts.map fun c => c.subscriptions.map w.isDisposed
  bootstraps := w.bootstraps.map fun b => b.controller.map (· + 1)
  controllers := w.controllers.map fun c => (c.state, c.isRunning, c.session.map (· + 1))
  sessions := w.sessions.map Session.isRunning

structure StepReport where
  answer : Answer
  entries : List Entry
  standing : Standing

def StepReport.ofStep (events : List Event) (answer : Answer) (w : World) : StepReport :=
  match Entry.ofEvents events with
  | [.step answer entries] => ⟨answer, entries, w.standing⟩
  | entries => ⟨answer, entries, w.standing⟩

def reportSteps (limit : Nat) : List Step → Setting → List StepReport
  | [], _ => []
  | step :: steps, s =>
    let result := step.perform limit limit s
    let events := result.2.world.trace.drop s.world.trace.length
    .ofStep events result.1 result.2.world :: reportSteps limit steps result.2

/-- Every step is taken at most once, so that their number bounds both how deep calls are nested and
how many subscriptions a context can get. -/
def runLimit (additions : List (Queue × List Reaction)) (steps : List Step) : Nat :=
  Step.additionsSize additions + Step.sizes steps + 1

def report (workingDirectory : String) (directory : LogDirectory)
    (additions : List (Queue × List Reaction)) (steps : List Step) : List StepReport :=
  reportSteps (runLimit additions steps) steps
    ⟨World.initial workingDirectory directory, Script.empty.extend additions⟩

end EditorClient
