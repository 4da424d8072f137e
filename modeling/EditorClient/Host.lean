import EditorClient.Bootstrap

/-! What a host does by itself: it makes contexts, configurations and disposables, and looks up
what was made by number. -/

namespace EditorClient

namespace Host

def hostModeOf (choice : ModeChoice) : Procedure HostMode := Procedure.ofExcept choice.hostMode

def modeOf (v : Value) : Procedure Mode :=
  match Mode.ofValue? v with
  | some m => pure m
  | none => throw (.notMember v.literal "Mode")

def sessionMade (i : Nat) : Procedure Response := do
  pure (.session (← Session.find i).summary)

def addConfig (c : Config) (w : World) : World := { w with configs := w.configs ++ [c] }

def keepConfig (checked : Except ConfigurationProblem Config) : Procedure Response := do
  match checked with
  | .ok c =>
    Procedure.change (addConfig c)
    pure (.config c)
  | .error problem => throw (.badConfiguration problem)

def configOf : Option Int → Procedure Config
  | none => pure .standard
  | some number => do
    let i ← Procedure.index .configs World.configs number
    Procedure.find .configs World.configs i

def notifierName : Notifier → String
  | .host => "Notifier"
  | .log _ => "LoggingNotifier"
  | .absent => Value.null.kindName

def numberDisposable (i : Nat) (w : World) : World := { w with subscribed := w.subscribed ++ [i] }

/-- The disposable of this number among those that the host made. -/
def subscribedIndex (number : Int) : Procedure Nat := do
  let position ← Procedure.index .disposables World.subscribed number
  Procedure.find .disposables World.subscribed position

/-- The subscription at this place, counted from zero. -/
def subscriptionAt (context : Nat) (place : Int) : Procedure Nat := do
  let subscriptions := (← Context.find context).subscriptions
  match if 0 ≤ place then subscriptions[place.toNat]? else none with
  | some i => pure i
  | none => throw (.missing .subscription place)

def disposeOne (i : Nat) : Procedure Response := do
  Disposable.dispose i
  pure (.flag (← Disposable.find i).disposed)

/-- The disposable is made before its context is looked up. -/
def subscribe (action : CleanUp) (context : Option Int) : Procedure Response := do
  let disposable ← Procedure.ask (·.disposables.length)
  Procedure.change (addDisposable action)
  Procedure.change (numberDisposable disposable)
  match context with
  | none => pure (.flag false)
  | some number =>
    let i ← Procedure.index .contexts World.contexts number
    Procedure.change (register i disposable)
    pure (.flag false)

def channelState (name : String) : Procedure Response := do
  let slug ← openChannel name
  let handlers ← Procedure.ask fun w => (w.handlers.filter fun h => h.slug == slug).length
  let level ← Procedure.ask (·.level (Logger.channel slug))
  pure (.channel (Logger.channel slug) handlers level)

/-- The log directory is another from now on, or the same in another state. -/
def setLogDirectory (directory : LogDirectory) (w : World) : World :=
  { w with
    logDirectory := directory
    formerDirectories := w.logDirectory :: w.formerDirectories }

/-- The kinds of changes to a file are created, changed and deleted. -/
def isChange (change : Int) : Bool := 1 ≤ change && change ≤ 3

def contextIndex (number : Int) : Procedure Nat := Procedure.index .contexts World.contexts number

def bootstrapIndex (number : Int) : Procedure Nat :=
  Procedure.index .bootstraps World.bootstraps number

def controllerIndex (number : Int) : Procedure Nat :=
  Procedure.index .controllers World.controllers number

def sessionIndex (number : Int) : Procedure Nat := Procedure.index .sessions World.sessions number

def answerNothing (p : Procedure Unit) : Procedure Response := do
  p
  pure .nothing

end Host

end EditorClient
