import EditorClient.Host

/-! What each step does. -/

namespace EditorClient

namespace Step

/-- At most `limit` subscriptions are taken out of a context. The script is not the client's, so
that extending it does nothing here. -/
def procedure (limit : Nat) : Step → Procedure Response
  | enquire e => Procedure.ofExcept e.answer
  | resolveMode choice debugClient => do
    let mode ← Host.hostModeOf choice
    pure (.mode (← EditorClient.resolveMode mode debugClient))
  | selectTransport v port extension interpreter server => do
    let mode ← Host.modeOf v
    pure (.transport (← EditorClient.selectTransport mode port extension interpreter server))
  | runCommand command => do
    let words ← Procedure.ofExcept (commandWords 0 command)
    pure (.number (← EditorClient.runCommand words))
  | isImportable interpreter module => do
    let program ← Procedure.ofExcept (commandWord 0 interpreter)
    pure (.flag (← EditorClient.isImportable program module))
  | install interpreter module => do
    let program ← Procedure.ofExcept (commandWord 0 interpreter)
    pure (.flag (← installModule program module))
  | ensureDependency interpreter module notifier => do
    let program ← Procedure.ofExcept (commandWord 0 interpreter)
    pure (.preflight (← EditorClient.ensureDependency program module notifier))
  | connect host port => do
    pure (.connection (← EditorClient.connect host port))
  | notify notifier notice => Host.answerNothing (notifier.notify notice)
  | extendScript _ => pure .nothing
  | setLogDirectory directory =>
    Host.answerNothing (Procedure.change (Host.setLogDirectory directory))
  | logDirectory => do
    pure (.logDirectory (← makeLogDirectory))
  | openChannel name => Host.channelState name
  | writeChannel name level text => do
    let slug ← EditorClient.openChannel name
    Host.answerNothing (Procedure.post (.message slug level text))
  | readLogs directory => do
    pure (.logs (← Procedure.ask fun w => w.logFiles directory))
  | newContext path choice settings notifier => do
    let mode ← Host.hostModeOf choice
    Procedure.change (addContext ⟨path, mode, settings, notifier, []⟩)
    pure (.context mode.shown (Host.notifierName notifier))
  | configuration context heading => do
    let c ← Context.find (← Host.contextIndex context)
    pure (.value (← Procedure.ofExcept (c.configuration heading)))
  | subscribe name reaction context => Host.subscribe (.scripted name reaction) context
  | dispose number => do
    Host.disposeOne (← Host.subscribedIndex number)
  | disposeAt context place => do
    Host.disposeOne (← Host.subscriptionAt (← Host.contextIndex context) place)
  | disposeContext context => do
    let i ← Host.contextIndex context
    Host.answerNothing (Context.dispose limit i)
  | newConfig c => Host.keepConfig c.checked
  | newConfigFrom env => Host.keepConfig (Config.ofEnvironment env)
  | newBootstrap number => do
    let config ← Host.configOf number
    Procedure.change (addBootstrap ⟨config, none⟩)
    pure (.config config)
  | activate bootstrap context => do
    let i ← Host.bootstrapIndex bootstrap
    let c ← Host.contextIndex context
    pure (.activated (← Bootstrap.activate i c))
  | deactivate bootstrap => do
    let i ← Host.bootstrapIndex bootstrap
    Host.answerNothing (Bootstrap.deactivate i)
  | newController notifier => do
    pure (.controller (← EditorClient.newController notifier) .unstarted)
  | startController controller session context => do
    let i ← Host.controllerIndex controller
    let s ← Host.sessionIndex session
    let c ← Host.contextIndex context
    pure (.flag (← Controller.start i s c))
  | stopController controller => do
    let i ← Host.controllerIndex controller
    Host.answerNothing (Controller.stop i)
  | buildSession transport options => do
    Host.sessionMade (← EditorClient.buildSession transport options)
  | newSession name transport options => do
    Host.sessionMade (← EditorClient.newSession name transport options)
  | startSession session => do
    let i ← Host.sessionIndex session
    Host.answerNothing (Session.start i)
  | stopSession session => do
    let i ← Host.sessionIndex session
    Host.answerNothing (Session.stop i)
  | handles session uri language => do
    let i ← Host.sessionIndex session
    pure (.flag (← Session.handles i uri language))
  | changeFile session path change =>
    if Host.isChange change then do
      let i ← Host.sessionIndex session
      pure (.flag (← Session.changeFile i path change))
    else throw (.notMember (toString change) "FileChangeType")
  | serverMessage session severity text => do
    let i ← Host.sessionIndex session
    Host.answerNothing (Session.serverMessage i severity text)
  | serverExit session process code => do
    let i ← Host.sessionIndex session
    Host.answerNothing (Session.serverExit i process code)
  | serverError session fault source => do
    let i ← Host.sessionIndex session
    Host.answerNothing (Session.serverError i fault source)

end Step

end EditorClient
