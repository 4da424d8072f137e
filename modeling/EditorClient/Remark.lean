import EditorClient.ExtensionPath
import EditorClient.LogRecord

/-! What the client remarks about its own work. Every remark is emitted, and goes to the logger of one
of the client's own parts. -/

namespace EditorClient

/-- The occasions on which the client writes to its own loggers. -/
inductive Remark where
  | disposalFailed (fault : Fault)
  | extensionPath (path : ExtensionPath)
  | runningIn (mode : Mode)
  | interpreterSetting (v : Value)
  | dependenciesReady
  | activationAborted (fault : Fault)
  | alreadyActivated
  | debuggingClient
  | connectingTo (port : Int)
  | spawning (interpreter : Value) (server : String)
  | serverDirectory (directory : Path)
  | connectFailed (host : String) (port : Int) (fault : Fault)
  | connected (port : Int)
  | commandStarted (command : List String)
  | commandOutput (text : String)
  | commandExited (program : String) (code : Int)
  | notLaunched (interpreter : String) (fault : Fault)
  | dependencyPresent (module interpreter : String)
  | dependencyMissing (module interpreter : String)
  | installationFailed (module interpreter : String)
  | installationDone (module interpreter : String)
  | channelWithoutFile (name : String) (fault : Fault)
  | channelFile (name file : String)
  | buildingSession (name : Value) (transportName : String)
  | shutdownFailed (name : Value) (fault : Fault)
  | changeDropped (name : Value) (path : Path)
  | startingClient (name : Value)
  | startFailed (name : Value) (fault : Fault)
  | releaseFailed (fault : Fault)
  | clientRunning (name : Value)
  | nothingToStop (state : LifecycleState)
  | stoppingClient (name : Value)
deriving Repr

namespace Remark

def record : Remark → LogRecord
  | disposalFailed fault => ⟨Logger.host, Level.error, "Error disposing subscription", some fault⟩
  | extensionPath path => ⟨Logger.extension, Level.debug, "Extension path: " ++ path.shown, none⟩
  | runningIn mode => ⟨Logger.extension, Level.info, "Running in " ++ mode.name ++ " mode", none⟩
  | interpreterSetting v => ⟨Logger.extension, Level.debug, "Python path: " ++ v.shown, none⟩
  | dependenciesReady =>
    ⟨Logger.extension, Level.info, "Dependencies checked/installed successfully", none⟩
  | activationAborted fault =>
    ⟨Logger.extension, Level.error, "Failed to start the language server: " ++ fault.message, none⟩
  | alreadyActivated =>
    ⟨Logger.extension, Level.warning, "Client already activated, stopping the previous session", none⟩
  | debuggingClient =>
    ⟨Logger.transport, Level.info, "Client debugging enabled, spawning the server locally", none⟩
  | connectingTo port =>
    ⟨Logger.transport, Level.info,
      "Development mode: connecting to " ++ loopbackHost ++ ":" ++ toString port, none⟩
  | spawning interpreter server =>
    ⟨Logger.transport, Level.info,
      "Production mode: spawning " ++ interpreter.shown ++ " -m " ++ server, none⟩
  | serverDirectory directory =>
    ⟨Logger.transport, Level.debug,
      "Language server working directory: " ++ directory.toString, none⟩
  | connectFailed host port fault =>
    ⟨Logger.transport, Level.error,
      "Error connecting to language server at " ++ host ++ ":" ++ toString port ++ ": " ++
        fault.message, none⟩
  | connected port =>
    ⟨Logger.transport, Level.info, "Connected to language server at port " ++ toString port, none⟩
  | commandStarted command =>
    ⟨Logger.preflight, Level.debug, "Running: " ++ String.intercalate " " command, none⟩
  | commandOutput text => ⟨Logger.preflight, Level.debug, text, none⟩
  | commandExited program code =>
    ⟨Logger.preflight, Level.debug, program ++ " exited with code " ++ toString code, none⟩
  | notLaunched interpreter fault =>
    ⟨Logger.preflight, Level.debug, "Could not run " ++ interpreter ++ ": " ++ fault.message, none⟩
  | dependencyPresent module interpreter =>
    ⟨Logger.preflight, Level.debug, module ++ " is importable in " ++ interpreter, none⟩
  | dependencyMissing module interpreter =>
    ⟨Logger.preflight, Level.warning, module ++ " not found in " ++ interpreter ++ ", installing",
      none⟩
  | installationFailed module interpreter =>
    ⟨Logger.preflight, Level.error, "Failed to install " ++ module ++ " in " ++ interpreter, none⟩
  | installationDone module interpreter =>
    ⟨Logger.preflight, Level.info, "Successfully installed " ++ module ++ " in " ++ interpreter, none⟩
  | channelWithoutFile name fault =>
    ⟨Logger.output, Level.warning,
      "Output channel " ++ quoted name ++ " has no log file: " ++ fault.message, none⟩
  | channelFile name file =>
    ⟨Logger.output, Level.debug, "Output channel " ++ quoted name ++ " logging to " ++ file, none⟩
  | buildingSession name transportName =>
    ⟨Logger.session, Level.debug,
      "Building session " ++ name.literal ++ " over " ++ transportName ++ " transport", none⟩
  | shutdownFailed name fault =>
    ⟨Logger.session, Level.warning,
      "Clean shutdown of " ++ name.literal ++ " failed: " ++ fault.message, none⟩
  | changeDropped name path =>
    ⟨Logger.session, Level.debug,
      "Session " ++ name.literal ++ " not running, dropping change to " ++ path.toString, none⟩
  | startingClient name =>
    ⟨Logger.lifecycle, Level.info, "Starting language client " ++ name.literal, none⟩
  | startFailed name fault =>
    ⟨Logger.lifecycle, Level.error, "Error starting the language client " ++ name.literal, some fault⟩
  | releaseFailed fault =>
    ⟨Logger.lifecycle, Level.debug, "Error releasing failed session", some fault⟩
  | clientRunning name =>
    ⟨Logger.lifecycle, Level.info, "Language client " ++ name.literal ++ " is running", none⟩
  | nothingToStop state =>
    ⟨Logger.lifecycle, Level.debug, "Nothing to stop (state: " ++ state.name ++ ")", none⟩
  | stoppingClient name =>
    ⟨Logger.lifecycle, Level.info, "Stopping language client " ++ name.literal, none⟩

theorem logger_mem_own (r : Remark) : r.record.logger ∈ Logger.own := by
  cases r <;> simp [record, Logger.own]

end Remark

end EditorClient
