import EditorClient.LifecycleState
import EditorClient.Mode
import EditorClient.Preflight.Result
import EditorClient.SessionOptions

/-! What the client makes known to other programs: its public names, by code point, and the fixed values
it is wired with. -/

namespace EditorClient

structure Catalogue where
  names : List String
  coreNames : List String
  version : String
  client : String
  port : Int
  host : String
  server : String
  dependency : String
  language : String
  serverDirectory : List String
  options : SessionOptions
  modes : List Mode
  states : List LifecycleState
  statuses : List PreflightStatus
deriving Repr

namespace Catalogue

def publicNames : List String :=
  ["Bootstrap", "BootstrapConfig", "ConfigurationError", "DEFAULT_SESSION_OPTIONS", "Disposable",
   "DocumentFilter", "ExtensionContext", "InstallationError", "LifecycleController",
   "LifecycleState", "LoggingNotifier", "MfdlsClientError", "Mode", "Notifier", "PreflightResult",
   "PreflightStatus", "Session", "SessionOptions", "SessionStartError", "SocketTransport",
   "SpawnTransport", "TransportConnectError", "__version__", "build_session", "ensure_dependency",
   "select_transport"]

def publicCoreNames : List String :=
  ["CLIENT_VERSION", "DEFAULT_SESSION_OPTIONS", "DEPENDENCY_MODULE", "DEV_PORT", "LOOPBACK_HOST",
   "LifecycleController", "SERVER_MODULE", "Session", "SocketTransport", "SpawnTransport",
   "TransportSpec", "build_session", "ensure_dependency", "install_module", "is_module_importable",
   "resolve_mode", "select_transport", "server_working_directory"]

def standard : Catalogue where
  names := publicNames
  coreNames := publicCoreNames
  version := clientVersion
  client := clientName
  port := developmentPort
  host := loopbackHost
  server := serverModule
  dependency := dependencyModule
  language := languageId
  serverDirectory := serverDirectoryNames.map String.ofList
  options := .standard
  modes := Mode.all
  states := LifecycleState.all
  statuses := PreflightStatus.all

theorem names_increasing :
    standard.names.Pairwise (· < ·) ∧ standard.coreNames.Pairwise (· < ·) := by decide +kernel

end Catalogue

end EditorClient
