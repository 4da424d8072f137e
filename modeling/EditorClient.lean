import EditorClient.Proofs.AbortedActivation
import EditorClient.Proofs.ActivationCourse
import EditorClient.Proofs.ActivationFrame
import EditorClient.Proofs.AnyDirectory
import EditorClient.Proofs.ChannelRegistry
import EditorClient.Proofs.CheckedServer
import EditorClient.Proofs.ControllerLife
import EditorClient.Proofs.DebuggedClient
import EditorClient.Proofs.DependencyCheck
import EditorClient.Proofs.DevelopmentActivation
import EditorClient.Proofs.Disposal
import EditorClient.Proofs.DocumentRouting
import EditorClient.Proofs.EnvironmentConfig
import EditorClient.Proofs.FailedStart
import EditorClient.Proofs.FileNotice
import EditorClient.Proofs.GlobMatch
import EditorClient.Proofs.Interruption
import EditorClient.Proofs.LogHistory
import EditorClient.Proofs.PreflightVerdict
import EditorClient.Proofs.RunningSession
import EditorClient.Proofs.SessionFarewell
import EditorClient.Proofs.SessionProtocol
import EditorClient.Proofs.SettingsFault
import EditorClient.Proofs.SlugWords
import EditorClient.Proofs.SpawnedServer
import EditorClient.Proofs.StartFault
import EditorClient.Proofs.WatchList
import EditorClient.Report
