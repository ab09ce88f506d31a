import BuildEngine.Base.Run
import BuildEngine.Base.Table
import BuildEngine.Base.Json
import BuildEngine.Base.PyStr
import BuildEngine.Agent.Protocol
import BuildEngine.Base.JsonRoundTrip
import BuildEngine.Base.Replace
import BuildEngine.Queue.Schema
import BuildEngine.Queue.Store
import BuildEngine.Queue.Outbox
import BuildEngine.Queue.Ops
import BuildEngine.Queue.StateMachine
import BuildEngine.Queue.Cancellation
import BuildEngine.Queue.Fencing
import BuildEngine.Queue.Events
import BuildEngine.Queue.AppendAtomicity
import BuildEngine.Base.JsonSort
import BuildEngine.Agent.RoundTrip
import BuildEngine.Queue.Replay
import BuildEngine.Agent.Uplink
import BuildEngine.Agent.SequenceNumbers
import BuildEngine.Agent.WireOrder
import BuildEngine.Executor.Workspace
import BuildEngine.Agent.JobLoop
import BuildEngine.Agent.TerminalReports
import BuildEngine.Agent.WorkspaceExclusivity
import BuildEngine.Base.Utf8
import BuildEngine.Executor.Stream
import BuildEngine.Queue.Representation
import BuildEngine.Queue.CrashAccounting
import BuildEngine.Queue.Confidentiality
import BuildEngine.Queue.Freshness
import BuildEngine.Agent.Reconnect
import BuildEngine.Base.JsonSize
import BuildEngine.Agent.CancelScope
import BuildEngine.Agent.Commands
import BuildEngine.Agent.Publishing
import BuildEngine.Agent.Assignments
import BuildEngine.Agent.ReportCompleteness
import BuildEngine.Agent.StoreCalls
import BuildEngine.Agent.NewestAttempt
import BuildEngine.Agent.Delivery
import BuildEngine.Agent.Interleaving
import BuildEngine.Queue.LeaseSelection
import BuildEngine.Agent.CancelReport
import BuildEngine.Base.JsonEq
import BuildEngine.Queue.FrameIdentity
import BuildEngine.Agent.JobPayload
import BuildEngine.Agent.DrainMarker
import BuildEngine.Agent.Recovery
import BuildEngine.Base.Toml
import BuildEngine.Agent.Credentials
import BuildEngine.Agent.SessionRefresh
import BuildEngine.Detect.Lockfiles
import BuildEngine.Executor.Cache
import BuildEngine.Executor.CacheProvenance
import BuildEngine.Executor.CachePruning
import BuildEngine.Base.Words
import BuildEngine.Detect.Errors
import BuildEngine.Detect.PackageJson
import BuildEngine.Detect.NodeRange
import BuildEngine.Detect.Framework
import BuildEngine.Agent.ConfigErrors
import BuildEngine.Base.Outcome
import BuildEngine.Detect.Planning
import BuildEngine.Detect.OutputDir
import BuildEngine.Detect.DeferredFrameworks
import BuildEngine.Queue.Pruning
import BuildEngine.Agent.ReplayOrder
import BuildEngine.Agent.Rejection
import BuildEngine.Base.PyFloat
import BuildEngine.Executor.Ceilings
import BuildEngine.Base.Dict
import BuildEngine.Config.EngineConfig
import BuildEngine.Config.Layering
import BuildEngine.Agent.ReportSize
import BuildEngine.Executor.Container
import BuildEngine.Executor.ContainerCleanup
import BuildEngine.Base.Semver
import BuildEngine.Base.Pep440
import BuildEngine.Detect.NodeBounds
import BuildEngine.Detect.NodeSelection
import BuildEngine.Base.Calendar
import BuildEngine.Queue.StampText
import BuildEngine.Executor.EnvFile
import BuildEngine.Base.Alignment
import BuildEngine.Executor.Redaction
import BuildEngine.Agent.LogFrames
import BuildEngine.Agent.MalformedFrames
import BuildEngine.Base.Eviction
import BuildEngine.Executor.CacheLimits
import BuildEngine.Base.LexicalPath
import BuildEngine.Executor.ArchiveMembers
import BuildEngine.Base.Hex
import BuildEngine.Executor.Download
import BuildEngine.Executor.Origins
import BuildEngine.Executor.Artifact
import BuildEngine.Executor.Determinism
import BuildEngine.Agent.LeaseTiming
import BuildEngine.Agent.CredentialsFile
import BuildEngine.Base.FileSystem
import BuildEngine.Agent.Exchange
import BuildEngine.Agent.DeliverySteps
import BuildEngine.Base.OptionArgs
import BuildEngine.Executor.DockerRun
import BuildEngine.Agent.WorkspaceBounds
import BuildEngine.Queue.Migration
import BuildEngine.Queue.WaitingTime
import BuildEngine.Queue.DispatchOrder
import BuildEngine.Agent.Registration
