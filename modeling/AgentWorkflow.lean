import AgentWorkflow.Lib.Run
import AgentWorkflow.Lib.Lineup
import AgentWorkflow.Queue.RequeueLoop
import AgentWorkflow.Core.RunEnd
import AgentWorkflow.Queue.EdgeSelected
import AgentWorkflow.Workspace.GitWorktreeManager
import AgentWorkflow.Core.OrchestratorV1
import AgentWorkflow.Cli.RunBatchV1
import AgentWorkflow.Scheduling.LogFrame
import AgentWorkflow.Queue.HandlerFrame
import AgentWorkflow.Queue.HandlerExit
import AgentWorkflow.Core.RunFrame
import AgentWorkflow.Queue.HandleOnce
import AgentWorkflow.Queue.ClaimOrder
import AgentWorkflow.Scheduling.BudgetPool
import AgentWorkflow.Scheduling.SharedHealth
import AgentWorkflow.Scheduling.RegistryPool
import AgentWorkflow.Scheduling.ScoreBounds
import AgentWorkflow.Queue.Provenance
import AgentWorkflow.Cli.WorkerServices
import AgentWorkflow.Session.SessionFork
import AgentWorkflow.Session.SessionSnapshot
import AgentWorkflow.Cli.ParseArgs
import AgentWorkflow.Cli.ProjectIds
import AgentWorkflow.Cli.EventValidity
import AgentWorkflow.Queue.HandoffDelivery
import AgentWorkflow.Queue.Lineage
import AgentWorkflow.Lib.Selection
import AgentWorkflow.Lib.JsValue
import AgentWorkflow.Lib.Tail
import AgentWorkflow.Lib.Marker
import AgentWorkflow.Scheduling.Decision
import AgentWorkflow.Scheduling.EligibleView
import AgentWorkflow.Scheduling.CandidatesFor
import AgentWorkflow.Cli.SingleProfileRun
import AgentWorkflow.Queue.QueueCalls
import AgentWorkflow.Queue.DefaultLease
import AgentWorkflow.Queue.ExcludeLists
import AgentWorkflow.Core.TimeLimits
import AgentWorkflow.Cli.YamlSimple
import AgentWorkflow.Cli.YamlOutline
import AgentWorkflow.Cli.YamlRoundTrip
import AgentWorkflow.Cli.YamlInsertion
import AgentWorkflow.Cli.YamlBlankLines
import AgentWorkflow.Queue.PoolTasks
import AgentWorkflow.Queue.PoolStop
import AgentWorkflow.Queue.WorkerPool
import AgentWorkflow.Adapters.OutputTailBuffer
import AgentWorkflow.Storage.ArtifactPaths
import AgentWorkflow.Storage.SqliteEventLog
import AgentWorkflow.Storage.EventRefinement
import AgentWorkflow.Workspace.WorktreeCleanup
import AgentWorkflow.Cli.YamlIndices
import AgentWorkflow.Lib.Schema
import AgentWorkflow.Lib.Settling
import AgentWorkflow.Lib.CheckThenAdd
import AgentWorkflow.Core.Schemas
import AgentWorkflow.Core.AgentProfiles
import AgentWorkflow.Core.Upgrader
import AgentWorkflow.Adapters.ChildProcess
import AgentWorkflow.Adapters.VerificationRunner
import AgentWorkflow.Storage.Migrations
import AgentWorkflow.Queue.LaunchedBest
import AgentWorkflow.Queue.UpgradedTasks
import AgentWorkflow.Lib.FileScript
import AgentWorkflow.Workspace.CapsuleFiles
import AgentWorkflow.Core.RunFiles
import AgentWorkflow.Lib.Protocol
import AgentWorkflow.Core.RunWords
import AgentWorkflow.Queue.RunsInOrder
import AgentWorkflow.Core.Orchestrator
import AgentWorkflow.Core.LocalRun
import AgentWorkflow.Cli.LoadBatch
import AgentWorkflow.Cli.BatchReport
