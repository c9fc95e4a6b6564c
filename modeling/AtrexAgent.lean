import AtrexAgent.Library.Computation
import AtrexAgent.Library.Interaction
import AtrexAgent.Library.Json
import AtrexAgent.Library.Regex
import AtrexAgent.Library.Objects
import AtrexAgent.Library.JsonKeys
import AtrexAgent.Evaluation.Privacy
import AtrexAgent.Library.Rank
import AtrexAgent.Library.Transition
import AtrexAgent.Core.Machine
import AtrexAgent.Core.Stable
import AtrexAgent.Core.Settle
import AtrexAgent.Core.Reload
import AtrexAgent.Core.Convergence
import AtrexAgent.Core.Composition
import AtrexAgent.Core.Strand
import AtrexAgent.Core.Effects
import AtrexAgent.Core.Waterfall
import AtrexAgent.Core.Interpolation
import AtrexAgent.Core.Boot
import AtrexAgent.Experiment.Identity
import AtrexAgent.Workspace.Snapshot
import AtrexAgent.Workflow.Search
import AtrexAgent.Workflow.Schedule
import AtrexAgent.Workflow.Selection
import AtrexAgent.Workflow.Recovery
import AtrexAgent.Experiment.Store
import AtrexAgent.Experiment.Reservation
import AtrexAgent.Execution.GatewayJobs
import AtrexAgent.Execution.Retries
import AtrexAgent.Execution.Keys
import AtrexAgent.Evaluation.Partition
import AtrexAgent.Evaluation.Conversion
import AtrexAgent.Evaluation.Coverage
import AtrexAgent.Library.JsonPrefix
import AtrexAgent.Experiment.Frontier
import AtrexAgent.Experiment.Header
import AtrexAgent.Core.Layering
import AtrexAgent.Core.Layers
import AtrexAgent.Runtime.Options
import AtrexAgent.Agent.SessionTail
import AtrexAgent.Agent.ExecutionClock
import AtrexAgent.Evaluation.Parity
import AtrexAgent.Workspace.FileTree
import AtrexAgent.Workspace.Install
import AtrexAgent.Workspace.Restoration
import AtrexAgent.Execution.JobOutput
import AtrexAgent.Execution.FinishedJobs
import AtrexAgent.Agent.TokenUsage
import AtrexAgent.Agent.CodexLedger
import AtrexAgent.Agent.LedgerAccounting
import AtrexAgent.Workflow.LongSession
import AtrexAgent.Workflow.SessionBudgets
import AtrexAgent.Evaluation.PublicResult
import AtrexAgent.Evaluation.Bounding
import AtrexAgent.Wiki.Score
import AtrexAgent.Library.Binary64
import AtrexAgent.Library.Numerals
import AtrexAgent.Agent.PhaseTokens
import AtrexAgent.Agent.PhaseAccounting
import AtrexAgent.Agent.PhaseExactness
import AtrexAgent.Evaluation.ChunkedUpload
import AtrexAgent.Library.JsonIndent
import AtrexAgent.Execution.RetryState
import AtrexAgent.Execution.RetryLoops
import AtrexAgent.Execution.RetryReload
import AtrexAgent.Wiki.Query
import AtrexAgent.Wiki.Widening
import AtrexAgent.Core.Registry
import AtrexAgent.Library.Items
import AtrexAgent.Library.Intervals
import AtrexAgent.Profile.Join
import AtrexAgent.Profile.CriticalPath
import AtrexAgent.Profile.Closure
import AtrexAgent.Profile.Timeline
import AtrexAgent.Library.Brackets
import AtrexAgent.Profile.Conservation
import AtrexAgent.Library.Warmup
import AtrexAgent.Wiki.OperatorScope
import AtrexAgent.Wiki.ScopeHistory
import AtrexAgent.Wiki.Lanes
import AtrexAgent.Library.PosixPath
import AtrexAgent.Evaluation.RuntimeBinds
import AtrexAgent.Wiki.Envelope
import AtrexAgent.Library.ArgumentParser
import AtrexAgent.Library.Words
import AtrexAgent.Wiki.Intent
import AtrexAgent.Wiki.CommandLine
import AtrexAgent.Workflow.Directions
import AtrexAgent.Workflow.History
import AtrexAgent.Workflow.Lifecycle
import AtrexAgent.Workflow.Requests
import AtrexAgent.Workflow.Events
import AtrexAgent.Workflow.Recording
import AtrexAgent.Workflow.Campaigns
import AtrexAgent.Core.Lock
import AtrexAgent.Core.Resume
import AtrexAgent.Core.Locking
import AtrexAgent.Core.Lock
import AtrexAgent.Core.Resume
import AtrexAgent.Core.Locking
import AtrexAgent.Agent.SessionUsage
import AtrexAgent.Library.Interleaving
import AtrexAgent.Agent.UsageOrder
