import PeReview.Admin.Attention
import PeReview.Admin.Generation
import PeReview.Admin.Projects
import PeReview.Admin.Runtime
import PeReview.Admin.RuntimeUpdates
import PeReview.Admin.Validation
import PeReview.Data.Cursor
import PeReview.Data.Decimal
import PeReview.Data.Dict
import PeReview.Data.Double
import PeReview.Data.Except
import PeReview.Data.FileTree
import PeReview.Data.Firsts
import PeReview.Data.Forest
import PeReview.Data.Groups
import PeReview.Data.JoinedWords
import PeReview.Data.Json
import PeReview.Data.JsonValue
import PeReview.Data.Kept
import PeReview.Data.Lines
import PeReview.Data.Overlay
import PeReview.Data.Placed
import PeReview.Data.Ranks
import PeReview.Data.Select
import PeReview.Data.SortedJson
import PeReview.Data.Sql
import PeReview.Data.Text
import PeReview.Data.Timedelta
import PeReview.Data.Utf8
import PeReview.Data.Words
import PeReview.Domain
import PeReview.Gerrit.Client
import PeReview.Gerrit.EventStream
import PeReview.Gerrit.Events
import PeReview.Gerrit.MessageRecovery
import PeReview.Gerrit.Messages
import PeReview.Gerrit.Paging
import PeReview.Gerrit.PagingEnds
import PeReview.Gerrit.Query
import PeReview.Gerrit.ReviewInput
import PeReview.Gerrit.ScopeDecision
import PeReview.Gerrit.VoteRecovery
import PeReview.Gerrit.Votes
import PeReview.Jobs.Answers
import PeReview.Jobs.Arrivals
import PeReview.Jobs.Audit
import PeReview.Jobs.Calls
import PeReview.Jobs.Columns
import PeReview.Jobs.DeliveryOrder
import PeReview.Jobs.Environment
import PeReview.Jobs.Errors
import PeReview.Jobs.Fencing
import PeReview.Jobs.History
import PeReview.Jobs.Leases
import PeReview.Jobs.Ledger
import PeReview.Jobs.Models
import PeReview.Jobs.Progress
import PeReview.Jobs.ProjectPolicy
import PeReview.Jobs.QueueRefinement
import PeReview.Jobs.Records
import PeReview.Jobs.Refinement
import PeReview.Jobs.RowChange
import PeReview.Jobs.SavedProgress
import PeReview.Jobs.StateMachine
import PeReview.Jobs.Store.Attempts
import PeReview.Jobs.Store.Basic
import PeReview.Jobs.Store.Publications
import PeReview.Jobs.Store.Queue
import PeReview.Jobs.Store.Results
import PeReview.Jobs.Store.Transitions
import PeReview.Jobs.Supersession
import PeReview.Jobs.System
import PeReview.Jobs.Table
import PeReview.Jobs.TerminalStates
import PeReview.Jobs.VoteLeases
import PeReview.Jobs.Votes
import PeReview.Process.Interference
import PeReview.Process.Line
import PeReview.Process.Program
import PeReview.Process.Protocol
import PeReview.Process.Transition
import PeReview.Process.Watched
import PeReview.Process.WorkPool
import PeReview.Repos.BoundedReader
import PeReview.Repos.ChangedLines
import PeReview.Repos.ChangedLinesExact
import PeReview.Repos.ChangedLinesRead
import PeReview.Repos.Containment
import PeReview.Repos.ContextWindows
import PeReview.Repos.DiffLines
import PeReview.Repos.Evidence
import PeReview.Repos.LineLimits
import PeReview.Repos.RangeReads
import PeReview.Repos.ToolFailures
import PeReview.Repos.Tools
import PeReview.Repos.UnifiedDiff
import PeReview.Retry
import PeReview.Review.Anchors
import PeReview.Review.ChunkPaths
import PeReview.Review.Chunking
import PeReview.Review.DiffSections
import PeReview.Review.Engine
import PeReview.Review.FindingIdentity
import PeReview.Review.FindingRanges
import PeReview.Review.Lineage
import PeReview.Review.LocationSalvage
import PeReview.Review.Native.Budget
import PeReview.Review.Native.Complete
import PeReview.Review.Native.Durable
import PeReview.Review.Native.Engine
import PeReview.Review.Native.Steps
import PeReview.Review.Native.Synced
import PeReview.Review.Native.Termination
import PeReview.Review.Native.Usage
import PeReview.Review.Native.Work
import PeReview.Review.Parsing
import PeReview.Review.Progress
import PeReview.Review.ProjectPolicy
import PeReview.Review.Scheduling
import PeReview.Review.Scheduling.Budget
import PeReview.Review.Scheduling.Checkpoints
import PeReview.Review.Scheduling.DuplicateCalls
import PeReview.Review.Scheduling.Ledger
import PeReview.Review.Scheduling.Rotation
import PeReview.Review.Scheduling.Slots
import PeReview.Review.Scheduling.Steps
import PeReview.Review.Scheduling.Termination
import PeReview.Review.Scheduling.ToolKeys
import PeReview.Review.Scheduling.ToolTurns
import PeReview.Review.Scheduling.Transcripts
import PeReview.Review.Scheduling.Work
import PeReview.Review.Settings
import PeReview.Review.Summary
import PeReview.Review.Validator
import PeReview.Service.Answers
import PeReview.Service.Calls
import PeReview.Service.Confirmed
import PeReview.Service.Discipline
import PeReview.Service.Guarantees
import PeReview.Service.Knowledge
import PeReview.Service.Policy
import PeReview.Service.Publish
import PeReview.Service.Reconciler
import PeReview.Service.ReconcilerComplete
import PeReview.Service.Reposting
import PeReview.Service.Retry
import PeReview.Service.RetryAgreement
import PeReview.Service.RetryDelay
import PeReview.Service.RetryScheduling
import PeReview.Service.Review
import PeReview.Service.Rules
import PeReview.Service.Safety.Publish
import PeReview.Service.Safety.Retries
import PeReview.Service.Safety.Review
import PeReview.Service.Safety.Voting
import PeReview.Service.Safety.Worker
import PeReview.Service.Steps
import PeReview.Service.Storability
import PeReview.Service.Transactions
import PeReview.Service.Triples
import PeReview.Service.Validity
import PeReview.Service.VoteKnowledge
import PeReview.Service.VotePass
import PeReview.Service.VoteSafety
import PeReview.Service.VoteTriples
import PeReview.Service.Voting
import PeReview.Service.Worker
import PeReview.Service.World
