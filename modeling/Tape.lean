import Tape.Bigtable.BeginRun
import Tape.Bigtable.BusinessKey
import Tape.Bigtable.Claim
import Tape.Bigtable.Column
import Tape.Bigtable.Counters
import Tape.Bigtable.Decimal
import Tape.Bigtable.KeyCodec
import Tape.Bigtable.Keys
import Tape.Bigtable.Machine
import Tape.Bigtable.Numbering
import Tape.Bigtable.Obligations
import Tape.Bigtable.ReactionStore
import Tape.Bigtable.Registry
import Tape.Bigtable.RunStore
import Tape.Bigtable.Runs
import Tape.Bigtable.Scans
import Tape.Bigtable.Segments
import Tape.Bigtable.Table
import Tape.Bigtable.TaskIndex
import Tape.Bigtable.TaskLease
import Tape.Bigtable.Timestamps
import Tape.Budget.Admission
import Tape.Chaos.ExactlyOne
import Tape.Chaos.Lineage
import Tape.Chaos.Snapshot
import Tape.Compensation.Closed
import Tape.Compensation.Lease
import Tape.Compensation.Obligation
import Tape.Compensation.Register
import Tape.Compensation.Unwind
import Tape.Compensation.Verdict
import Tape.Effect.Address
import Tape.Effect.Alone
import Tape.Effect.Claim
import Tape.Effect.Compaction
import Tape.Effect.Confirm
import Tape.Effect.Dispatch
import Tape.Effect.Handled
import Tape.Effect.Key
import Tape.Effect.Outcome
import Tape.Effect.Recorded
import Tape.Effect.Verb
import Tape.Embedded.Agreement
import Tape.Embedded.BusinessIdentity
import Tape.Embedded.Compact
import Tape.Embedded.Dispatcher
import Tape.Embedded.Due
import Tape.Embedded.Duplicate
import Tape.Embedded.Final
import Tape.Embedded.GoCompact
import Tape.Embedded.GoService
import Tape.Embedded.InFlight
import Tape.Embedded.Keys
import Tape.Embedded.Ledger
import Tape.Embedded.Pinned
import Tape.Embedded.Plugin
import Tape.Embedded.Registered
import Tape.Embedded.Retention
import Tape.Embedded.Schemas
import Tape.Embedded.Settled
import Tape.Embedded.Snapshot
import Tape.Embedded.Starvation
import Tape.Gate.Await
import Tape.Gate.Parked
import Tape.Gate.Resolution
import Tape.Gate.Wakeup
import Tape.Interleave.Adding
import Tape.Interleave.Lease
import Tape.Interleave.Prog
import Tape.Interleave.Protocol
import Tape.Interleave.Rely
import Tape.Interleave.Run
import Tape.Interleave.Spawned
import Tape.Interleave.Ticket
import Tape.Journal.Complete
import Tape.Journal.Cursor
import Tape.Journal.Decided
import Tape.Journal.Filed
import Tape.Journal.Fold
import Tape.Journal.Relayed
import Tape.Journal.Subscription
import Tape.Journal.Timestamps
import Tape.Lin
import Tape.Lin.Check
import Tape.Lin.Deepest
import Tape.Lin.Points
import Tape.Lru
import Tape.Matcher.AgentRun
import Tape.Matcher.Covered
import Tape.Matcher.Cursors
import Tape.Matcher.Debounce
import Tape.Matcher.ExactlyOnce
import Tape.Matcher.Lost
import Tape.Matcher.Progress
import Tape.Matcher.Replica
import Tape.Matcher.Reshard
import Tape.Matcher.Step
import Tape.Methods
import Tape.Processes
import Tape.Queue.Dialects
import Tape.Queue.Ownership
import Tape.Queue.Poison
import Tape.Rules
import Tape.Run.Ended
import Tape.Run.Lease
import Tape.Run.Numbering
import Tape.Run.Replay
import Tape.Run.Scopes
import Tape.Run.Sequence
import Tape.Sdk.Client
import Tape.Sdk.Compactor
import Tape.Sdk.Debounce
import Tape.Sdk.Dispatcher
import Tape.Sdk.Due
import Tape.Sdk.Outbox
import Tape.Sdk.Plugin
import Tape.Sdk.Pubsub
import Tape.Sdk.Reactions
import Tape.Sdk.Reactors
import Tape.Sdk.Redelivery
import Tape.Sdk.Sample
import Tape.Sdk.Starvation
import Tape.Sdk.ToolKeys
import Tape.Sdk.ToolReplay
import Tape.Sequential
import Tape.Sessions.Append
import Tape.Sessions.Store
import Tape.Sim.Calls
import Tape.Sim.Lease
import Tape.Sim.MemRunStore
import Tape.Sql.Like
import Tape.Sql.Poll
import Tape.Sql.Table
import Tape.Sql.Window
import Tape.Starvation
import Tape.Store.Act
import Tape.Store.Effects
import Tape.Store.EventBus
import Tape.Store.Ledger
import Tape.Store.ReactionStore
import Tape.Store.RunStore
import Tape.Store.Runs
import Tape.Store.World
import Tape.Subjects
import Tape.Subjects.Grammar
import Tape.Subjects.Identity
import Tape.Subjects.Path
import Tape.Subjects.Prefilter
import Tape.System
import Tape.Timer.Fire
import Tape.Timer.Lost
import Tape.Value.Changes
import Tape.Value.CompareAndSet
import Tape.Value.Watch
import Tape.Wire
import Tape.Survey
