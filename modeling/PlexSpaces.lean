import PlexSpaces.Lib.Assoc
import PlexSpaces.Lib.Recency
import PlexSpaces.Lib.Run
import PlexSpaces.Lib.Lease
import PlexSpaces.Lib.RateLimit
import PlexSpaces.Lib.Separator
import PlexSpaces.Swim.Member
import PlexSpaces.Swim.Queue
import PlexSpaces.Swim.Protocol
import PlexSpaces.Swim.Knowledge
import PlexSpaces.Swim.Updates
import PlexSpaces.Swim.SelfDefence
import PlexSpaces.Swim.AntiEntropy
import PlexSpaces.Swim.Standing
import PlexSpaces.Swim.Piggyback
import PlexSpaces.Nodes.Registry
import PlexSpaces.Nodes.Probe
import PlexSpaces.Nodes.Visibility
import PlexSpaces.Nodes.Reregistration
import PlexSpaces.Lib.Table
import PlexSpaces.Tuples.Tuple
import PlexSpaces.Tuples.Sql
import PlexSpaces.Tuples.Space
import PlexSpaces.Tuples.Conservation
import PlexSpaces.Tuples.TakeExclusion
import PlexSpaces.Tuples.BarrierRounds
import PlexSpaces.Tuples.Statistics
import PlexSpaces.Tuples.ProviderBarrier
import PlexSpaces.Tuples.LeaseRenewal
import PlexSpaces.Tuples.Wire
import PlexSpaces.Lib.Binary64
import PlexSpaces.Tuples.TupleOrder
import PlexSpaces.Crdt.Lattice
import PlexSpaces.Crdt.Laws
import PlexSpaces.Crdt.CausalHistory
import PlexSpaces.Crdt.Registers
import PlexSpaces.Crdt.VectorClock
import PlexSpaces.Lib.Causality
import PlexSpaces.Tuples.LatticeSpace
import PlexSpaces.Tuples.Causality
import PlexSpaces.Tuples.Gossip
import PlexSpaces.Locks.Lock
import PlexSpaces.Locks.Memory
import PlexSpaces.Locks.Exclusion
import PlexSpaces.Locks.Sqlite
import PlexSpaces.Locks.Agreement
import PlexSpaces.Locks.Redis
import PlexSpaces.Breaker.CircuitBreaker
import PlexSpaces.Breaker.HalfOpen
import PlexSpaces.Breaker.FreshStart
import PlexSpaces.Breaker.Recovery
import PlexSpaces.Actors.ActorId
import PlexSpaces.Lib.Trim
import PlexSpaces.Actors.TypeSlug
import PlexSpaces.Lib.Heap
import PlexSpaces.Lib.Hex
import PlexSpaces.Lib.Notify
import PlexSpaces.Mailbox.IdempotencyStore
import PlexSpaces.Mailbox.Mailbox
import PlexSpaces.Mailbox.DropOldest
import PlexSpaces.Mailbox.FirstSeen
import PlexSpaces.Mailbox.SqliteIdempotency
import PlexSpaces.Mailbox.KeyStore
import PlexSpaces.Mailbox.KeyedRetry
import PlexSpaces.Mailbox.Overwrite
import PlexSpaces.Mailbox.SizeAccounting
import PlexSpaces.Mailbox.DurableWakeup
import PlexSpaces.Supervision.Supervisor
import PlexSpaces.Supervision.Strategies
import PlexSpaces.Supervision.GroupRestart
import PlexSpaces.Supervision.Intensity
import PlexSpaces.Supervision.Adaptive
import PlexSpaces.Supervision.ExitPropagation
import PlexSpaces.Supervision.ExitText
import PlexSpaces.Lib.Snapshot
import PlexSpaces.Journaling.Storage
import PlexSpaces.Journaling.Durability
import PlexSpaces.Journaling.Lifecycle
import PlexSpaces.Journaling.Promises
import PlexSpaces.Journaling.Recovery
import PlexSpaces.Journaling.Fidelity
import PlexSpaces.Journaling.ExecutionContext
import PlexSpaces.Journaling.Effects
import PlexSpaces.Journaling.Memoize
import PlexSpaces.Journaling.Messages
import PlexSpaces.Journaling.Truncation
import PlexSpaces.Journaling.Reminder
import PlexSpaces.Journaling.Sqlite
import PlexSpaces.Journaling.Sequences
import PlexSpaces.Journaling.Batches
import PlexSpaces.Journaling.EventReplay
import PlexSpaces.Journaling.EventSourcing
import PlexSpaces.Lib.Like
import PlexSpaces.Journaling.Namespaces
import PlexSpaces.Journaling.ReminderMatch
import PlexSpaces.Journaling.ReminderFacet
import PlexSpaces.Journaling.Occurrences
import PlexSpaces.Journaling.ReminderMirror
import PlexSpaces.Lib.Json
import PlexSpaces.Lib.Placement
import PlexSpaces.Facets.Caching
import PlexSpaces.Facets.Container
import PlexSpaces.Facets.Order
import PlexSpaces.Lib.Interaction
import PlexSpaces.Workflow.Storage
import PlexSpaces.Workflow.Executor
import PlexSpaces.Workflow.Termination
import PlexSpaces.Workflow.Walk
import PlexSpaces.Workflow.Successor
import PlexSpaces.Lib.Pool
import PlexSpaces.Channel.Channel
import PlexSpaces.Channel.Sqlite
import PlexSpaces.Channel.Acknowledgement
import PlexSpaces.Channel.Overwrite
import PlexSpaces.Outbox.Relay
import PlexSpaces.Outbox.Partitioned
import PlexSpaces.Channel.Waiting
import PlexSpaces.Outbox.Retry
import PlexSpaces.Outbox.Routing
import PlexSpaces.Outbox.Order
import PlexSpaces.Actors.ProcessGroups
import PlexSpaces.Actors.GroupMembership
import PlexSpaces.Actors.JoinCounting
import PlexSpaces.Lib.Interference
import PlexSpaces.Lib.Progress
import PlexSpaces.Lib.Chunks
import PlexSpaces.Workflow.Tasks
import PlexSpaces.Workflow.MapLoop
import PlexSpaces.Workflow.MapStep
import PlexSpaces.Workflow.Signals
import PlexSpaces.Workflow.Records
import PlexSpaces.Workflow.Finality
import PlexSpaces.Workflow.Resume
import PlexSpaces.Lib.JsonNumber
import PlexSpaces.Workflow.Struct
import PlexSpaces.Workflow.ChoiceValues
import PlexSpaces.KeyValue.Sqlite
import PlexSpaces.Lib.ExpiryMap
import PlexSpaces.KeyValue.Expiry
import PlexSpaces.KeyValue.Prefix
import PlexSpaces.KeyValue.Tenants
import PlexSpaces.Lib.Varint
import PlexSpaces.Sdk.Encoders
import PlexSpaces.Sdk.Decoders
import PlexSpaces.Sdk.Survival
import PlexSpaces.Sdk.Truncation
import PlexSpaces.Sdk.RoundTrip
import PlexSpaces.Lib.Isolation
import PlexSpaces.Actors.GroupInterleaving
import PlexSpaces.Locks.Manager
import PlexSpaces.Scheduler.Background
import PlexSpaces.Scheduler.LiveLease
import PlexSpaces.Shards.CreateGroup
import PlexSpaces.Shards.AllOrNothing
import PlexSpaces.Workflow.Service
import PlexSpaces.Workflow.ServiceTenants
import PlexSpaces.Lib.Custody
import PlexSpaces.Elastic.Pool
import PlexSpaces.Elastic.Exclusivity
import PlexSpaces.Elastic.Waiters
import PlexSpaces.Lib.Forest
import PlexSpaces.Actors.ParentChild
import PlexSpaces.Supervision.DeathPropagation
import PlexSpaces.Actors.Activation
import PlexSpaces.Journaling.Cadence
import PlexSpaces.Workflow.Retry
import PlexSpaces.Outbox.Limiter
import PlexSpaces.Outbox.Feedback
import PlexSpaces.Actors.GroupListing
import PlexSpaces.Actors.TopicMerging
import PlexSpaces.Shards.ConsistentHash
import PlexSpaces.Shards.RangeOrder
import PlexSpaces.Scheduler.Stopping
import PlexSpaces.Elastic.Bounds
import PlexSpaces.Actors.LruEviction
import PlexSpaces.Actors.AskReplies
import PlexSpaces.Registry.Answers
import PlexSpaces.Supervision.OrderlyShutdown
import PlexSpaces.Nodes.Detection
import PlexSpaces.Applications.Lifecycle
import PlexSpaces.Applications.StartupOrder
import PlexSpaces.Applications.Controller
