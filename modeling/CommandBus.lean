import CommandBus.Caching
import CommandBus.Main
import CommandBus.Queue
import CommandBus.Scenario
import CommandBus.Proofs.Cache.Faults
import CommandBus.Proofs.Cache.Lifecycle
import CommandBus.Proofs.Cache.Reservations
import CommandBus.Proofs.Chunk.Delivery
import CommandBus.Proofs.Clock.Causality
import CommandBus.Proofs.Clock.Rejection
import CommandBus.Proofs.Executor.AtMostOnce
import CommandBus.Proofs.Executor.Reuse
import CommandBus.Proofs.Invoker.Outcomes
import CommandBus.Proofs.Queue.Wakeups
import CommandBus.Proofs.Topic.Covering
import CommandBus.Proofs.Cache.Arising
import CommandBus.Proofs.Cache.Sharing
import CommandBus.Proofs.Cache.Bounds
import CommandBus.Proofs.Cache.Deadlines
import CommandBus.Proofs.Cache.Expiry
import CommandBus.Proofs.Cache.ExpiryLoop
import CommandBus.Proofs.Chunk.Handover
import CommandBus.Proofs.Chunk.Acknowledged
import CommandBus.Proofs.Cache.Doubles
import CommandBus.Proofs.Cache.Worth
import CommandBus.Proofs.Executor.Redelivery
import CommandBus.Proofs.Invoker.Routing
import CommandBus.Proofs.Chunk.Transparency
import CommandBus.Proofs.Chunk.Sweeping
import CommandBus.Proofs.Invoker.Subscriptions
import CommandBus.Proofs.Stream.Requests
import CommandBus.Proofs.Protocol.Repetition
import CommandBus.Proofs.Executor.Lateness
import CommandBus.Proofs.Stream.Rejection
import CommandBus.Proofs.Cache.Eviction
import CommandBus.Proofs.Cache.Lookup
import CommandBus.Proofs.Chunk.Reassembly
import CommandBus.Proofs.Chunk.Sizes
import CommandBus.Proofs.Topic.Grammar
import CommandBus.Proofs.Clock.Encoding
import CommandBus.Proofs.Protocol.Version
import CommandBus.Proofs.Broker.Tokens
import CommandBus.Proofs.Broker.Accounts
