import CommandBus.World.Simulation

namespace CommandBus.Scenario

/-- The operations of a link for which outages can be arranged. -/
inductive Operation
  | publish
  | subscribe
  | unsubscribe
  | receiver
  deriving DecidableEq, Inhabited, Repr

/-- How payloads of one kind are handled: `read` makes one of the bytes in a step. -/
structure PayloadKind (V : Type) where
  request : Codec V
  response : Codec V
  read : Bytes → V

inductive Step (V : Type)
  /-- Without an id the client gets one of its own. -/
  | connect (name : String) (id : Option String)
  | arrange (client : String) (operation : Operation) (outages : List Outage)
  | limit (client : String) (max : Option Nat)
  | chunk (name client : String) (options : ChunkingOptions)
  | subscribe (client filter : String) (qos : QoS)
  | unsubscribe (client filter : String)
  | publish (client : String) (message : Message)
  | openReceiver (name client filter : String)
  /-- Takes everything waiting at a receiver. -/
  | receive (receiver : String) (acknowledges : Bool)
  /-- Acknowledges the message in the given position of all that a receiver ever received. -/
  | acknowledge (receiver : String) (position : Nat)
  | inspectClient (client : String)
  | disconnect (client : String)
  | hold (filter : String)
  | release (isReversed : Bool)
  | dropHeld
  | sleep (millis : Nat)
  | clock (name : String) (maxDrift : Duration)
  | cache (name : String) (config : Cache.Config)
  | inspectCache (name : String)
  | stopCache (name : String)
  | executor (name client cache : String) (clock : Option String) (kind : PayloadKind V)
      (handler : Handler V) (options : ExecutorOptions)
  | start (executor : String)
  /-- The runs of a handler since this was asked last. -/
  | runs (executor : String)
  | invoker (name client : String) (clock : Option String) (kind : PayloadKind V)
      (options : InvokerOptions)
  | invoke (name invoker : String) (payload : Bytes) (timeout : Duration)
      (userData : UserProperties) (tokens : TokenMap)
  | result (call : String) (waits : Bool)
  | openStream (name invoker : String) (payloads : List Bytes) (isClosed isCancelled : Bool)
      (timeout : Duration) (userData : UserProperties) (tokens : TokenMap)
  | push (stream : String) (payload : Bytes)
  | close (stream : String)
  | next (stream : String) (waits : Bool)
  | cancel (name : String)
  | shutDown (name : String)
  | drop (name : String)

structure ClientReport where
  id : String
  maxPacketSize : Option Nat
  isConnected : Bool
  unacknowledged : Nat
  acknowledged : Nat
  /-- Incomplete messages, at a chunking client. -/
  pending : Option Nat
  deriving Inhabited, Repr

inductive Answer (V : Type)
  | none
  /-- There is nothing of the name. -/
  | missing
  | done
  | flag (value : Bool)
  | count (value : Nat)
  | text (value : String)
  /-- An id that was made up for a client. -/
  | generated (id : String)
  | code (code : ReasonCode)
  | clientError (error : ClientError)
  | protocolError (error : ProtocolError)
  | received (messages : List Message) (isClosed : Bool)
  | client (report : ClientReport)
  | cache (entries bytes : Nat)
  | command (name : String)
  | runs (requests : List (IncomingRequest V))
  | pending
  | result (time : Nat) (result : Except ProtocolError (Response V))
  | item (item : Stream.Item V)

end CommandBus.Scenario
