import CommandBus.Chunk.Inbound
import CommandBus.Chunk.Splitter
import CommandBus.Mailbox
import CommandBus.ProtocolError

namespace CommandBus

structure ChunkingOptions where
  enabled : Bool := true
  /-- Bytes reserved in every chunk for everything but the payload. -/
  overhead : Nat := 1024
  timeoutSecs : Nat := 10
  sweepSecs : Nat := 5
  algorithm : ChecksumAlgorithm := .sha256
  deriving DecidableEq, Inhabited, Repr

structure ChunkingClient where
  /-- The number of the client beneath. -/
  link : Nat
  options : ChunkingOptions
  inbound : Inbound
  receivers : Receivers := []
  /-- The mailbox for everything that the client beneath receives. -/
  box : Nat
  isCancelled : Bool := false
  isCollecting : Bool := true
  /-- When incomplete messages are looked through next, while that goes on. -/
  nextSweep : Option Nat
  deriving Inhabited, Repr

namespace ChunkingOptions

/-- Chunking needs a limit on packets that leaves room for a payload. -/
def check (o : ChunkingOptions) (maxPacketSize : Option Nat) : Except ProtocolError Unit :=
  if !o.enabled then .ok ()
  else match maxPacketSize.filter (0 < ·) with
    | none =>
      .error ((ProtocolError.configurationInvalid "max_packet_size" "none").withText
        "chunking requires the server to report a maximum packet size")
    | some max =>
      match Chunk.maxSize o.overhead max with
      | .ok _ => .ok ()
      | .error e =>
        .error ((ProtocolError.configurationInvalid "static_overhead" (toString o.overhead)).withCause
          (.split e))

/-- What is to be published for a message: itself, or its chunks under the given id. -/
def prepare (o : ChunkingOptions) (maxPacketSize : Option Nat) (id : String) (m : Message) :
    Except SplitError (List Message) :=
  match maxPacketSize with
  | none => .ok [m]
  | some max =>
    if !o.enabled then .ok [m]
    else do
      if m.payload.length ≤ (← Chunk.maxSize o.overhead max) then return [m]
      Chunk.split o.algorithm o.overhead max id m

/-- Incomplete messages are looked through this often, in milliseconds. -/
def sweepInterval (o : ChunkingOptions) : Nat :=
  1000 * max 1 o.sweepSecs

end ChunkingOptions

namespace ChunkingClient

def create (link box now : Nat) (o : ChunkingOptions) : ChunkingClient where
  link
  options := o
  inbound := { algorithm := o.algorithm, timeout := .ofSecs o.timeoutSecs }
  box
  nextSweep := if o.enabled then some now else none

/-- The number of messages of which some but not all chunks have arrived. -/
def pending (c : ChunkingClient) : Nat :=
  c.inbound.assemblers.length

def sweep (c : ChunkingClient) (now : Nat) : ChunkingClient :=
  { c with inbound := c.inbound.sweep now, nextSweep := some (now + c.options.sweepInterval) }

end ChunkingClient

end CommandBus
