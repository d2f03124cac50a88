import CommandBus.Acknowledgement
import CommandBus.Checksum
import CommandBus.Chunk.Metadata
import CommandBus.Duration

namespace CommandBus

structure Assembler where
  algorithm : ChecksumAlgorithm
  /-- The time in milliseconds at which the first chunk arrived. -/
  createdAt : Nat
  chunks : List (UInt32 × Delivery) := []
  /-- Zero until chunk 0 tells it. -/
  total : UInt32 := 0
  checksum : Option String := none
  deriving Inhabited, Repr

namespace Assembler

def contains (a : Assembler) (index : UInt32) : Bool :=
  a.chunks.any (·.1 == index)

def insertChunk (index : UInt32) (d : Delivery) :
    List (UInt32 × Delivery) → List (UInt32 × Delivery)
  | [] => [(index, d)]
  | chunk :: rest =>
    if index < chunk.1 then (index, d) :: chunk :: rest else chunk :: insertChunk index d rest

def add? (a : Assembler) (index : UInt32) (d : Delivery) : Option Assembler :=
  if a.contains index then none else some { a with chunks := insertChunk index d a.chunks }

def setMetadata (a : Assembler) (total : UInt32) (checksum : Option String) : Assembler :=
  { a with total, checksum }

def isComplete (a : Assembler) : Bool :=
  0 < a.total && a.chunks.length == a.total.toNat

def payload (a : Assembler) : Bytes :=
  a.chunks.flatMap fun (_, d) => d.message.payload

def isContiguous (a : Assembler) : Bool :=
  a.chunks.map (·.1.toNat) == List.range a.total.toNat

def isVerified (a : Assembler) : Bool :=
  a.checksum.elim true
    (Checksum.segmentsMatchHex a.algorithm (a.chunks.map (·.2.message.payload)))

/-- The whole message with the properties of chunk 0, acknowledged through one token for all
chunks. A chunk that came before chunk 0 may lie past the end, so the count is not enough. -/
def reassemble? (a : Assembler) : Option Delivery :=
  if a.isComplete && a.isContiguous && a.isVerified then
    (a.chunks.lookup 0).map fun first =>
      { message := { first.message with
          payload := a.payload
          userProperties := first.message.userProperties.withoutChunk }
        ack := AckToken.join (a.chunks.map (·.2.ack)) }
  else none

def hasExpired (a : Assembler) (now : Nat) (timeout : Duration) : Bool :=
  timeout.nanos < (Duration.ofMillis (now - a.createdAt)).nanos

end Assembler

end CommandBus
