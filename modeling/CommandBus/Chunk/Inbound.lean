import CommandBus.Chunk.Assembler

namespace CommandBus

structure Inbound where
  algorithm : ChecksumAlgorithm
  timeout : Duration
  /-- Incomplete messages by their ids. -/
  assemblers : List (String × Assembler) := []
  deriving Inhabited, Repr

namespace Inbound

inductive Action
  | acknowledge (ack : AckToken)
  | dispatch (d : Delivery)
  deriving Inhabited, Repr

def assembler (i : Inbound) (id : String) (now : Nat) : Assembler :=
  (i.assemblers.lookup id).getD { algorithm := i.algorithm, createdAt := now }

def remove (i : Inbound) (id : String) : Inbound :=
  { i with assemblers := i.assemblers.filter (·.1 != id) }

def put (i : Inbound) (id : String) (a : Assembler) : Inbound :=
  { i with assemblers := (i.remove id).assemblers ++ [(id, a)] }

def learn (m : ChunkMetadata) (a : Assembler) : Assembler :=
  match m.total with
  | some total => if m.index = 0 then a.setMetadata total m.checksum else a
  | none => a

/-- Malformed and repeated chunks are acknowledged and dropped. A chunk that is kept is
acknowledged at once, except with the message it completes, which is acknowledged as a whole. -/
def handle (i : Inbound) (now : Nat) (d : Delivery) : Action × Inbound :=
  match ChunkMetadata.ofMessage d.message with
  | none => (.dispatch d, i)
  | some (.error _) => (.acknowledge d.ack, i)
  | some (.ok m) =>
    match (i.assembler m.messageId now).add? m.index d with
    | none => (.acknowledge d.ack, i)
    | some a =>
      let a := learn m a
      match a.reassemble? with
      | some whole => (.dispatch whole, i.remove m.messageId)
      | none => (.acknowledge d.ack, i.put m.messageId a)

/-- Discards what has been incomplete for longer than the timeout. -/
def sweep (i : Inbound) (now : Nat) : Inbound :=
  { i with assemblers := i.assemblers.filter fun (_, a) => !a.hasExpired now i.timeout }

end Inbound

end CommandBus
