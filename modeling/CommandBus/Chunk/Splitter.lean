import CommandBus.Checksum
import CommandBus.Chunk.Metadata
import CommandBus.Chunk.Size

namespace CommandBus.Chunk

/-- The first `count` slices of `size` bytes; the last one may be shorter. -/
def slices (size : Nat) : Nat → Bytes → List Bytes
  | 0, _ => []
  | count + 1, bs => bs.take size :: slices size count (bs.drop size)

theorem flatten_slices (size : Nat) {count : Nat} {bs : Bytes} (h : bs.length ≤ count * size) :
    (slices size count bs).flatten = bs := by
  induction count generalizing bs with
  | zero =>
    have : bs = [] := List.length_eq_zero_iff.mp (by omega)
    simp [slices, this]
  | succ count ih =>
    have hd : (bs.drop size).length ≤ count * size := by
      rw [List.length_drop]
      rw [Nat.succ_mul] at h
      omega
    rw [slices, List.flatten_cons, ih hd, List.take_append_drop]

/-- How many chunks of `size` bytes a payload of `length` bytes makes. -/
def count (size length : Nat) : Nat :=
  (length + size - 1) / size

def metadata (id checksum : String) (total index : Nat) : ChunkMetadata :=
  { messageId := id
    index := index.toUInt32
    total := if index = 0 then some total.toUInt32 else none
    checksum := if index = 0 then some checksum else none }

/-- One chunk of `m`: its topic and properties, with a slice of the payload. -/
def piece (m : Message) (info : ChunkMetadata) (payload : Bytes) : Message :=
  { m with
    payload
    userProperties := m.userProperties.withoutChunk ++ [(ChunkMetadata.key, info.text)] }

/-- The chunks of `m` in order. A payload that fits into one packet is not split. -/
def split (algorithm : ChecksumAlgorithm) (overhead maxPacketSize : Nat) (id : String)
    (m : Message) : Except SplitError (List Message) := do
  let size ← maxSize overhead maxPacketSize
  let length := m.payload.length
  if length ≤ size then throw (.payloadFits length size)
  let total := count size length
  let checksum := Checksum.compute algorithm m.payload
  return (slices size total m.payload).zipIdx.map fun (payload, index) =>
    piece m (metadata id checksum total index) payload

end CommandBus.Chunk
