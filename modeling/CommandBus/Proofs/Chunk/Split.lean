import CommandBus.Chunk.Splitter
import CommandBus.Proofs.Chunk.Metadata
import Mathlib

namespace CommandBus.Chunk

theorem length_slices (size count : Nat) (bs : Bytes) : (slices size count bs).length = count := by
  induction count generalizing bs with
  | zero => rfl
  | succ count ih => rw [slices, List.length_cons, ih]

theorem le_count_mul {size : Nat} (h : 0 < size) (length : Nat) :
    length ≤ count size length * size := by
  have := Nat.div_add_mod (length + size - 1) size
  have := Nat.mod_lt (length + size - 1) h
  rw [count, Nat.mul_comm]
  omega

theorem one_lt_count {size length : Nat} (h : 0 < size) (hl : size < length) :
    1 < count size length :=
  (Nat.le_div_iff_mul_le h).mpr (by omega)

theorem of_maxSize {overhead max size : Nat} (h : maxSize overhead max = .ok size) :
    overhead < max ∧ size = max - overhead := by
  unfold maxSize at h
  split at h
  · cases h
  split at h
  · cases h
  next hlt =>
    cases h
    exact ⟨not_le.mp hlt, rfl⟩

theorem of_split {algorithm : ChecksumAlgorithm} {overhead max : Nat} {id : String} {m : Message}
    {pieces : List Message} (h : split algorithm overhead max id m = .ok pieces) :
    let size := max - overhead
    let total := count size m.payload.length
    overhead < max ∧ size < m.payload.length ∧
      pieces = (slices size total m.payload).zipIdx.map fun (payload, index) =>
        piece m (metadata id (Checksum.compute algorithm m.payload) total index) payload := by
  unfold split at h
  cases hm : maxSize overhead max with
  | error e =>
    rw [hm] at h
    cases h
  | ok size =>
    obtain ⟨hlt, rfl⟩ := of_maxSize hm
    rw [hm] at h
    by_cases hl : m.payload.length ≤ max - overhead
    · simp [bind, Except.bind, hl, throw, throwThe, MonadExceptOf.throw] at h
    · simp only [bind, Except.bind, hl, if_false, pure, Except.pure, Except.ok.injEq] at h
      exact ⟨hlt, not_le.mp hl, h.symm⟩

theorem map_payload_of_split {algorithm : ChecksumAlgorithm} {overhead max : Nat} {id : String}
    {m : Message} {pieces : List Message} (h : split algorithm overhead max id m = .ok pieces) :
    pieces.map Message.payload =
      slices (max - overhead) (count (max - overhead) m.payload.length) m.payload := by
  obtain ⟨-, -, hp⟩ := of_split h
  rw [hp, List.map_map]
  exact List.zipIdx_map_fst 0 _

theorem flatMap_payload_of_split {algorithm : ChecksumAlgorithm} {overhead max : Nat} {id : String}
    {m : Message} {pieces : List Message} (h : split algorithm overhead max id m = .ok pieces) :
    pieces.flatMap Message.payload = m.payload := by
  have hsize := Nat.sub_pos_of_lt (of_split h).1
  rw [List.flatMap_def, map_payload_of_split h, flatten_slices _ (le_count_mul hsize _)]

end CommandBus.Chunk

namespace CommandBus

open Chunk

theorem UserProperties.withoutChunk_append (properties : UserProperties) (value : String) :
    withoutChunk (properties.withoutChunk ++ [(ChunkMetadata.key, value)]) =
      properties.withoutChunk := by
  simp [withoutChunk]

theorem UserProperties.get?_withoutChunk_append (properties : UserProperties) (value : String) :
    get? (properties.withoutChunk ++ [(ChunkMetadata.key, value)]) ChunkMetadata.key =
      some value := by
  have hn : properties.withoutChunk.lookup ChunkMetadata.key = none := by
    rw [List.lookup_eq_none_iff]
    intro p hp
    simp only [withoutChunk, List.mem_filter, bne_iff_ne] at hp
    simpa using Ne.symm hp.2
  rw [get?, List.lookup_append, hn]
  simp

namespace Chunk

/-- A message and the chunks made of it; fewer than `2 ^ 32`, so that they can be counted. -/
structure SplitMessage (algorithm : ChecksumAlgorithm) where
  message : Message
  id : String
  overhead : Nat
  maxPacketSize : Nat
  pieces : List Message
  split_eq : split algorithm overhead maxPacketSize id message = .ok pieces
  length_lt : pieces.length < 2 ^ 32

namespace SplitMessage

variable {algorithm : ChecksumAlgorithm} (s : SplitMessage algorithm)

def whole : Message :=
  { s.message with userProperties := s.message.userProperties.withoutChunk }

def checksum : String := Checksum.compute algorithm s.message.payload

def info (k : Nat) : ChunkMetadata := metadata s.id s.checksum s.pieces.length k

theorem exists_payloads :
    ∃ payloads : List Bytes, payloads.length = s.pieces.length ∧ 0 < payloads.length ∧
      s.pieces = payloads.zipIdx.map fun (payload, k) => piece s.message (s.info k) payload := by
  obtain ⟨hlt, hl, hs⟩ := of_split s.split_eq
  have hp : 0 < s.maxPacketSize - s.overhead := Nat.sub_pos_of_lt hlt
  have hn := congrArg List.length hs
  rw [List.length_map, List.length_zipIdx] at hn
  refine ⟨_, hn.symm, ?_, ?_⟩
  · rw [length_slices]
    exact Nat.zero_lt_of_lt (one_lt_count hp hl)
  · rw [length_slices] at hn
    unfold info checksum
    rw [hn]
    exact hs

theorem toNat_toUInt32 {n : Nat} (h : n < 2 ^ 32) : n.toUInt32.toNat = n :=
  UInt32.toNat_ofNat_of_lt' h

theorem length_pos : 0 < s.pieces.length := by
  obtain ⟨payloads, hl, hp, -⟩ := s.exists_payloads
  omega

theorem exists_getElem (k : Nat) (h : k < s.pieces.length) :
    ∃ payload, s.pieces[k] = piece s.message (s.info k) payload := by
  obtain ⟨payloads, hl, -, hs⟩ := s.exists_payloads
  refine ⟨payloads[k], ?_⟩
  simp [hs]

theorem isBounded_info {k : Nat} (h : k < s.pieces.length) : (s.info k).IsBounded := by
  have hk := toNat_toUInt32 (h.trans s.length_lt)
  refine ⟨fun total ht => ?_, fun hindex ht => ?_⟩
  · obtain ⟨-, htotal⟩ := Option.ite_none_right_eq_some.mp ht
    cases htotal
    show k.toUInt32 < s.pieces.length.toUInt32
    rw [UInt32.lt_iff_toNat_lt, hk, toNat_toUInt32 s.length_lt]
    exact h
  · have hzero : k = 0 := by
      rw [← hk, show k.toUInt32 = 0 from hindex]
      rfl
    subst hzero
    cases ht

theorem ofMessage_getElem (k : Nat) (h : k < s.pieces.length) :
    ChunkMetadata.ofMessage s.pieces[k] = some (.ok (s.info k)) := by
  obtain ⟨payload, hp⟩ := s.exists_getElem k h
  rw [hp, ChunkMetadata.ofMessage, Message.userProperty?, piece,
    UserProperties.get?_withoutChunk_append, Option.map_some, ChunkMetadata.parse_eq_check,
    ChunkMetadata.check_of_isBounded (s.isBounded_info h)]

end SplitMessage

end Chunk

end CommandBus
