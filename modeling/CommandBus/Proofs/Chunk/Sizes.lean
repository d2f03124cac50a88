import CommandBus.Network
import CommandBus.Proofs.Chunk.Split
import CommandBus.Proofs.Json.Sizes
import Mathlib

namespace CommandBus

namespace UserProperties

variable {properties : UserProperties}

theorem withoutChunk_of_get?_eq_none (h : properties.get? ChunkMetadata.key = none) :
    properties.withoutChunk = properties := by
  refine List.filter_eq_self.mpr fun p hp => ?_
  have hne := List.lookup_eq_none_iff.mp h p hp
  simpa using Ne.symm (by simpa using hne)

end UserProperties

namespace Message

/-- What a packet holds of the message beside its payload and its place among chunks. -/
def envelope (m : Message) : Message :=
  { m with payload := [], userProperties := m.userProperties.withoutChunk }

theorem packetSize_piece (m : Message) (info : ChunkMetadata) (payload : Bytes) :
    (Chunk.piece m info payload).packetSize =
      m.envelope.packetSize + propertySize (ChunkMetadata.key, info.text) + payload.length := by
  unfold packetSize Chunk.piece envelope
  dsimp only
  rw [List.foldl_append, List.foldl_cons, List.foldl_nil, List.length_nil]
  omega

theorem packetSize_of_withoutChunk {m : Message}
    (h : m.userProperties.withoutChunk = m.userProperties) :
    m.packetSize = m.envelope.packetSize + m.payload.length := by
  simp only [packetSize, envelope, h, List.length_nil, Nat.add_zero]

end Message

namespace Chunk

open Json

theorem count_eq_ceilDiv (size length : Nat) : count size length = length ⌈/⌉ size :=
  (Nat.ceilDiv_eq_add_pred_div length size).symm

theorem exists_split_iff (algorithm : ChecksumAlgorithm) (overhead max : Nat) (id : String)
    (m : Message) : (∃ pieces, split algorithm overhead max id m = .ok pieces) ↔
      minPacketSize ≤ max ∧ overhead < max ∧ max - overhead < m.payload.length := by
  constructor
  · rintro ⟨pieces, h⟩
    obtain ⟨hlt, hl, -⟩ := of_split h
    refine ⟨not_lt.mp fun hmin => ?_, hlt, hl⟩
    rw [split, maxSize, if_pos hmin] at h
    cases h
  · rintro ⟨hmin, hlt, hl⟩
    rw [split, maxSize, if_neg (not_lt.mpr hmin), if_neg (not_le.mpr hlt)]
    simp only [bind, Except.bind, if_neg (not_le.mpr hl)]
    exact ⟨_, rfl⟩

theorem slice_ne_nil_and_length_le {size count : Nat} {bs : Bytes} (hsize : 0 < size)
    (h : count * size < bs.length + size) :
    ∀ slice ∈ slices size count bs, slice ≠ [] ∧ slice.length ≤ size := by
  induction count generalizing bs with
  | zero => simp [slices]
  | succ count ih =>
    rw [Nat.succ_mul] at h
    rw [slices, List.forall_mem_cons]
    refine ⟨⟨List.ne_nil_of_length_pos ?_, List.length_take_le size bs⟩, ih ?_⟩
    · rw [List.length_take]
      omega
    · rw [List.length_drop]
      omega

theorem payload_ne_nil_and_length_le {algorithm : ChecksumAlgorithm} {overhead max : Nat}
    {id : String} {m p : Message} {pieces : List Message}
    (h : split algorithm overhead max id m = .ok pieces) (hp : p ∈ pieces) :
    p.payload ≠ [] ∧ p.payload.length ≤ max - overhead := by
  obtain ⟨hlt, hl, -⟩ := of_split h
  have hsize := Nat.sub_pos_of_lt hlt
  have hcount : count (max - overhead) m.payload.length * (max - overhead) <
      m.payload.length + (max - overhead) := by
    have := Nat.div_mul_le_self (m.payload.length + (max - overhead) - 1) (max - overhead)
    rw [count]
    omega
  refine slice_ne_nil_and_length_le hsize hcount p.payload ?_
  rw [← map_payload_of_split h]
  exact List.mem_map_of_mem hp

theorem utf8ByteSize_text (info : ChunkMetadata) :
    info.text.utf8ByteSize =
      28 + String.utf8Len (writeText info.messageId) +
        String.utf8Len (writeNatural info.index.toNat) +
        info.total.elim 0 (fun n => 15 + String.utf8Len (writeNatural n.toNat)) +
        info.checksum.elim 0 fun s => 12 + String.utf8Len (writeText s) := by
  have hkeys : ∀ key ∈ ChunkMetadata.keys, ∀ c ∈ key.toList, IsPlain c := by
    simp [ChunkMetadata.keys, IsPlain]
  rw [ChunkMetadata.text, String.utf8ByteSize_ofList, utf8Len_writeObject (by simp)]
  · cases info.total <;> cases info.checksum <;> simp <;> omega
  · intro p hp
    refine hkeys p.1 ?_
    simp only [List.mem_append, List.mem_cons, Option.mem_toList, Option.map_eq_some_iff,
      List.not_mem_nil, or_false] at hp
    obtain ((rfl | rfl) | ⟨n, -, rfl⟩) | ⟨s, -, rfl⟩ := hp <;> simp [ChunkMetadata.keys]

/-- An identifier has 36 characters, and a number has ten digits at most. Only the first chunk,
with index 0, tells the total and a checksum. -/
theorem utf8ByteSize_text_metadata_le {id checksum : String} (hid : ∀ c ∈ id.toList, IsPlain c)
    (hlength : id.toList.length = 36) (hchecksum : ∀ c ∈ checksum.toList, IsPlain c)
    (hle : checksum.toList.length ≤ 64) (total index : Nat) :
    (metadata id checksum total index).text.utf8ByteSize ≤ 170 := by
  have hnumber : ∀ n : UInt32, String.utf8Len (writeNatural n.toNat) ≤ 10 := fun n =>
    utf8Len_writeNatural (by decide) (n.toNat_lt.trans (by decide))
  rw [utf8ByteSize_text, metadata, utf8Len_writeText hid]
  obtain rfl | hindex := Nat.eq_zero_or_pos index
  · have hzero : String.utf8Len (writeNatural (Nat.toUInt32 0).toNat) ≤ 1 :=
      utf8Len_writeNatural (by decide) (by decide)
    have htotal := hnumber total.toUInt32
    simp only [if_true, Option.elim_some, utf8Len_writeText hchecksum]
    omega
  · have hindex' := hnumber index.toUInt32
    simp only [hindex.ne', if_false, Option.elim_none]
    omega

theorem packetSize_piece_le (algorithm : ChecksumAlgorithm) {uuid : Bytes}
    (huuid : uuid.length = 16) (m : Message) (total index : Nat) (payload : Bytes) :
    (piece m (metadata (Uuid.text uuid) (Checksum.compute algorithm m.payload) total index)
      payload).packetSize ≤ m.envelope.packetSize + 182 + payload.length := by
  have hkey : ChunkMetadata.key.utf8ByteSize = 7 := by decide
  have htext := utf8ByteSize_text_metadata_le Uuid.isPlain_text (Uuid.length_text huuid)
    (Checksum.isPlain_compute algorithm m.payload) (Checksum.length_compute_le algorithm m.payload)
    total index
  rw [Message.packetSize_piece, Message.propertySize]
  dsimp only
  rw [hkey]
  omega

theorem packetSize_le_of_mem_split {algorithm : ChecksumAlgorithm} {overhead max : Nat}
    {uuid : Bytes} {m p : Message} {pieces : List Message} (huuid : uuid.length = 16)
    (h : split algorithm overhead max (Uuid.text uuid) m = .ok pieces)
    (ho : m.envelope.packetSize + 182 ≤ overhead) (hp : p ∈ pieces) : p.packetSize ≤ max := by
  obtain ⟨hlt, -, hpieces⟩ := of_split h
  have hpayload := (payload_ne_nil_and_length_le h hp).2
  rw [hpieces] at hp
  obtain ⟨⟨payload, index⟩, -, rfl⟩ := List.mem_map.mp hp
  have hpiece := packetSize_piece_le algorithm huuid m
    (count (max - overhead) m.payload.length) index payload
  change payload.length ≤ max - overhead at hpayload
  dsimp only
  omega

end Chunk

theorem ChunkingOptions.packetSize_le_of_mem_prepare {o : ChunkingOptions} {max : Nat}
    {uuid : Bytes} {m p : Message} {messages : List Message} (henabled : o.enabled = true)
    (huuid : uuid.length = 16) (hplain : m.userProperty? ChunkMetadata.key = none)
    (ho : m.envelope.packetSize + 182 ≤ o.overhead)
    (h : o.prepare (some max) (Uuid.text uuid) m = .ok messages) (hp : p ∈ messages) :
    p.packetSize ≤ max := by
  rw [prepare, henabled] at h
  cases hsize : Chunk.maxSize o.overhead max with
  | error e =>
    rw [hsize] at h
    cases h
  | ok size =>
    obtain ⟨hlt, rfl⟩ := Chunk.of_maxSize hsize
    rw [hsize] at h
    by_cases hl : m.payload.length ≤ max - o.overhead
    · simp only [bind, Except.bind, hl, if_true, pure, Except.pure, Bool.not_true,
        Bool.false_eq_true, if_false, Except.ok.injEq] at h
      subst h
      rw [List.mem_singleton.mp hp, Message.packetSize_of_withoutChunk
        (UserProperties.withoutChunk_of_get?_eq_none hplain)]
      omega
    · simp only [bind, Except.bind, hl, if_false, Bool.not_true, Bool.false_eq_true] at h
      exact Chunk.packetSize_le_of_mem_split huuid h ho hp

namespace Broker

theorem maxPacketSize_acknowledgeAll (tokens : List AckToken) (b : Broker) :
    (tokens.foldl acknowledge b).maxPacketSize = b.maxPacketSize := by
  induction tokens generalizing b with
  | nil => rfl
  | cons token rest ih => exact ih (b.acknowledge token)

theorem maxPacketSize_publish (b : Broker) (client : String) (m : Message) :
    (b.publish client m).2.maxPacketSize = b.maxPacketSize := by
  rw [publish]
  split
  · rfl
  · dsimp only
    split
    · rfl
    · split
      · rfl
      · exact maxPacketSize_acknowledgeAll _ _

theorem publish_ne_packetTooLarge {b : Broker} {m : Message}
    (h : ∀ max ∈ b.maxPacketSize, m.packetSize ≤ max) (client : String) (size limit : Nat) :
    (b.publish client m).1 ≠ .error (.packetTooLarge size limit) := by
  have hfits : b.maxPacketSize.filter (· < m.packetSize) = none :=
    Option.filter_eq_none_iff.mpr fun max hmax => by
      simpa using h max hmax
  rw [publish]
  dsimp only
  rw [hfits]
  dsimp only
  split
  · exact fun he => nomatch he
  · split
    · exact fun he => nomatch he
    · exact fun he => nomatch he

end Broker

namespace Network

theorem publishOn_of_fits {n : Network} {m : Message}
    (h : ∀ max ∈ n.broker.maxPacketSize, m.packetSize ≤ max) (link size limit : Nat) :
    (n.publishOn link m).1 ≠ .error (.packetTooLarge size limit) ∧
      (n.publishOn link m).2.broker.maxPacketSize = n.broker.maxPacketSize := by
  have hfirst := Broker.publish_ne_packetTooLarge h (n.clientIdOf link) size limit
  have hlimit := n.broker.maxPacketSize_publish (n.clientIdOf link) m
  rw [publishOn, onLink]
  split
  · exact ⟨hfirst, hlimit⟩
  next outage more _ =>
    cases outage with
    | pass => exact ⟨hfirst, hlimit⟩
    | answer => exact ⟨(fun he => nomatch he), rfl⟩
    | disconnected => exact ⟨(fun he => nomatch he), rfl⟩

theorem publishAll_ne_packetTooLarge {messages : List Message} {n : Network}
    (h : ∀ m ∈ messages, ∀ max ∈ n.broker.maxPacketSize, m.packetSize ≤ max)
    (link size limit : Nat) (code : ReasonCode) :
    (publishAll link messages code n).1 ≠ .error (.packetTooLarge size limit) := by
  induction messages generalizing code n with
  | nil => exact fun he => nomatch he
  | cons m rest ih =>
    obtain ⟨hm, hrest⟩ := List.forall_mem_cons.mp h
    obtain ⟨hfirst, hlimit⟩ := publishOn_of_fits hm link size limit
    rw [publishAll]
    split
    next e next he =>
      rwa [he] at hfirst
    next code next he =>
      rw [he] at hlimit
      split
      · refine ih (fun p hp => ?_) code
        rw [hlimit]
        exact hrest p hp
      · exact fun he => nomatch he

theorem publish_chunking_ne_packetTooLarge {n : Network} {id : Nat} {chunker : ChunkingClient}
    {m : Message} (hchunker : n.chunkers[id]? = some chunker)
    (henabled : chunker.options.enabled = true)
    (hlimit : n.maxPacketSize chunker.link = n.broker.maxPacketSize)
    (hplain : m.userProperty? ChunkMetadata.key = none)
    (ho : m.envelope.packetSize + 182 ≤ chunker.options.overhead) (size limit : Nat) :
    (n.publish (.chunking id) m).1 ≠ .error (.packetTooLarge size limit) := by
  have huuid : n.freshId.1.length = 16 := Uuid.length_ofIndex n.issuedIds
  rw [publish]
  dsimp only
  split
  next => exact fun he => nomatch he
  next found hfound =>
    rw [hchunker] at hfound
    obtain rfl : chunker = found := Option.some.inj (Option.filter_eq_some_iff.mp hfound).1
    split
    next => exact fun he => nomatch he
    next messages hmessages =>
      refine publishAll_ne_packetTooLarge (fun p hp max hmax => ?_) chunker.link size limit _
      have hmax : n.maxPacketSize chunker.link = some max := hlimit.trans hmax
      have hmessages : chunker.options.prepare (n.maxPacketSize chunker.link)
        (Uuid.text n.freshId.1) m = .ok messages := hmessages
      rw [hmax] at hmessages
      exact ChunkingOptions.packetSize_le_of_mem_prepare henabled huuid hplain ho hmessages hp

end Network

namespace Chunk

/-- A message is split exactly if there is room for a payload but not for all of it. Chunks are as
few as can be and not empty. If the overhead covers what their packets hold beside the payload,
where 12 bytes go to the property with its key and 170 to its value, then no packet is larger than
the limit, and a broker with this limit refuses nothing that a chunking client publishes as too
large. -/
theorem chunks_fit_packets :
    (∀ (algorithm : ChecksumAlgorithm) (overhead max : Nat) (id : String) (m : Message),
      (∃ pieces, split algorithm overhead max id m = .ok pieces) ↔
        minPacketSize ≤ max ∧ overhead < max ∧ max - overhead < m.payload.length) ∧
    (∀ (algorithm : ChecksumAlgorithm) (overhead max : Nat) (id : String) (m : Message)
      (pieces : List Message), split algorithm overhead max id m = .ok pieces →
        pieces.length = m.payload.length ⌈/⌉ (max - overhead) ∧ 2 ≤ pieces.length ∧
        (∀ p ∈ pieces, p.payload ≠ [] ∧ p.payload.length ≤ max - overhead) ∧
        pieces.flatMap Message.payload = m.payload) ∧
    (∀ (algorithm : ChecksumAlgorithm) (overhead max : Nat) (uuid : Bytes) (m : Message)
      (pieces : List Message), uuid.length = 16 →
        split algorithm overhead max (Uuid.text uuid) m = .ok pieces →
        m.envelope.packetSize + 182 ≤ overhead → ∀ p ∈ pieces, p.packetSize ≤ max) ∧
    (∀ (o : ChunkingOptions) (max : Nat) (uuid : Bytes) (m : Message) (messages : List Message),
      o.enabled = true → uuid.length = 16 → m.userProperty? ChunkMetadata.key = none →
        m.envelope.packetSize + 182 ≤ o.overhead →
        o.prepare (some max) (Uuid.text uuid) m = .ok messages →
        ∀ p ∈ messages, ∀ b : Broker, b.maxPacketSize = some max → ∀ client size limit,
          (b.publish client p).1 ≠ .error (.packetTooLarge size limit)) ∧
    ∀ (n : Network) (id : Nat) (chunker : ChunkingClient) (m : Message),
      n.chunkers[id]? = some chunker → chunker.options.enabled = true →
        n.maxPacketSize chunker.link = n.broker.maxPacketSize →
        m.userProperty? ChunkMetadata.key = none →
        m.envelope.packetSize + 182 ≤ chunker.options.overhead → ∀ size limit,
          (n.publish (.chunking id) m).1 ≠ .error (.packetTooLarge size limit) := by
  refine ⟨exists_split_iff, fun algorithm overhead max id m pieces h => ?_,
    fun algorithm overhead max uuid m pieces huuid h ho p hp =>
      packetSize_le_of_mem_split huuid h ho hp,
    fun o max uuid m messages henabled huuid hplain ho h p hp b hb client size limit => ?_,
    fun n id chunker m hchunker henabled hlimit hplain ho =>
      Network.publish_chunking_ne_packetTooLarge hchunker henabled hlimit hplain ho⟩
  · obtain ⟨hlt, hl, -⟩ := of_split h
    have hcount : pieces.length = count (max - overhead) m.payload.length := by
      rw [← List.length_map Message.payload, map_payload_of_split h, length_slices]
    refine ⟨hcount.trans (count_eq_ceilDiv _ _), ?_,
      fun p hp => payload_ne_nil_and_length_le h hp, flatMap_payload_of_split h⟩
    rw [hcount]
    exact one_lt_count (Nat.sub_pos_of_lt hlt) hl
  · have hle := ChunkingOptions.packetSize_le_of_mem_prepare henabled huuid hplain ho h hp
    refine Broker.publish_ne_packetTooLarge (fun max' hmax' => ?_) client size limit
    rw [hb] at hmax'
    cases hmax'
    exact hle

/-- Two bytes where a chunk has room for one: 14 bytes for the topic and the header of a packet and
182 for what the chunk says about itself leave one of 197. -/
theorem two_bytes_fit_two_packets :
    let m : Message := { topic := "t", payload := [1, 2] }
    let o : ChunkingOptions := { overhead := 196 }
    let uuid := Uuid.ofIndex 0
    let n : Network :=
      { broker := { maxPacketSize := some 197 }
        links := [{ clientId := "c" }]
        chunkers := [ChunkingClient.create 0 0 0 o] }
    m.envelope.packetSize + 182 ≤ o.overhead ∧
      (∃ pieces, split o.algorithm o.overhead 197 (Uuid.text uuid) m = .ok pieces ∧
        pieces.length = 2 ∧ ∀ p ∈ pieces, p.packetSize ≤ 197) ∧
      (∃ messages, o.prepare (some 197) (Uuid.text uuid) m = .ok messages ∧
        ∀ p ∈ messages, (n.broker.publish "c" p).1 ≠ .error (.packetTooLarge 198 197)) ∧
      (n.publish (.chunking 0) m).1 ≠ .error (.packetTooLarge 198 197) := by
  intro m o uuid n
  obtain ⟨-, hsplit, hfits, hprepared, hpublished⟩ := chunks_fit_packets
  have huuid : uuid.length = 16 := by decide
  have ho : m.envelope.packetSize + 182 ≤ o.overhead := by decide
  refine ⟨ho, ⟨_, rfl, ?_, hfits _ _ _ _ _ _ huuid rfl ho⟩,
    ⟨_, rfl, fun p hp => hprepared _ _ _ _ _ rfl huuid rfl ho rfl p hp _ rfl "c" 198 197⟩,
    hpublished _ _ _ _ rfl rfl rfl rfl ho 198 197⟩
  rw [(hsplit o.algorithm o.overhead 197 (Uuid.text uuid) m _ rfl).1, ← count_eq_ceilDiv]
  decide

end Chunk

end CommandBus
