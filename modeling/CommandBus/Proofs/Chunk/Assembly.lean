import CommandBus.Chunk.Inbound
import CommandBus.Proofs.Association
import CommandBus.Proofs.Chunk.Split
import CommandBus.Proofs.Digest.Segments
import Mathlib

namespace CommandBus

namespace Checksum

theorem matchesHex_compute (algorithm : ChecksumAlgorithm) (data : Bytes) :
    matchesHex algorithm data (compute algorithm data) = true := by
  simp [matchesHex, equalIgnoringCase]

end Checksum

namespace Assembler

def indices (a : Assembler) : List Nat :=
  a.chunks.map (·.1.toNat)

variable {index : UInt32} {d : Delivery} {chunks : List (UInt32 × Delivery)}

theorem mem_insertChunk {chunk : UInt32 × Delivery} :
    chunk ∈ insertChunk index d chunks ↔ chunk = (index, d) ∨ chunk ∈ chunks := by
  induction chunks with
  | nil => simp [insertChunk]
  | cons first rest ih =>
    unfold insertChunk
    split
    · simp
    · simp only [List.mem_cons, ih]
      tauto

theorem pairwise_insertChunk (hn : ∀ chunk ∈ chunks, chunk.1 ≠ index)
    (h : chunks.Pairwise fun a b => a.1 < b.1) :
    (insertChunk index d chunks).Pairwise fun a b => a.1 < b.1 := by
  induction chunks with
  | nil => simp [insertChunk]
  | cons first rest ih =>
    obtain ⟨hf, hr⟩ := List.pairwise_cons.mp h
    unfold insertChunk
    split
    next hlt =>
      refine List.pairwise_cons.mpr ⟨fun chunk hc => ?_, h⟩
      obtain rfl | hc := List.mem_cons.mp hc
      · exact hlt
      · exact UInt32.lt_trans hlt (hf chunk hc)
    next hlt =>
      have hlt' : first.1 < index :=
        UInt32.lt_of_le_of_ne (UInt32.not_lt.mp hlt) (hn first (List.mem_cons_self ..))
      refine List.pairwise_cons.mpr ⟨fun chunk hc => ?_,
        ih (fun chunk hc => hn chunk (List.mem_cons_of_mem _ hc)) hr⟩
      obtain rfl | hc := mem_insertChunk.mp hc
      · exact hlt'
      · exact hf chunk hc

theorem pairwise_indices {a : Assembler} (h : a.chunks.Pairwise fun c d => c.1 < d.1) :
    a.indices.Pairwise (· < ·) :=
  List.pairwise_map.mpr <| h.imp fun hlt => UInt32.lt_iff_toNat_lt.mp hlt

theorem indices_eq_range {a : Assembler} (h : a.chunks.Pairwise fun c d => c.1 < d.1) {n : Nat}
    (hm : ∀ k, k ∈ a.indices ↔ k < n) : a.indices = List.range n := by
  refine List.Perm.eq_of_pairwise ?_ (pairwise_indices h) List.pairwise_lt_range ?_
  · intro i j _ _ hij hji
    omega
  · refine (List.perm_ext_iff_of_nodup ?_ List.nodup_range).mpr fun k => ?_
    · exact (pairwise_indices h).imp fun hlt => hlt.ne
    · rw [hm, List.mem_range]

theorem isVerified_eq (a : Assembler) :
    a.isVerified = a.checksum.elim true (Checksum.matchesHex a.algorithm a.payload) := by
  rw [isVerified, Checksum.segmentsMatchHex_eq, payload, List.flatMap_def]

end Assembler

namespace Chunk

variable {algorithm : ChecksumAlgorithm} {s : SplitMessage algorithm} {a : Assembler}
  {held : Finset Nat}

/-- The assembler holds the chunks of `s` with these numbers and nothing else. -/
structure Holds (s : SplitMessage algorithm) (a : Assembler) (held : Finset Nat) : Prop where
  algorithm_eq : a.algorithm = algorithm
  sorted : a.chunks.Pairwise fun c d => c.1 < d.1
  mem_indices : ∀ k, k ∈ a.indices ↔ k ∈ held
  genuine : ∀ chunk ∈ a.chunks, s.pieces[chunk.1.toNat]? = some chunk.2.message
  total_eq : a.total = if 0 ∈ held then s.pieces.length.toUInt32 else 0
  checksum_eq : a.checksum = if 0 ∈ held then some s.checksum else none

namespace Holds

theorem empty (s : SplitMessage algorithm) (now : Nat) :
    Holds s { algorithm, createdAt := now } ∅ :=
  ⟨rfl, List.Pairwise.nil, by simp [Assembler.indices], by simp, by simp, by simp⟩

theorem lt_length (h : Holds s a held) {k : Nat} (hk : k ∈ held) : k < s.pieces.length := by
  obtain ⟨chunk, hc, rfl⟩ := List.mem_map.mp ((h.mem_indices k).mpr hk)
  exact (List.getElem?_eq_some_iff.mp (h.genuine chunk hc)).1

theorem contains_iff (h : Holds s a held) {k : Nat} (hk : k < s.pieces.length) :
    a.contains k.toUInt32 = true ↔ k ∈ held := by
  have hn := SplitMessage.toNat_toUInt32 (hk.trans s.length_lt)
  rw [← h.mem_indices, Assembler.contains, List.any_eq_true, Assembler.indices, List.mem_map]
  refine exists_congr fun chunk => and_congr_right fun _ => ?_
  rw [beq_iff_eq, ← UInt32.toNat_inj, hn]

theorem add?_of_mem (h : Holds s a held) {k : Nat} (hk : k ∈ held) (d : Delivery) :
    a.add? k.toUInt32 d = none := by
  rw [Assembler.add?, (h.contains_iff (h.lt_length hk)).mpr hk, if_pos rfl]

theorem add?_of_notMem (h : Holds s a held) {k : Nat} (hk : k < s.pieces.length)
    (hn : k ∉ held) {d : Delivery} (hd : d.message = s.pieces[k]) :
    ∃ a', a.add? k.toUInt32 d = some a' ∧
      Holds s (Inbound.learn (s.info k) a') (insert k held) := by
  have hc : ¬ a.contains k.toUInt32 = true := fun hc => hn ((h.contains_iff hk).mp hc)
  have hnat := SplitMessage.toNat_toUInt32 (hk.trans s.length_lt)
  have hsorted : (Assembler.insertChunk k.toUInt32 d a.chunks).Pairwise
      fun c d => c.1 < d.1 := by
    refine Assembler.pairwise_insertChunk (fun chunk hm he => ?_) h.sorted
    exact hc (List.any_eq_true.mpr ⟨chunk, hm, beq_iff_eq.mpr he⟩)
  have hmem : ∀ j, j ∈ (Assembler.insertChunk k.toUInt32 d a.chunks).map (·.1.toNat) ↔
      j ∈ insert k held := by
    intro j
    rw [Finset.mem_insert, ← h.mem_indices j, Assembler.indices]
    simp only [List.mem_map, Assembler.mem_insertChunk, or_and_right, exists_or,
      exists_eq_left, hnat]
    rw [eq_comm]
  have hgenuine : ∀ chunk ∈ Assembler.insertChunk k.toUInt32 d a.chunks,
      s.pieces[chunk.1.toNat]? = some chunk.2.message := by
    intro chunk hm
    obtain rfl | hm := Assembler.mem_insertChunk.mp hm
    · rw [hnat, List.getElem?_eq_getElem hk, hd]
    · exact h.genuine chunk hm
  refine ⟨{ a with chunks := Assembler.insertChunk k.toUInt32 d a.chunks },
    by rw [Assembler.add?, if_neg hc], ?_⟩
  obtain rfl | hpos := Nat.eq_zero_or_pos k
  · exact ⟨h.algorithm_eq, hsorted, hmem, hgenuine, by simp [Inbound.learn, SplitMessage.info,
      metadata, Assembler.setMetadata], by simp [Inbound.learn, SplitMessage.info, metadata,
      Assembler.setMetadata]⟩
  · have hl : ∀ a : Assembler, Inbound.learn (s.info k) a = a := by
      simp [Inbound.learn, SplitMessage.info, metadata, hpos.ne']
    have h0 : 0 ∈ insert k held ↔ 0 ∈ held := by simp [hpos.ne]
    rw [hl]
    exact ⟨h.algorithm_eq, hsorted, hmem, hgenuine, by simp only [h0, h.total_eq],
      by simp only [h0, h.checksum_eq]⟩

theorem indices_eq (h : Holds s a (Finset.range s.pieces.length)) :
    a.indices = List.range s.pieces.length :=
  Assembler.indices_eq_range h.sorted fun k => by rw [h.mem_indices, Finset.mem_range]

theorem messages_eq (h : Holds s a (Finset.range s.pieces.length)) :
    a.chunks.map (·.2.message) = s.pieces := by
  have hi := h.indices_eq
  have hl : a.chunks.length = s.pieces.length := by
    simpa [Assembler.indices] using congrArg List.length hi
  refine List.ext_getElem (by rw [List.length_map, hl]) fun k h₁ h₂ => ?_
  have hk : k < a.chunks.length := by rwa [List.length_map] at h₁
  have hkey : a.chunks[k].1.toNat = k := by
    have := List.getElem_of_eq hi (by rwa [Assembler.indices, List.length_map])
    simpa [Assembler.indices] using this
  have hg := h.genuine a.chunks[k] (List.getElem_mem hk)
  rw [hkey, List.getElem?_eq_getElem h₂, Option.some_inj] at hg
  rw [List.getElem_map, hg]

theorem payload_eq (h : Holds s a (Finset.range s.pieces.length)) :
    a.payload = s.message.payload := by
  have hp : a.payload = (a.chunks.map (·.2.message)).flatMap Message.payload := by
    rw [List.flatMap_map]
    rfl
  rw [hp, h.messages_eq, flatMap_payload_of_split s.split_eq]

theorem exists_lookup (h : Holds s a held) (h0 : 0 ∈ held) :
    ∃ first, a.chunks.lookup 0 = some first ∧ s.pieces[0]? = some first.message := by
  cases hl : a.chunks.lookup 0 with
  | none =>
    obtain ⟨chunk, hc, hz⟩ := List.mem_map.mp ((h.mem_indices 0).mpr h0)
    have hne := List.lookup_eq_none_iff.mp hl chunk hc
    have hz' : (0 : UInt32) = chunk.1 := UInt32.toNat_inj.mp hz.symm
    simp [hz'] at hne
  | some first =>
    exact ⟨first, rfl, h.genuine _ (Association.mem_of_lookup hl)⟩

theorem reassemble?_full (h : Holds s a (Finset.range s.pieces.length)) :
    ∃ token, a.reassemble? = some ⟨s.whole, token⟩ := by
  have h0 : 0 ∈ Finset.range s.pieces.length := Finset.mem_range.mpr s.length_pos
  have htotal : a.total.toNat = s.pieces.length := by
    rw [h.total_eq, if_pos h0, SplitMessage.toNat_toUInt32 s.length_lt]
  have hlen : a.chunks.length = s.pieces.length := by
    simpa using congrArg List.length h.messages_eq
  have hcomplete : a.isComplete = true := by
    have : 0 < a.total := by
      rw [UInt32.lt_iff_toNat_lt, htotal]
      exact s.length_pos
    simp [Assembler.isComplete, this, hlen, htotal]
  have hcontiguous : a.isContiguous = true := by
    have hi := h.indices_eq
    rw [Assembler.indices] at hi
    rw [Assembler.isContiguous, htotal, hi, beq_self_eq_true]
  have hverified : a.isVerified = true := by
    rw [a.isVerified_eq, h.checksum_eq, if_pos h0, Option.elim_some, h.algorithm_eq,
      h.payload_eq]
    exact Checksum.matchesHex_compute ..
  obtain ⟨first, hf, hp⟩ := h.exists_lookup h0
  obtain ⟨payload, hpiece⟩ := s.exists_getElem 0 s.length_pos
  have hm : first.message = piece s.message (s.info 0) payload := by
    rw [List.getElem?_eq_getElem s.length_pos, Option.some_inj] at hp
    rw [← hp, hpiece]
  refine ⟨AckToken.join (a.chunks.map (·.2.ack)), ?_⟩
  rw [Assembler.reassemble?, hcomplete, hcontiguous, hverified, hf, h.payload_eq]
  simp only [hm, piece, SplitMessage.whole, UserProperties.withoutChunk_append, Bool.and_self,
    if_true, Option.map_some]

theorem reassemble?_partial (h : Holds s a held) (hne : held ≠ Finset.range s.pieces.length) :
    a.reassemble? = none := by
  by_cases h0 : 0 ∈ held
  · have hc : a.isContiguous = false := by
      rw [Assembler.isContiguous, h.total_eq, if_pos h0, SplitMessage.toNat_toUInt32 s.length_lt,
        beq_eq_false_iff_ne]
      intro hi
      refine hne (Finset.ext fun k => ?_)
      rw [← h.mem_indices, Assembler.indices, hi, List.mem_range, Finset.mem_range]
    rw [Assembler.reassemble?, hc]
    simp
  · have hc : a.isComplete = false := by
      rw [Assembler.isComplete, h.total_eq, if_neg h0]
      rfl
    rw [Assembler.reassemble?, hc]
    simp

end Holds

end Chunk

end CommandBus
