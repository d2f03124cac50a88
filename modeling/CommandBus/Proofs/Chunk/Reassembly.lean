import CommandBus.Proofs.Chunk.Assembly
import Mathlib

namespace CommandBus.Assembler

/-- What may be done to an assembler; an attempt to reassemble leaves it as it is. -/
inductive Operation
  | add (index : UInt32) (d : Delivery)
  | setMetadata (total : UInt32) (checksum : Option String)
  | reassemble

def Operation.apply : Operation → Assembler → Assembler
  | .add index d, a => (a.add? index d).getD a
  | .setMetadata total checksum, a => a.setMetadata total checksum
  | .reassemble, a => a

def run (a : Assembler) (operations : List Operation) : Assembler :=
  operations.foldl (fun a operation => operation.apply a) a

def firstChunk? (operations : List Operation) (index : UInt32) : Option Delivery :=
  operations.findSome? fun
    | .add i d => if i = index then some d else none
    | _ => none

def lastMetadata (operations : List Operation) : UInt32 × Option String :=
  (operations.reverse.findSome? fun
    | .setMetadata total checksum => some (total, checksum)
    | _ => none).getD (0, none)

/-- The payloads of so many chunks, in the order of their indices. -/
def payloadUpTo (operations : List Operation) (total : UInt32) : Bytes :=
  (List.range total.toNat).flatMap fun k =>
    (firstChunk? operations k.toUInt32).elim [] (·.message.payload)

variable {a : Assembler} {operations : List Operation} {index : UInt32} {d : Delivery}

theorem isSome_firstChunk? :
    (firstChunk? operations index).isSome = true ↔ ∃ d, .add index d ∈ operations := by
  rw [firstChunk?, List.findSome?_isSome_iff]
  constructor
  · rintro ⟨operation, hm, hsome⟩
    cases operation with
    | add i d =>
      dsimp only at hsome
      split at hsome
      next hi => exact ⟨d, hi ▸ hm⟩
      next => cases hsome
    | setMetadata | reassemble => cases hsome
  · rintro ⟨d, hm⟩
    exact ⟨_, hm, by simp⟩

theorem firstChunk?_concat_add (operations : List Operation) (index : UInt32) (d : Delivery)
    (i : UInt32) : firstChunk? (operations ++ [.add index d]) i =
      (firstChunk? operations i).or (if index = i then some d else none) := by
  rw [firstChunk?, List.findSome?_append]
  simp [firstChunk?]

theorem firstChunk?_concat (operations : List Operation) (operation : Operation)
    (h : ∀ index d, operation ≠ .add index d) (index : UInt32) :
    firstChunk? (operations ++ [operation]) index = firstChunk? operations index := by
  rw [firstChunk?, List.findSome?_append, ← firstChunk?]
  cases operation with
  | add index d => exact absurd rfl (h index d)
  | setMetadata | reassemble => exact Option.or_none

theorem lastMetadata_concat (operations : List Operation) (operation : Operation)
    (h : ∀ total checksum, operation ≠ .setMetadata total checksum) :
    lastMetadata (operations ++ [operation]) = lastMetadata operations := by
  rw [lastMetadata, List.reverse_append]
  cases operation with
  | setMetadata total checksum => exact absurd rfl (h total checksum)
  | add | reassemble => rfl

structure Keeps (a : Assembler) (operations : List Operation) : Prop where
  sorted : a.chunks.Pairwise fun c d => c.1 < d.1
  mem_iff : ∀ index d, (index, d) ∈ a.chunks ↔ firstChunk? operations index = some d
  metadata_eq : (a.total, a.checksum) = lastMetadata operations

namespace Keeps

theorem contains_iff (h : Keeps a operations) :
    a.contains index = true ↔ ∃ d, .add index d ∈ operations := by
  rw [← isSome_firstChunk?, Option.isSome_iff_exists, contains, List.any_eq_true]
  constructor
  · rintro ⟨⟨i, d⟩, hm, hi⟩
    obtain rfl : i = index := by simpa using hi
    exact ⟨d, (h.mem_iff i d).mp hm⟩
  · rintro ⟨d, hd⟩
    exact ⟨(index, d), (h.mem_iff index d).mpr hd, by simp⟩

theorem add (h : Keeps a operations) (index : UInt32) (d : Delivery) :
    Keeps ((Operation.add index d).apply a) (operations ++ [.add index d]) := by
  have hmetadata := lastMetadata_concat operations (.add index d) fun _ _ he => by cases he
  cases hc : a.contains index with
  | true =>
    rw [Operation.apply, add?, if_pos hc, Option.getD_none]
    obtain ⟨first, hfirst⟩ := Option.isSome_iff_exists.mp
      (isSome_firstChunk?.mpr (h.contains_iff.mp hc))
    refine ⟨h.sorted, fun i e => ?_, hmetadata ▸ h.metadata_eq⟩
    rw [h.mem_iff, firstChunk?_concat_add]
    split
    next hi => rw [← hi, hfirst, Option.some_or]
    next => rw [Option.or_none]
  | false =>
    have hn : ¬∃ d, .add index d ∈ operations := fun hex => by
      rw [h.contains_iff.mpr hex] at hc
      cases hc
    have hnone : firstChunk? operations index = none := by
      rwa [← Option.not_isSome_iff_eq_none, isSome_firstChunk?]
    rw [Operation.apply, add?, if_neg (Bool.eq_false_iff.mp hc), Option.getD_some]
    refine ⟨pairwise_insertChunk (fun chunk hm he => ?_) h.sorted, fun i e => ?_,
      hmetadata ▸ h.metadata_eq⟩
    · have hsome := (h.mem_iff chunk.1 chunk.2).mp hm
      rw [he, hnone] at hsome
      cases hsome
    · rw [mem_insertChunk, h.mem_iff, firstChunk?_concat_add, Prod.mk.injEq]
      by_cases hi : index = i
      · simp [← hi, hnone, eq_comm]
      · simp [hi, Ne.symm hi]

theorem apply (h : Keeps a operations) (operation : Operation) :
    Keeps (operation.apply a) (operations ++ [operation]) := by
  cases operation with
  | add index d => exact h.add index d
  | setMetadata total checksum =>
    refine ⟨h.sorted, fun index d => ?_, by simp [lastMetadata, Operation.apply, setMetadata]⟩
    rw [firstChunk?_concat operations (.setMetadata total checksum) fun _ _ he => by cases he]
    exact h.mem_iff index d
  | reassemble =>
    refine ⟨h.sorted, fun index d => ?_, ?_⟩
    · rw [firstChunk?_concat operations .reassemble fun _ _ he => by cases he]
      exact h.mem_iff index d
    · rw [lastMetadata_concat operations .reassemble fun _ _ he => by cases he]
      exact h.metadata_eq

theorem run (algorithm : ChecksumAlgorithm) (createdAt : Nat) (operations : List Operation) :
    Keeps (Assembler.run { algorithm, createdAt } operations) operations := by
  induction operations using List.reverseRecOn with
  | nil => exact ⟨.nil, fun _ _ => by simp [Assembler.run, firstChunk?], rfl⟩
  | append_singleton operations operation ih =>
    rw [Assembler.run, List.foldl_append]
    exact ih.apply operation

theorem mem_indices (h : Keeps a operations) :
    index.toNat ∈ a.indices ↔ ∃ d, .add index d ∈ operations := by
  rw [← h.contains_iff, contains, List.any_eq_true, indices, List.mem_map]
  refine exists_congr fun chunk => and_congr_right fun _ => ?_
  rw [beq_iff_eq, UInt32.toNat_inj]

theorem lookup_eq (h : Keeps a operations) (index : UInt32) :
    a.chunks.lookup index = firstChunk? operations index := by
  have hnodup : (a.chunks.map Prod.fst).Nodup :=
    List.pairwise_map.mpr (h.sorted.imp fun hlt => UInt32.ne_of_lt hlt)
  refine Option.ext fun d => ?_
  rw [← h.mem_iff]
  exact ⟨Association.mem_of_lookup, Association.lookup_of_mem hnodup⟩

theorem isContiguous_iff (h : Keeps a operations) : a.isContiguous = true ↔
    ∀ index : UInt32, (∃ d, .add index d ∈ operations) ↔ index.toNat < a.total.toNat := by
  rw [isContiguous, beq_iff_eq, ← indices]
  constructor
  · intro hi index
    rw [← h.mem_indices, hi, List.mem_range]
  · refine fun hall => indices_eq_range h.sorted fun k => ?_
    constructor
    · intro hk
      obtain ⟨chunk, -, rfl⟩ := List.mem_map.mp hk
      exact (hall chunk.1).mp (h.mem_indices.mp hk)
    · intro hk
      have hnat : k.toUInt32.toNat = k := UInt32.toNat_ofNat_of_lt' (hk.trans a.total.toNat_lt)
      rw [← hnat] at hk ⊢
      exact h.mem_indices.mpr ((hall _).mpr hk)

theorem payload_eq (h : Keeps a operations) (hi : a.isContiguous = true) :
    a.payload = payloadUpTo operations a.total := by
  rw [isContiguous, beq_iff_eq] at hi
  rw [payload, payloadUpTo, ← hi, List.flatMap_map]
  refine List.flatMap_congr fun chunk hm => ?_
  have hnat : chunk.1.toNat.toUInt32 = chunk.1 := UInt32.ofNat_toNat
  rw [hnat, (h.mem_iff _ _).mp hm, Option.elim_some]

theorem isVerified_iff (h : Keeps a operations) (hi : a.isContiguous = true) :
    a.isVerified = true ↔ ∀ expected, a.checksum = some expected →
      Checksum.matchesHex a.algorithm (payloadUpTo operations a.total) expected = true := by
  rw [a.isVerified_eq, h.payload_eq hi]
  cases a.checksum <;> simp

theorem isComplete_iff (hi : a.isContiguous = true) : a.isComplete = true ↔ 0 < a.total.toNat := by
  rw [isContiguous, beq_iff_eq] at hi
  have hlength : a.chunks.length = a.total.toNat := by simpa using congrArg List.length hi
  rw [isComplete, hlength, beq_self_eq_true, Bool.and_true, decide_eq_true_eq,
    UInt32.lt_iff_toNat_lt]
  rfl

theorem isSome_reassemble?_iff (h : Keeps a operations) :
    a.reassemble?.isSome = true ↔ 0 < a.total.toNat ∧
      (∀ index : UInt32, (∃ d, .add index d ∈ operations) ↔ index.toNat < a.total.toNat) ∧
      ∀ expected, a.checksum = some expected →
        Checksum.matchesHex a.algorithm (payloadUpTo operations a.total) expected = true := by
  have hsome : a.reassemble?.isSome = true ↔ (a.isComplete = true ∧ a.isContiguous = true ∧
      a.isVerified = true) ∧ (a.chunks.lookup 0).isSome = true := by
    rw [reassemble?]
    split <;> simp_all
  rw [hsome]
  constructor
  · rintro ⟨⟨hcomplete, hi, hverified⟩, -⟩
    exact ⟨(isComplete_iff hi).mp hcomplete, h.isContiguous_iff.mp hi,
      (h.isVerified_iff hi).mp hverified⟩
  · rintro ⟨hpos, hall, hchecksum⟩
    have hi := h.isContiguous_iff.mpr hall
    refine ⟨⟨(isComplete_iff hi).mpr hpos, hi, (h.isVerified_iff hi).mpr hchecksum⟩, ?_⟩
    rw [h.lookup_eq, isSome_firstChunk?]
    exact (hall 0).mpr hpos

theorem of_reassemble? (h : Keeps a operations) {whole : Delivery}
    (hw : a.reassemble? = some whole) : ∃ first, firstChunk? operations 0 = some first ∧
      whole.message = { first.message with
        payload := payloadUpTo operations a.total
        userProperties := first.message.userProperties.withoutChunk } ∧
      ∀ n, n ∈ whole.ack.messages ↔
        ∃ index d, firstChunk? operations index = some d ∧ n ∈ d.ack.messages := by
  obtain ⟨hc, hw⟩ := Option.ite_none_right_eq_some.mp hw
  simp only [Bool.and_eq_true] at hc
  obtain ⟨first, hfirst, rfl⟩ := Option.map_eq_some_iff.mp hw
  refine ⟨first, h.lookup_eq 0 ▸ hfirst, by rw [← h.payload_eq hc.1.2], fun n => ?_⟩
  simp only [AckToken.join, List.flatMap_map, List.mem_flatMap, Prod.exists, h.mem_iff]

end Keeps

theorem algorithm_run (a : Assembler) (operations : List Operation) :
    (a.run operations).algorithm = a.algorithm := by
  induction operations generalizing a with
  | nil => rfl
  | cons operation rest ih =>
    refine (ih (operation.apply a)).trans ?_
    cases operation with
    | add index d =>
      rw [Operation.apply, add?]
      split <;> rfl
    | setMetadata | reassemble => rfl

/-- After any chunks, metadata and attempts. A chunk is refused exactly if one with its index was
added before, and then changes nothing. A message comes out exactly if the total told last is not
zero, the chunks are those with the indices below it, and the checksum told last, if there is one,
is that of the payloads of the first chunks of all indices together. It is chunk 0 with this payload
and without chunk metadata, and it is acknowledged with all chunks. -/
theorem reassemble?_exact (algorithm : ChecksumAlgorithm) (createdAt : Nat)
    (operations : List Operation) :
    let a := run { algorithm, createdAt } operations
    let total := (lastMetadata operations).1
    let checksum := (lastMetadata operations).2
    let payload := payloadUpTo operations total
    (∀ index d, (a.add? index d = none ↔ ∃ e, .add index e ∈ operations) ∧
      (a.add? index d = none → a.run [.add index d] = a)) ∧
    (a.reassemble?.isSome = true ↔ 0 < total.toNat ∧
      (∀ index : UInt32, (∃ d, .add index d ∈ operations) ↔ index.toNat < total.toNat) ∧
      ∀ expected, checksum = some expected →
        Checksum.matchesHex algorithm payload expected = true) ∧
    a.run [.reassemble] = a ∧
    ∀ whole, a.reassemble? = some whole → ∃ first, firstChunk? operations 0 = some first ∧
      whole.message = { first.message with
        payload, userProperties := first.message.userProperties.withoutChunk } ∧
      ∀ n, n ∈ whole.ack.messages ↔
        ∃ index d, firstChunk? operations index = some d ∧ n ∈ d.ack.messages := by
  intro a total checksum payload
  have h : Keeps a operations := Keeps.run algorithm createdAt operations
  have htotal : a.total = total := congrArg Prod.fst h.metadata_eq
  have hchecksum : a.checksum = checksum := congrArg Prod.snd h.metadata_eq
  have halgorithm : a.algorithm = algorithm := algorithm_run _ operations
  have hadd : ∀ index d, a.add? index d = none ↔ a.contains index = true := fun index d => by
    rw [add?]
    split <;> simp_all
  refine ⟨fun index d => ⟨(hadd index d).trans h.contains_iff, fun hnone => ?_⟩, ?_, rfl, ?_⟩
  · rw [run, List.foldl_cons, List.foldl_nil, Operation.apply, hnone, Option.getD_none]
  · rw [h.isSome_reassemble?_iff, htotal, hchecksum, halgorithm]
  · intro whole hw
    obtain ⟨first, hfirst, hmessage, hack⟩ := h.of_reassemble? hw
    exact ⟨first, hfirst, by rw [hmessage, htotal], hack⟩

end CommandBus.Assembler
