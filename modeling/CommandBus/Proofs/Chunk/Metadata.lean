import CommandBus.Chunk.Metadata
import CommandBus.Proofs.Json.RoundTrip
import Mathlib

namespace CommandBus.ChunkMetadata

open Json

/-- The members of the document, each with the value that is read for it. -/
def members (m : ChunkMetadata) : List (String × List Char × Json) :=
  [("messageId", writeText m.messageId, .text m.messageId.toList),
    ("chunkIndex", writeNatural m.index.toNat, .number (writeNatural m.index.toNat))] ++
    (m.total.map fun n =>
      ("totalChunks", writeNatural n.toNat, Json.number (writeNatural n.toNat))).toList ++
    (m.checksum.map fun s => ("checksum", writeText s, Json.text s.toList)).toList

theorem writes_of_mem_members {m : ChunkMetadata} {field : String × List Char × Json}
    (h : field ∈ m.members) : Writes field.2.1 field.2.2 := by
  simp only [members, List.mem_append, List.mem_cons, Option.mem_toList, Option.map_eq_some_iff,
    List.not_mem_nil, or_false] at h
  obtain (((rfl | rfl) | ⟨n, -, rfl⟩) | ⟨s, -, rfl⟩) := h
  · exact writes_text _
  · exact writes_natural _
  · exact writes_natural _
  · exact writes_text _

theorem text_eq_writeObject (m : ChunkMetadata) :
    m.text = String.ofList (writeObject (m.members.map fun field => (field.1, field.2.1))) := by
  obtain ⟨id, index, _ | total, _ | checksum⟩ := m <;> rfl

theorem natural?_writeNatural {bound n : Nat} (h : n < bound) :
    natural? bound (.number (writeNatural n)) = some n := by
  have hd : (writeNatural n).all Char.isDigit := by
    rw [List.all_eq_true]
    exact fun c => isDigit_of_mem_writeNatural
  have hv := Text.decimalValue_toDigits n
  rw [Text.decimalValue] at hv
  simp only [natural?, hd, if_true]
  rw [writeNatural, hv, if_pos h]

theorem readUInt32_writeNatural (n : UInt32) :
    readUInt32 (.number (writeNatural n.toNat)) = some n := by
  rw [readUInt32, natural?_writeNatural n.toNat_lt]
  simp

theorem readString_text (s : String) : readString (.text s.toList) = some s := by
  simp [readString, text?]

theorem fields?_members (m : ChunkMetadata) :
    fields? keys (.object (m.members.map fun field => (.text field.1.toList, field.2.2))) =
      some [some (.text m.messageId.toList), some (.number (writeNatural m.index.toNat)),
        m.total.map fun n => .number (writeNatural n.toNat),
        m.checksum.map fun s => .text s.toList] := by
  obtain ⟨id, index, _ | total, _ | checksum⟩ := m <;>
    simp [members, fields?, keys, text?, member?, String.toList_inj, -String.reduceToList]

theorem ofJson?_members (m : ChunkMetadata) :
    ofJson? (.object (m.members.map fun field => (.text field.1.toList, field.2.2))) = some m := by
  rw [ofJson?, fields?_members]
  obtain ⟨id, index, _ | total, _ | checksum⟩ := m <;>
    simp [optional?, readUInt32_writeNatural, readString_text]

theorem parse_eq_check (m : ChunkMetadata) : parse m.text = m.check := by
  have hw : ∀ field ∈ m.members, Writes field.2.1 field.2.2 := fun _ => writes_of_mem_members
  have hne : m.members ≠ [] := by simp [members]
  rw [parse, text_eq_writeObject, ofString?_writeObject hw hne, Option.bind_some, ofJson?_members]

/-- The index of a chunk lies below the total, and the first chunk has one. -/
structure IsBounded (m : ChunkMetadata) : Prop where
  index_lt : ∀ total, m.total = some total → m.index < total
  total_ne_none : m.index = 0 → m.total ≠ none

def LacksTotal (m : ChunkMetadata) : Prop :=
  m.index = 0 ∧ (m.total = none ∨ m.total = some 0)

variable {m m' : ChunkMetadata}

theorem check_of_isBounded (h : m.IsBounded) : m.check = .ok m := by
  unfold check
  cases ht : m.total with
  | none => exact if_neg fun hindex => h.total_ne_none hindex ht
  | some total =>
    have hlt := h.index_lt total ht
    dsimp only
    rw [if_neg, if_neg]
    · exact UInt32.not_le.mpr hlt
    · rintro ⟨hindex, rfl⟩
      rw [hindex] at hlt
      exact absurd hlt (by decide)

theorem check_of_lacksTotal (h : m.LacksTotal) : m.check = .error (.missingTotal m.messageId) := by
  obtain ⟨hindex, ht | ht⟩ := h
  · rw [check, ht]
    exact if_pos hindex
  · rw [check, ht]
    exact if_pos ⟨hindex, rfl⟩

theorem check_of_not_isBounded (h : ¬ m.IsBounded) (hl : ¬ m.LacksTotal) :
    ∃ total, m.total = some total ∧
      m.check = .error (.indexOutOfRange m.messageId m.index total) := by
  cases ht : m.total with
  | none =>
    refine absurd ⟨fun total htotal => ?_, fun hindex => ?_⟩ h
    · rw [ht] at htotal
      cases htotal
    · exact absurd ⟨hindex, .inl ht⟩ hl
  | some total =>
    have hle : total ≤ m.index := by
      by_contra hlt
      refine h ⟨fun total' htotal => ?_, fun _ => ht ▸ Option.some_ne_none total⟩
      rw [ht] at htotal
      cases htotal
      exact UInt32.not_le.mp hlt
    refine ⟨total, rfl, ?_⟩
    rw [check, ht]
    dsimp only
    rw [if_neg, if_pos hle]
    rintro ⟨hindex, rfl⟩
    exact hl ⟨hindex, .inr ht⟩

theorem check_eq_ok_iff : m.check = .ok m' ↔ m' = m ∧ m.IsBounded := by
  constructor
  · intro h
    have hb : m.IsBounded := by
      by_contra hb
      by_cases hl : m.LacksTotal
      · rw [check_of_lacksTotal hl] at h
        cases h
      · obtain ⟨total, -, he⟩ := check_of_not_isBounded hb hl
        rw [he] at h
        cases h
    rw [check_of_isBounded hb] at h
    cases h
    exact ⟨rfl, hb⟩
  · rintro ⟨rfl, hb⟩
    exact check_of_isBounded hb

theorem isBounded_of_parse {s : String} (h : parse s = .ok m) : m.IsBounded := by
  unfold parse at h
  split at h
  · obtain ⟨rfl, hb⟩ := check_eq_ok_iff.mp h
    exact hb
  · cases h

/-- Metadata survive being written and read: they come back as they were if they are bounded and are
refused for what is wrong with them if they are not, and what was read from any text is bounded and
comes back from its own. -/
theorem written_read_exactly :
    (∀ m : ChunkMetadata,
      (m.IsBounded → parse m.text = .ok m) ∧
      (m.LacksTotal → parse m.text = .error (.missingTotal m.messageId)) ∧
      (¬ m.IsBounded → ¬ m.LacksTotal → ∃ total, m.total = some total ∧
        parse m.text = .error (.indexOutOfRange m.messageId m.index total))) ∧
    ∀ s m, parse s = .ok m → m.IsBounded ∧ parse m.text = .ok m := by
  refine ⟨fun m => ?_, fun s m h => ?_⟩
  · rw [parse_eq_check]
    exact ⟨check_of_isBounded, check_of_lacksTotal, check_of_not_isBounded⟩
  · have hb := isBounded_of_parse h
    rw [parse_eq_check]
    exact ⟨hb, check_of_isBounded hb⟩

/-- Members in another order than they are written in and among others, characters as numbers. -/
def escapedDocument : String :=
  "\x7b\"chunkIndex\":2, \"x\":[\x7b\x7d],\"messageId\":\"\\u0000\\ud83d\\ude00\"\x7d"

theorem escaped_document_rewritten :
    parse escapedDocument = .ok ⟨"\x00😀", 2, none, none⟩ ∧
    parse (text ⟨"\x00😀", 2, none, none⟩) = .ok ⟨"\x00😀", 2, none, none⟩ ∧
    parse (text ⟨"\x00😀", 2, some 1, none⟩) = .error (.indexOutOfRange "\x00😀" 2 1) := by
  have hparse : parse escapedDocument = .ok ⟨"\x00😀", 2, none, none⟩ := by cbv
  obtain ⟨hwritten, hread⟩ := written_read_exactly
  obtain ⟨total, htotal, hrefused⟩ := (hwritten ⟨"\x00😀", 2, some 1, none⟩).2.2
    (fun hb => absurd (hb.index_lt 1 rfl) (by decide)) fun hl => absurd hl.1 (by decide)
  cases htotal
  exact ⟨hparse, (hread _ _ hparse).2, hrefused⟩

end CommandBus.ChunkMetadata
