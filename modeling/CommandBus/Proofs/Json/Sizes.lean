import CommandBus.Checksum
import CommandBus.Proofs.Json.RoundTrip
import CommandBus.Proofs.Text.Identifier
import Mathlib

namespace CommandBus

namespace Json

def IsPlain (c : Char) : Prop :=
  0x20 ≤ c.toNat ∧ c.toNat < 0x80 ∧ c ≠ '"' ∧ c ≠ '\\'

instance (c : Char) : Decidable (IsPlain c) :=
  inferInstanceAs (Decidable (_ ∧ _))

variable {c : Char} {cs : List Char} {s : String}

theorem escape_of_isPlain (h : IsPlain c) : escape c = [c] := by
  obtain ⟨hlow, -, hq, hb⟩ := h
  unfold escape
  split
  · exact absurd rfl hq
  · exact absurd rfl hb
  iterate 5 exact absurd hlow (by decide)
  · exact if_neg (not_lt.mpr hlow)

theorem isPlain_of_isDigit (h : c.isDigit = true) : IsPlain c := by
  have hbounds : 48 ≤ c.toNat ∧ c.toNat ≤ 57 := by
    simpa [Char.isDigit, UInt32.le_iff_toNat_le] using h
  refine ⟨by omega, by omega, ?_, ?_⟩ <;> rintro rfl <;> revert hbounds <;> decide

theorem utf8Len_of_isPlain (h : ∀ c ∈ cs, IsPlain c) : String.utf8Len cs = cs.length := by
  induction cs with
  | nil => rfl
  | cons c cs ih =>
    obtain ⟨-, hlt, -⟩ := h c List.mem_cons_self
    have hsize : c.utf8Size = 1 := by
      rw [Char.utf8Size_eq_one_iff, UInt32.le_iff_toNat_le]
      exact Nat.le_of_lt_succ hlt
    rw [String.utf8Len_cons, ih fun d hd => h d (List.mem_cons_of_mem c hd), hsize,
      List.length_cons]

theorem utf8Len_writeText (h : ∀ c ∈ s.toList, IsPlain c) :
    String.utf8Len (writeText s) = s.toList.length + 2 := by
  have hescape : s.toList.flatMap escape = s.toList := by
    rw [List.flatMap_congr fun c hc => escape_of_isPlain (h c hc)]
    exact List.flatMap_singleton' _
  rw [writeText, hescape, List.cons_append, String.utf8Len_cons, String.utf8Len_append,
    utf8Len_of_isPlain h]
  rfl

theorem utf8Len_writeNatural {n digits : Nat} (hd : 0 < digits) (h : n < 10 ^ digits) :
    String.utf8Len (writeNatural n) ≤ digits := by
  rw [utf8Len_of_isPlain fun c hc => isPlain_of_isDigit (isDigit_of_mem_writeNatural hc)]
  exact Nat.toDigits_length 10 n digits hd h

theorem utf8Len_separated {pieces : List (List Char)} (h : pieces ≠ []) :
    String.utf8Len (separated pieces) + 1 = (pieces.map (String.utf8Len · + 1)).sum := by
  have hcomma : ','.utf8Size = 1 := by decide
  induction pieces with
  | nil => exact absurd rfl h
  | cons piece more ih =>
    cases more with
    | nil => simp [separated]
    | cons next more =>
      rw [separated, String.utf8Len_append, String.utf8Len_cons, hcomma, List.map_cons,
        List.sum_cons, ← ih (List.cons_ne_nil _ _)]
      · omega
      · exact List.cons_ne_nil _ _

/-- Each member has the quotes of its key, a colon and a comma, or the closing brace, for itself. -/
theorem utf8Len_writeObject {members : List (String × List Char)} (h : members ≠ [])
    (hkeys : ∀ p ∈ members, ∀ c ∈ p.1.toList, IsPlain c) :
    String.utf8Len (writeObject members) =
      1 + (members.map fun p => p.1.toList.length + 4 + String.utf8Len p.2).sum := by
  have hpunctuation : ':'.utf8Size = 1 ∧ '\x7b'.utf8Size = 1 ∧ '\x7d'.utf8Size = 1 := by decide
  obtain ⟨hcolon, hopen, hclose⟩ := hpunctuation
  have hmember : ∀ p ∈ members, String.utf8Len (writeText p.1 ++ ':' :: p.2) + 1 =
      p.1.toList.length + 4 + String.utf8Len p.2 := fun p hp => by
    rw [String.utf8Len_append, utf8Len_writeText (hkeys p hp), String.utf8Len_cons, hcolon]
    omega
  have hsum : String.utf8Len (separated (members.map fun p => writeText p.1 ++ ':' :: p.2)) + 1 =
      (members.map fun p => p.1.toList.length + 4 + String.utf8Len p.2).sum := by
    rw [utf8Len_separated (by simpa using h), List.map_map]
    exact congrArg List.sum (List.map_congr_left hmember)
  change String.utf8Len ('\x7b' :: separated (members.map fun p => writeText p.1 ++ ':' :: p.2) ++
    ['\x7d']) = _
  rw [List.cons_append, String.utf8Len_cons, String.utf8Len_append, String.utf8Len_cons, hopen,
    hclose, String.utf8Len_nil, ← hsum]
  omega

end Json

namespace Bytes

theorem isPlain_of_mem_hex {bs : Bytes} {c : Char} (h : c ∈ hex bs) : Json.IsPlain c := by
  have hdigits : ∀ n : Fin 16, Json.IsPlain (hexDigit n) := by decide
  obtain ⟨b, -, hc⟩ := List.mem_flatMap.mp h
  have hb := b.toNat_lt
  simp only [List.mem_cons, List.not_mem_nil, or_false] at hc
  obtain rfl | rfl := hc
  · exact hdigits ⟨b.toNat / 16, by omega⟩
  · exact hdigits ⟨b.toNat % 16, by omega⟩

end Bytes

namespace Uuid

variable {id : Bytes}

theorem length_text (h : id.length = 16) : (text id).toList.length = 36 := by
  simp [text, h]

theorem isPlain_text : ∀ c ∈ (text id).toList, Json.IsPlain c := by
  intro c hc
  simp only [text, String.toList_ofList, List.mem_append, List.mem_cons] at hc
  obtain (((h | rfl | h) | rfl | h) | rfl | h) | rfl | h := hc
  all_goals first | exact Bytes.isPlain_of_mem_hex h | decide

end Uuid

namespace Digest

theorem length_bigEndianBytes (width n : Nat) : (bigEndianBytes width n).length = width := by
  induction width generalizing n with
  | zero => rfl
  | succ width ih => rw [bigEndianBytes, List.length_append, ih, List.length_singleton]

end Digest

namespace Checksum

variable (algorithm : ChecksumAlgorithm) (data : Bytes)

theorem isPlain_compute : ∀ c ∈ (compute algorithm data).toList, Json.IsPlain c := by
  intro c hc
  unfold compute at hc
  rw [String.toList_ofList] at hc
  exact Bytes.isPlain_of_mem_hex hc

theorem length_compute_le : (compute algorithm data).toList.length ≤ 64 := by
  unfold compute
  rw [String.toList_ofList, Bytes.length_hex]
  cases algorithm <;>
    simp [Digest.Scheme.digest, Digest.Md5.scheme, Digest.Sha256.scheme,
      Digest.length_bigEndianBytes]

end Checksum

end CommandBus
