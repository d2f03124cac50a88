import CommandBus.Text.Numeral
import Mathlib

namespace CommandBus.Text

theorem decimalValue_eq (digits : List Char) :
    decimalValue digits = Nat.ofDigitChars 10 digits 0 :=
  Nat.ofDigitChars_eq_foldl.symm

@[simp]
theorem decimalValue_toDigits (n : Nat) : decimalValue (Nat.toDigits 10 n) = n := by
  rw [decimalValue_eq, Nat.ofDigitChars_ten_toDigits]

@[simp]
theorem decimalValue_padded (width n : Nat) : decimalValue (padded width n) = n := by
  rw [decimalValue_eq, padded, Nat.ofDigitChars_append, Nat.ofDigitChars_replicate_zero,
    Nat.mul_zero, Nat.ofDigitChars_ten_toDigits]

theorem dropPlus_of_isDecimal {digits : List Char} (h : ∀ c ∈ digits, isDecimal c = true) :
    dropPlus digits = digits := by
  unfold dropPlus
  split
  next rest hd => exact absurd (h '+' List.mem_cons_self) (by decide)
  next => rfl

theorem isDecimal_of_mem_padded {width n : Nat} {c : Char} (h : c ∈ padded width n) :
    isDecimal c = true := by
  obtain h | h := List.mem_append.mp h
  · obtain ⟨-, rfl⟩ := List.mem_replicate.mp h
    decide
  · exact Nat.isDigit_of_mem_toDigits (by decide) (by decide) h

theorem readBelow_padded (bound width n : Nat) :
    readBelow bound (padded width n) = if n < bound then some n else none := by
  have hdigits : ∀ c ∈ padded width n, isDecimal c = true := fun _ => isDecimal_of_mem_padded
  have hne : padded width n ≠ [] := List.append_ne_nil_of_right_ne_nil _ Nat.toDigits_ne_nil
  simp only [readBelow, dropPlus_of_isDecimal hdigits, decimalValue_padded]
  simp [List.all_eq_true.mpr hdigits, hne]

theorem readBelow_toDigits {bound n : Nat} (h : n < bound) :
    readBelow bound (Nat.toDigits 10 n) = some n := by
  have hpadded : padded 0 n = Nat.toDigits 10 n := by simp [padded]
  rw [← hpadded, readBelow_padded, if_pos h]

/-- Decimal digits of a number, whatever zeros stand before the others. -/
inductive Digits : List Char → Nat → Prop
  | one (d : Fin 10) : Digits [Nat.digitChar d] d
  | more {ds : List Char} {n : Nat} (h : Digits ds n) (d : Fin 10) :
      Digits (ds ++ [Nat.digitChar d]) (10 * n + d)

inductive IsNumeral : List Char → Nat → Prop
  | plain {ds : List Char} {n : Nat} (h : Digits ds n) : IsNumeral ds n
  | signed {ds : List Char} {n : Nat} (h : Digits ds n) : IsNumeral ('+' :: ds) n

theorem isDecimal_digitChar (d : Fin 10) : isDecimal (Nat.digitChar d) = true := by
  revert d
  decide

theorem exists_digitChar {c : Char} (h : isDecimal c = true) :
    ∃ d : Fin 10, c = Nat.digitChar d := by
  simp only [isDecimal, Bool.and_eq_true, decide_eq_true_eq] at h
  have hlow : 48 ≤ c.toNat := h.1
  have hhigh : c.toNat ≤ 57 := h.2
  have hlt : c.toNat - 48 < 10 := by omega
  refine ⟨⟨c.toNat - 48, hlt⟩, Char.toNat_inj.mp ?_⟩
  rw [Nat.toNat_digitChar_of_lt_ten hlt]
  omega

theorem decimalValue_concat (ds : List Char) (d : Fin 10) :
    decimalValue (ds ++ [Nat.digitChar d]) = 10 * decimalValue ds + d := by
  rw [decimalValue, List.foldl_append]
  exact congrArg (10 * decimalValue ds + ·) (Nat.toNat_digitChar_sub_48_of_lt_ten d.isLt)

theorem digits_iff {ds : List Char} {n : Nat} :
    Digits ds n ↔ ds ≠ [] ∧ (∀ c ∈ ds, isDecimal c = true) ∧ decimalValue ds = n := by
  constructor
  · intro h
    induction h with
    | one d =>
      refine ⟨List.cons_ne_nil _ _, List.forall_mem_singleton.mpr (isDecimal_digitChar d), ?_⟩
      simpa [decimalValue] using decimalValue_concat [] d
    | more h d ih =>
      obtain ⟨-, hall, hv⟩ := ih
      refine ⟨by simp, fun c hc => ?_, by rw [decimalValue_concat, hv]⟩
      obtain hc | hc := List.mem_append.mp hc
      · exact hall c hc
      · exact List.mem_singleton.mp hc ▸ isDecimal_digitChar d
  · rintro ⟨hne, hall, rfl⟩
    induction ds using List.reverseRecOn with
    | nil => exact absurd rfl hne
    | append_singleton ds c ih =>
      obtain ⟨d, rfl⟩ := exists_digitChar (hall c (by simp))
      rw [decimalValue_concat]
      by_cases hds : ds = []
      · subst hds
        simpa [decimalValue] using Digits.one d
      · exact .more (ih hds fun c hc => hall c (List.mem_append_left _ hc)) d

theorem isNumeral_iff {s : List Char} {n : Nat} : IsNumeral s n ↔ Digits (dropPlus s) n := by
  constructor
  · rintro (h | h)
    · rwa [dropPlus_of_isDecimal (digits_iff.mp h).2.1]
    · exact h
  · intro h
    unfold dropPlus at h
    split at h
    · exact .signed h
    · exact .plain h

theorem readBelow_eq_some_iff {bound n : Nat} {s : List Char} :
    readBelow bound s = some n ↔ IsNumeral s n ∧ n < bound := by
  rw [isNumeral_iff, digits_iff, readBelow]
  simp only [Option.ite_none_right_eq_some, Bool.and_eq_true, Bool.not_eq_true',
    List.isEmpty_eq_false_iff, List.all_eq_true, decide_eq_true_eq, Option.some.injEq]
  constructor
  · rintro ⟨⟨⟨hne, hall⟩, hlt⟩, rfl⟩
    exact ⟨⟨hne, hall, rfl⟩, hlt⟩
  · rintro ⟨⟨hne, hall, rfl⟩, hlt⟩
    exact ⟨⟨⟨hne, hall⟩, hlt⟩, rfl⟩

theorem isNumeral_toDigits (n : Nat) : IsNumeral (Nat.toDigits 10 n) n :=
  (readBelow_eq_some_iff.mp (readBelow_toDigits n.lt_succ_self)).1

theorem readUInt16_eq_some_iff {s : String} {n : UInt16} :
    readUInt16 s = some n ↔ IsNumeral s.toList n.toNat := by
  rw [readUInt16, Option.map_eq_some_iff]
  constructor
  · rintro ⟨value, hread, rfl⟩
    obtain ⟨hnumeral, hlt⟩ := readBelow_eq_some_iff.mp hread
    rwa [Nat.toUInt16_eq, UInt16.toNat_ofNat_of_lt' hlt]
  · intro h
    exact ⟨n.toNat, readBelow_eq_some_iff.mpr ⟨h, n.toNat_lt⟩, UInt16.ofNat_toNat⟩

theorem readUInt64_toString {n : Nat} (h : n < UInt64.size) :
    readUInt64 (toString n) = some n.toUInt64 := by
  have hd : (toString n).toList = Nat.toDigits 10 n := Nat.toList_repr
  rw [readUInt64, hd, readBelow_toDigits h, Option.map_some]

end CommandBus.Text
