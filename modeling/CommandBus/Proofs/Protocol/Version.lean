import CommandBus.Protocol.Version
import CommandBus.Proofs.Text.Numeral
import CommandBus.Proofs.Text.Words
import Mathlib

namespace CommandBus

open Text

/-- The values of the words that are numerals of 16 bits, in their order. -/
inductive Majors : List (List Char) → List UInt16 → Prop
  | nil : Majors [] []
  | numeral {w : List Char} {n : UInt16} {ws : List (List Char)} {ns : List UInt16}
      (hw : IsNumeral w n.toNat) (h : Majors ws ns) : Majors (w :: ws) (n :: ns)
  | other {w : List Char} {ws : List (List Char)} {ns : List UInt16}
      (hw : ∀ n : UInt16, ¬ IsNumeral w n.toNat) (h : Majors ws ns) : Majors (w :: ws) ns

def readMajor (w : List Char) : Option UInt16 :=
  readUInt16 (String.ofList w)

theorem readMajor_eq_some_iff {w : List Char} {n : UInt16} :
    readMajor w = some n ↔ IsNumeral w n.toNat := by
  rw [readMajor, readUInt16_eq_some_iff, String.toList_ofList]

theorem readMajor_eq_none_iff {w : List Char} :
    readMajor w = none ↔ ∀ n : UInt16, ¬ IsNumeral w n.toNat := by
  simp only [Option.eq_none_iff_forall_ne_some, ne_eq, readMajor_eq_some_iff]

theorem parseMajors_eq (s : String) : parseMajors s = (words s.toList).filterMap readMajor :=
  rfl

theorem filterMap_readMajor_eq_iff {ws : List (List Char)} {ns : List UInt16} :
    ws.filterMap readMajor = ns ↔ Majors ws ns := by
  constructor
  · rintro rfl
    induction ws with
    | nil => exact .nil
    | cons w ws ih =>
      cases hw : readMajor w with
      | none =>
        rw [List.filterMap_cons_none hw]
        exact .other (readMajor_eq_none_iff.mp hw) ih
      | some n =>
        rw [List.filterMap_cons_some hw]
        exact .numeral (readMajor_eq_some_iff.mp hw) ih
  · intro h
    induction h with
    | nil => rfl
    | numeral hw _ ih => rw [List.filterMap_cons_some (readMajor_eq_some_iff.mpr hw), ih]
    | other hw _ ih => rw [List.filterMap_cons_none (readMajor_eq_none_iff.mpr hw), ih]

theorem parseMajors_eq_iff {s : String} {ns : List UInt16} :
    parseMajors s = ns ↔ ∃ ws, HasWords s.toList ws ∧ Majors ws ns := by
  simp only [parseMajors_eq, filterMap_readMajor_eq_iff, ← words_eq_iff]
  exact ⟨fun h => ⟨_, rfl, h⟩, fun ⟨ws, hws, h⟩ => hws ▸ h⟩

theorem parseMajors_of_others {s s' : String} {before others after : List (List Char)}
    (h : HasWords s.toList (before ++ after)) (h' : HasWords s'.toList (before ++ others ++ after))
    (hothers : ∀ w ∈ others, ∀ n : UInt16, ¬ IsNumeral w n.toNat) :
    parseMajors s' = parseMajors s := by
  have hskipped : others.filterMap readMajor = [] :=
    List.filterMap_eq_nil_iff.mpr fun w hw => readMajor_eq_none_iff.mpr (hothers w hw)
  rw [parseMajors_eq, parseMajors_eq, words_eq_of_hasWords h, words_eq_of_hasWords h',
    List.filterMap_append, List.filterMap_append, List.filterMap_append, hskipped, List.append_nil]

theorem isWord_toDigits (n : Nat) : IsWord (Nat.toDigits 10 n) := by
  have hdigit : ∀ d : Fin 10, isBlank (Nat.digitChar d) = false := by decide
  refine ⟨Nat.toDigits_ne_nil, fun c hc => ?_⟩
  obtain ⟨d, rfl⟩ := exists_digitChar (Nat.isDigit_of_mem_toDigits (by decide) (by decide) hc)
  exact hdigit d

theorem hasWords_majorsText (majors : List UInt16) :
    HasWords (majorsText majors).toList (majors.map fun v => Nat.toDigits 10 v.toNat) := by
  have hdigits : String.toList ∘ (fun v : UInt16 => toString v.toNat) =
      fun v => Nat.toDigits 10 v.toNat := funext fun _ => Nat.toList_repr
  rw [majorsText, String.toList_intercalate, List.map_map, hdigits]
  refine hasWords_intercalate (by decide) fun w hw => ?_
  obtain ⟨v, -, rfl⟩ := List.mem_map.mp hw
  exact isWord_toDigits v.toNat

theorem parseMajors_majorsText (majors : List UInt16) :
    parseMajors (majorsText majors) = majors := by
  refine parseMajors_eq_iff.mpr ⟨_, hasWords_majorsText majors, ?_⟩
  induction majors with
  | nil => exact .nil
  | cons v rest ih => exact .numeral (isNumeral_toDigits v.toNat) ih

namespace ProtocolVersion

theorem parse?_eq_some_iff {s : String} {v : ProtocolVersion} :
    parse? s = some v ↔ ∃ major minor, '.' ∉ major ∧ s.toList = major ++ '.' :: minor ∧
      IsNumeral major v.major.toNat ∧ IsNumeral minor v.minor.toNat := by
  rw [parse?]
  simp only [Option.bind_eq_bind, Option.bind_eq_some_iff, Prod.exists, Option.pure_def,
    splitOnce_eq_some_iff, readUInt16_eq_some_iff, String.toList_ofList]
  constructor
  · rintro ⟨major, minor, ⟨hpoint, hs⟩, a, ha, b, hb, heq⟩
    cases heq
    exact ⟨major, minor, hpoint, hs, ha, hb⟩
  · rintro ⟨major, minor, hpoint, hs, ha, hb⟩
    exact ⟨major, minor, ⟨hpoint, hs⟩, _, ha, _, hb, rfl⟩

theorem parse?_text (v : ProtocolVersion) : parse? v.text = some v := by
  refine parse?_eq_some_iff.mpr ⟨Nat.toDigits 10 v.major.toNat, Nat.toDigits 10 v.minor.toNat,
    fun h => ?_, ?_, isNumeral_toDigits _, isNumeral_toDigits _⟩
  · exact absurd (Nat.isDigit_of_mem_toDigits (by decide) (by decide) h) (by decide)
  · simp [text]

end ProtocolVersion

/-- Lists of major versions come back from their text. From any other text exactly the words are
read that are numerals of 16 bits, whatever other words stand between them. A version is read from
two such numerals around the first point, and comes back from its text. -/
theorem version_texts_read_exactly :
    (∀ majors, parseMajors (majorsText majors) = majors) ∧
    (∀ s ns, parseMajors s = ns ↔ ∃ ws, HasWords s.toList ws ∧ Majors ws ns) ∧
    (∀ (s s' : String) (before others after : List (List Char)),
      HasWords s.toList (before ++ after) → HasWords s'.toList (before ++ others ++ after) →
      (∀ w ∈ others, ∀ n : UInt16, ¬ IsNumeral w n.toNat) → parseMajors s' = parseMajors s) ∧
    (∀ s v, ProtocolVersion.parse? s = some v ↔
      ∃ major minor, '.' ∉ major ∧ s.toList = major ++ '.' :: minor ∧
        IsNumeral major v.major.toNat ∧ IsNumeral minor v.minor.toNat) ∧
    ∀ v : ProtocolVersion, ProtocolVersion.parse? v.text = some v :=
  ⟨parseMajors_majorsText, fun _ _ => parseMajors_eq_iff,
    fun _ _ _ _ _ => parseMajors_of_others, fun _ _ => ProtocolVersion.parse?_eq_some_iff,
    ProtocolVersion.parse?_text⟩

/-- Between two numerals a word that is none and one that is too great; between words more than one
kind of white space. -/
theorem other_words_skipped :
    parseMajors "1\u2003 +01" = [1, 1] ∧
    parseMajors "1\tv2\u00a065536\n+01 " = parseMajors "1\u2003 +01" := by
  obtain ⟨-, hread, hskipped, -⟩ := version_texts_read_exactly
  have hfew : HasWords "1\u2003 +01".toList ([['1']] ++ [['+', '0', '1']]) :=
    words_eq_iff.mp (by cbv)
  have hmany : HasWords "1\tv2\u00a065536\n+01 ".toList
      ([['1']] ++ [['v', '2'], ['6', '5', '5', '3', '6']] ++ [['+', '0', '1']]) :=
    words_eq_iff.mp (by cbv)
  refine ⟨(hread _ _).mpr ⟨_, hfew, ?_⟩, hskipped _ _ _ _ _ hfew hmany fun w hw => ?_⟩
  · exact .numeral (readMajor_eq_some_iff.mp (by cbv))
      (.numeral (readMajor_eq_some_iff.mp (by cbv)) .nil)
  · apply readMajor_eq_none_iff.mp
    obtain rfl | rfl : w = ['v', '2'] ∨ w = ['6', '5', '5', '3', '6'] := by simpa using hw
    · cbv
    · cbv

end CommandBus
