import CommandBus.Json.Reader
import CommandBus.Json.Writer
import CommandBus.Proofs.Text.Numeral
import Mathlib

namespace CommandBus.Json

theorem textUnits_short {e c : Char} (h : shortEscape? e = some c) (rest : Input) :
    textUnits (some '\\' :: some e :: rest) =
      (textUnits rest).map fun (units, s) => (.char c :: units, s) := by
  have hu : e ≠ 'u' := by
    rintro rfl
    simp [shortEscape?] at h
  rw [textUnits, h]
  · simp only [Option.map_eq_bind, Function.comp_def]
    rfl
  · simp [hu]

theorem textUnits_code {n : Nat} (h : n < 0x20) (rest : Input) :
    textUnits (['\\', 'u', '0', '0', Bytes.hexDigit (n / 16), Bytes.hexDigit (n % 16)].map some ++
        rest) =
      (textUnits rest).map fun (units, s) => (.code n :: units, s) := by
  have hc : code? '0' '0' (Bytes.hexDigit (n / 16)) (Bytes.hexDigit (n % 16)) = some n := by
    revert n
    decide
  simp only [List.map_cons, List.map_nil, List.cons_append, List.nil_append]
  rw [textUnits, hc]
  simp only [Option.map_eq_bind, Function.comp_def]
  rfl

theorem textUnits_plain {c : Char} (h : ¬ c.toNat < 0x20) (hq : c ≠ '"') (hb : c ≠ '\\')
    (rest : Input) :
    textUnits (some c :: rest) = (textUnits rest).map fun (units, s) => (.char c :: units, s) := by
  rw [textUnits]
  · simp [h, hb]
  all_goals simp_all

theorem unitsText?_code {n : Nat} (h : n < 0x20) (units : List TextUnit) :
    unitsText? (.code n :: units) = (unitsText? units).map (Char.ofNat n :: ·) := by
  have hh : isHigh n = false := by simp [isHigh]; omega
  have hl : isLow n = false := by simp [isLow]; omega
  obtain _ | ⟨_ | m | _, units⟩ := units <;> simp [unitsText?, hh, hl]

theorem escape_reads (c : Char) :
    ∃ u : TextUnit,
      (∀ rest, textUnits ((escape c).map some ++ rest) =
        (textUnits rest).map fun (units, s) => (u :: units, s)) ∧
      ∀ units, unitsText? (u :: units) = (unitsText? units).map (c :: ·) := by
  unfold escape
  split
  · exact ⟨.char '"', textUnits_short (e := '"') rfl, fun _ => rfl⟩
  · exact ⟨.char '\\', textUnits_short (e := '\\') rfl, fun _ => rfl⟩
  · exact ⟨.char '\x08', textUnits_short (e := 'b') rfl, fun _ => rfl⟩
  · exact ⟨.char '\x0c', textUnits_short (e := 'f') rfl, fun _ => rfl⟩
  · exact ⟨.char '\n', textUnits_short (e := 'n') rfl, fun _ => rfl⟩
  · exact ⟨.char '\r', textUnits_short (e := 'r') rfl, fun _ => rfl⟩
  · exact ⟨.char '\t', textUnits_short (e := 't') rfl, fun _ => rfl⟩
  · rename_i hq hb _ _ _ _ _
    split
    · rename_i h
      refine ⟨.code c.toNat, textUnits_code h, fun units => ?_⟩
      rw [unitsText?_code h, Char.ofNat_toNat]
    · rename_i h
      exact ⟨.char c, textUnits_plain h hq hb, fun _ => rfl⟩

theorem textUnits_escaped (cs : List Char) (rest : Input) :
    ∃ units, textUnits ((cs.flatMap escape).map some ++ some '"' :: rest) = some (units, rest) ∧
      unitsText? units = some cs := by
  induction cs with
  | nil => exact ⟨[], by simp [textUnits], rfl⟩
  | cons c cs ih =>
    obtain ⟨units, hu, ht⟩ := ih
    obtain ⟨u, hc, hcs⟩ := escape_reads c
    refine ⟨u :: units, ?_, by rw [hcs, ht]; rfl⟩
    rw [List.flatMap_cons, List.map_append, List.append_assoc, hc, hu]
    rfl

theorem readText_escaped (cs : List Char) (rest : Input) :
    readText ((cs.flatMap escape).map some ++ some '"' :: rest) = some (.text cs, rest) := by
  obtain ⟨units, hu, ht⟩ := textUnits_escaped cs rest
  simp only [readText, hu, Option.map_some, ht, Option.elim_some]

def Follows (rest : Input) : Prop :=
  ∃ s, rest = some ',' :: s ∨ rest = some '\x7d' :: s

theorem digits_append {ds : List Char} (h : ∀ c ∈ ds, c.isDigit) {rest : Input}
    (hr : Follows rest) : digits (ds.map some ++ rest) = (ds, rest) := by
  induction ds with
  | nil => obtain ⟨s, rfl | rfl⟩ := hr <;> rfl
  | cons c ds ih =>
    rw [List.forall_mem_cons] at h
    rw [List.map_cons, List.cons_append, digits, if_pos h.1, ih h.2]

theorem head_toDigits {n : Nat} (h : 0 < n) : ∃ c ds, Nat.toDigits 10 n = c :: ds ∧ c ≠ '0' := by
  induction n using Nat.strongRecOn with
  | ind n ih =>
    rw [Nat.toDigits_eq_if (by decide)]
    split
    · refine ⟨_, [], rfl, ?_⟩
      interval_cases n <;> decide
    · obtain ⟨c, ds, hd, hc⟩ := ih (n / 10) (by omega) (by omega)
      exact ⟨c, ds ++ _, by rw [hd]; rfl, hc⟩

theorem isDigit_of_mem_writeNatural {n : Nat} {c : Char} (h : c ∈ writeNatural n) : c.isDigit :=
  Nat.isDigit_of_mem_toDigits (by decide) (by decide) h

theorem readWhole_writeNatural (n : Nat) {rest : Input} (hr : Follows rest) :
    readWhole ((writeNatural n).map some ++ rest) = some (writeNatural n, rest) := by
  have hd := digits_append (fun c => isDigit_of_mem_writeNatural (n := n)) hr
  rw [readWhole, hd]
  obtain rfl | hn := Nat.eq_zero_or_pos n
  · rfl
  · obtain ⟨c, ds, hc, h0⟩ := head_toDigits hn
    rw [writeNatural, hc]
    split
    · simp_all
    · simp_all
    · rfl

theorem readNumber_writeNatural (n : Nat) {rest : Input} (hr : Follows rest) :
    readNumber ((writeNatural n).map some ++ rest) = some (.number (writeNatural n), rest) := by
  have hw := readWhole_writeNatural n hr
  obtain ⟨c, ds, hc⟩ := List.exists_cons_of_ne_nil (Nat.toDigits_ne_nil (n := n) (b := 10))
  have hm : c ≠ '-' := by
    rintro rfl
    have := isDigit_of_mem_writeNatural (n := n) (c := '-') (by simp [writeNatural, hc])
    simp at this
  rw [writeNatural, hc] at hw ⊢
  rw [readNumber]
  · rw [List.map_cons, List.cons_append] at hw ⊢
    obtain ⟨s, rfl | rfl⟩ := hr <;> simp [hw, readFraction, readExponent]
  · intro rest' he
    exact hm (Option.some.inj (List.cons.inj he).1)

/-- `text` is read as `value` wherever a value may stand inside an object. -/
def Writes (text : List Char) (value : Json) : Prop :=
  ∀ fuel rest, Follows rest → readValue (fuel + 1) (text.map some ++ rest) = some (value, rest)

theorem writes_text (s : String) : Writes (writeText s) (.text s.toList) := by
  intro fuel rest _
  have h := readText_escaped s.toList rest
  simp [writeText, readValue, skipSpace, isSpace, h]

theorem skipSpace_digit {c : Char} (h : c.isDigit) (rest : Input) :
    skipSpace (some c :: rest) = some c :: rest := by
  have hs : isSpace c = false := by
    by_contra hs
    simp only [isSpace, Bool.not_eq_false, Bool.or_eq_true, beq_iff_eq] at hs
    obtain ((rfl | rfl) | rfl) | rfl := hs <;> simp at h
  simp [skipSpace, hs]

theorem writes_natural (n : Nat) : Writes (writeNatural n) (.number (writeNatural n)) := by
  intro fuel rest hr
  have h := readNumber_writeNatural n hr
  obtain ⟨c, ds, hc⟩ := List.exists_cons_of_ne_nil (Nat.toDigits_ne_nil (n := n) (b := 10))
  have hd : c.isDigit := isDigit_of_mem_writeNatural (n := n) (by simp [writeNatural, hc])
  rw [writeNatural, hc, List.map_cons, List.cons_append] at h ⊢
  rw [readValue, skipSpace_digit hd]
  split
  case h_7 => exact h
  all_goals
    rename_i he
    have := Option.some.inj (List.cons.inj he).1
    subst this
    simp at hd

def writeMember (m : String × List Char × Json) : List Char :=
  writeText m.1 ++ ':' :: m.2.1

theorem writeMember_append (m : String × List Char × Json) (rest : Input) :
    (writeMember m).map some ++ rest =
      some '"' :: ((m.1.toList.flatMap escape).map some ++
        some '"' :: some ':' :: (m.2.1.map some ++ rest)) := by
  simp [writeMember, writeText]

theorem readMembers_more {m : String × List Char × Json} (h : Writes m.2.1 m.2.2) (fuel : Nat)
    (rest : Input) :
    readMembers (fuel + 2) ((writeMember m).map some ++ some ',' :: rest) =
      (readMembers (fuel + 1) rest).map fun (more, s) =>
        ((.text m.1.toList, m.2.2) :: more, s) := by
  have hk := readText_escaped m.1.toList (some ':' :: (m.2.1.map some ++ some ',' :: rest))
  have hv := h fuel _ ⟨rest, .inl rfl⟩
  rw [writeMember_append, readMembers]
  simp [skipSpace, isSpace, hk, hv, Option.map_eq_bind]

theorem readMembers_last {m : String × List Char × Json} (h : Writes m.2.1 m.2.2) (fuel : Nat)
    (rest : Input) :
    readMembers (fuel + 2) ((writeMember m).map some ++ some '\x7d' :: rest) =
      some ([(.text m.1.toList, m.2.2)], rest) := by
  have hk := readText_escaped m.1.toList (some ':' :: (m.2.1.map some ++ some '\x7d' :: rest))
  have hv := h fuel _ ⟨rest, .inr rfl⟩
  rw [writeMember_append, readMembers]
  simp [skipSpace, isSpace, hk, hv]

theorem readMembers_separated {members : List (String × List Char × Json)}
    (h : ∀ m ∈ members, Writes m.2.1 m.2.2) (hne : members ≠ []) {fuel : Nat}
    (hf : members.length < fuel) (rest : Input) :
    readMembers fuel ((separated (members.map writeMember)).map some ++ some '\x7d' :: rest) =
      some (members.map fun m => (.text m.1.toList, m.2.2), rest) := by
  induction members generalizing fuel with
  | nil => exact absurd rfl hne
  | cons m more ih =>
    obtain ⟨fuel, rfl⟩ : ∃ f, fuel = f + 2 := ⟨fuel - 2, by simp at hf; omega⟩
    rw [List.forall_mem_cons] at h
    cases more with
    | nil => exact readMembers_last h.1 fuel rest
    | cons next more =>
      have hl : (next :: more).length < fuel + 1 := by
        simp only [List.length_cons] at hf ⊢
        omega
      have hs : separated ((m :: next :: more).map writeMember) =
          writeMember m ++ ',' :: separated ((next :: more).map writeMember) := rfl
      rw [hs, List.map_append, List.append_assoc, List.map_cons, List.cons_append,
        readMembers_more h.1, ih h.2 (by simp) hl]
      rfl

theorem writeMember_ne_nil (m : String × List Char × Json) : writeMember m ≠ [] := by
  simp [writeMember]

theorem length_le_length_separated {pieces : List (List Char)} (h : ∀ p ∈ pieces, p ≠ []) :
    pieces.length ≤ (separated pieces).length := by
  induction pieces with
  | nil => rfl
  | cons p more ih =>
    rw [List.forall_mem_cons] at h
    have hp := List.length_pos_iff.mpr h.1
    cases more with
    | nil => exact hp
    | cons next more =>
      have := ih h.2
      simp only [separated, List.length_append, List.length_cons] at this ⊢
      omega

theorem separated_writeMember {members : List (String × List Char × Json)} (hne : members ≠ []) :
    ∃ cs, separated (members.map writeMember) = '"' :: cs := by
  obtain ⟨m, more, rfl⟩ := List.exists_cons_of_ne_nil hne
  cases more <;> exact ⟨_, rfl⟩

theorem ofString?_writeObject {members : List (String × List Char × Json)}
    (h : ∀ m ∈ members, Writes m.2.1 m.2.2) (hne : members ≠ []) :
    ofString? (String.ofList (writeObject (members.map fun m => (m.1, m.2.1)))) =
      some (.object (members.map fun m => (.text m.1.toList, m.2.2))) := by
  have hw : writeObject (members.map fun m => (m.1, m.2.1)) =
      '\x7b' :: separated (members.map writeMember) ++ ['\x7d'] := by
    rw [writeObject, List.map_map]
    rfl
  have hl : members.length ≤ (separated (members.map writeMember)).length := by
    rw [← List.length_map writeMember]
    refine length_le_length_separated fun p hp => ?_
    obtain ⟨m, -, rfl⟩ := List.mem_map.mp hp
    exact writeMember_ne_nil m
  obtain ⟨cs, hc⟩ := separated_writeMember hne
  have hf : members.length < 2 * (cs.length + 3) + 1 := by
    rw [hc, List.length_cons] at hl
    omega
  have hm := readMembers_separated h hne hf []
  rw [hc, List.map_cons, List.cons_append] at hm
  rw [hc] at hw
  rw [ofString?, hw, String.toList_ofList, parse?]
  have hs : ('\x7b' :: '"' :: cs ++ ['\x7d']).map some =
      some '\x7b' :: some '"' :: (cs.map some ++ [some '\x7d']) := by
    simp
  have hn : 2 * (('\x7b' :: '"' :: cs ++ ['\x7d']).map some).length + 2 =
      2 * (cs.length + 3) + 1 + 1 := by
    simp
  rw [hn, List.cons_append, List.cons_append] at *
  rw [hs, readValue]
  simp [skipSpace, isSpace, hm]

end CommandBus.Json
