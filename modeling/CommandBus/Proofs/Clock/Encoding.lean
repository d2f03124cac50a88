import CommandBus.Clock.Timestamp
import CommandBus.Proofs.Text.Numeral
import Mathlib

namespace CommandBus.Timestamp

theorem toList_text (t : Timestamp) :
    t.text.toList = Text.padded 15 t.millis ++ ':' ::
      (Text.padded 5 t.counter.toNat ++ ':' :: t.node.toList) := by
  simp [text]

theorem colon_notMem_padded (width n : Nat) : ':' ∉ Text.padded width n := fun h =>
  absurd (Text.isDecimal_of_mem_padded h) (by decide)

/-- A timestamp is read back from its text in whole milliseconds, and not at all if its time has
outgrown the numerals that are read. -/
theorem parse?_text (t : Timestamp) :
    parse? t.text =
      if t.millis < UInt64.size then some (.ofMillis t.millis t.counter t.node) else none := by
  have hmillis := Text.splitOnce_append (colon_notMem_padded 15 t.millis)
  have hcounter := Text.splitOnce_append (colon_notMem_padded 5 t.counter.toNat)
  have hlt : t.counter.toNat < UInt64.size := t.counter.toNat_lt
  rw [parse?, toList_text, hmillis]
  simp only [Option.bind_eq_bind, Option.bind_some, Text.readBelow_padded, hcounter, if_pos hlt]
  split <;> simp

theorem counter_eq_of_text_eq {t u : Timestamp} (h : t.text = u.text)
    (hu : u.millis < UInt64.size) : t.counter = u.counter := by
  have hread := congrArg parse? h
  rw [parse?_text u, if_pos hu, parse?_text] at hread
  split at hread
  · injection hread with hread
    injection hread
  · cases hread

theorem millis_of_nanos_eq {t : Timestamp} {millis : Nat} (h : t.nanos = millis * 1000000) :
    t.millis = millis := by
  rw [Timestamp.millis]
  omega

/-- What stands before the first colon of a text, between the first two, and after the second. -/
structure Parts (s : String) (first second : List Char) (rest : String) : Prop where
  toList_eq : s.toList = first ++ ':' :: (second ++ ':' :: rest.toList)
  notMem_first : ':' ∉ first
  notMem_second : ':' ∉ second

theorem exists_parts_iff {s : String} :
    (∃ first second rest, Parts s first second rest) ↔ 2 ≤ s.toList.count ':' := by
  constructor
  · rintro ⟨first, second, rest, h⟩
    rw [h.toList_eq]
    simp only [List.count_append, List.count_cons_self]
    omega
  · intro h
    obtain ⟨first, more, hs, hfirst⟩ :=
      List.eq_append_cons_of_mem (List.count_pos_iff.mp (show 0 < s.toList.count ':' by omega))
    have hmore : 0 < more.count ':' := by
      rw [hs, List.count_append, List.count_eq_zero.mpr hfirst, List.count_cons_self] at h
      omega
    obtain ⟨second, rest, hm, hsecond⟩ := List.eq_append_cons_of_mem (List.count_pos_iff.mp hmore)
    exact ⟨first, second, String.ofList rest, by rw [hs, hm, String.toList_ofList], hfirst,
      hsecond⟩

/-- A text is read as `t` if its first two parts are numerals for the time and the counter, within
64 bits each, and its last one is the node. -/
theorem parse?_eq_some_iff {s : String} {t : Timestamp} :
    parse? s = some t ↔ ∃ first second, Parts s first second t.node ∧
      (∃ n < UInt64.size, t.nanos = n * 1000000 ∧ Text.IsNumeral first n) ∧
      Text.IsNumeral second t.counter.toNat := by
  rw [parse?]
  simp only [Option.bind_eq_bind, Option.bind_eq_some_iff, Prod.exists, Option.pure_def,
    Text.splitOnce_eq_some_iff, Text.readBelow_eq_some_iff]
  constructor
  · rintro ⟨first, rest, ⟨hfirst, hs⟩, n, ⟨hn, hlt⟩, second, node, ⟨hsecond, rfl⟩, counter,
      ⟨hc, hclt⟩, heq⟩
    cases heq
    refine ⟨first, second, ⟨by rw [hs, ofMillis, String.toList_ofList], hfirst, hsecond⟩,
      ⟨n, hlt, rfl, hn⟩, ?_⟩
    rwa [ofMillis, Nat.toUInt64_eq, UInt64.toNat_ofNat_of_lt' hclt]
  · rintro ⟨first, second, ⟨hs, hfirst, hsecond⟩, ⟨n, hlt, hnanos, hn⟩, hc⟩
    refine ⟨first, _, ⟨hfirst, hs⟩, n, ⟨hn, hlt⟩, second, _, ⟨hsecond, rfl⟩, _,
      ⟨hc, t.counter.toNat_lt⟩, ?_⟩
    obtain ⟨nanos, counter, node⟩ := t
    cases hnanos
    simp [ofMillis]

theorem parse_eq_ok_iff {s : String} {t : Timestamp} : parse s = .ok t ↔ parse? s = some t := by
  rw [parse]
  cases parse? s <;> simp

theorem nanos_of_parse? {s : String} {t : Timestamp} (h : parse? s = some t) :
    ∃ millis < UInt64.size, t.nanos = (millis : Nat) * 1000000 := by
  obtain ⟨-, -, -, ⟨n, hlt, hnanos, -⟩, -⟩ := parse?_eq_some_iff.mp h
  exact ⟨n, hlt, hnanos⟩

theorem parse_text {t : Timestamp} {millis : Nat} (h : t.nanos = millis * 1000000)
    (hlt : millis < UInt64.size) : parse t.text = .ok t := by
  rw [parse_eq_ok_iff, parse?_text, millis_of_nanos_eq h, if_pos hlt, ofMillis, ← h]

/-- Timestamps in whole milliseconds survive being written and read. Of the texts, exactly those with
two colons or more are read that have a numeral of 64 bits before the first and between the first
two, whatever stands after the second; and what was read comes back from its own text. -/
theorem read_back_exactly :
    (∀ (t : Timestamp) (millis : Nat), t.nanos = millis * 1000000 → millis < UInt64.size →
      parse t.text = .ok t) ∧
    (∀ s, (∃ first second rest, Parts s first second rest) ↔ 2 ≤ s.toList.count ':') ∧
    (∀ s t, parse s = .ok t ↔ ∃ first second, Parts s first second t.node ∧
      (∃ n < UInt64.size, t.nanos = n * 1000000 ∧ Text.IsNumeral first n) ∧
      Text.IsNumeral second t.counter.toNat) ∧
    (∀ s, (∀ t, parse s ≠ .ok t) → parse s = .error (.malformed s)) ∧
    ∀ s t, parse s = .ok t → parse t.text = .ok t := by
  refine ⟨fun t millis => parse_text, fun s => exists_parts_iff, fun s t => ?_, fun s h => ?_,
    fun s t h => ?_⟩
  · rw [parse_eq_ok_iff, parse?_eq_some_iff]
  · cases hs : parse? s with
    | none => rw [parse, hs]
    | some t => exact absurd (parse_eq_ok_iff.mpr hs) (h t)
  · obtain ⟨millis, hlt, hnanos⟩ := nanos_of_parse? (parse_eq_ok_iff.mp h)
    exact parse_text hnanos hlt

/-- The greatest time and counter are wider than what they are padded to, and a node may look like
a timestamp itself. -/
theorem greatest_read_back :
    parse (text (.ofMillis (2 ^ 64 - 1) 18446744073709551615 "7:+07:")) =
      .ok (.ofMillis (2 ^ 64 - 1) 18446744073709551615 "7:+07:") ∧
    parse "+7:007:" = .ok (.ofMillis 7 7 "") ∧
    parse (text (.ofMillis 7 7 "")) = .ok (.ofMillis 7 7 "") ∧
    parse "7:-7:n" = .error (.malformed "7:-7:n") := by
  obtain ⟨hwritten, -, -, hrefused, hread⟩ := read_back_exactly
  have hsigned : parse "+7:007:" = .ok (.ofMillis 7 7 "") := by cbv
  refine ⟨hwritten _ (2 ^ 64 - 1) (by decide) (by decide), hsigned, hread _ _ hsigned, hrefused _ fun t h => ?_⟩
  have hnone : parse? "7:-7:n" = none := by cbv
  rw [parse_eq_ok_iff, hnone] at h
  cases h

end CommandBus.Timestamp
