import CommandBus.Topic.Filter
import CommandBus.Proofs.Success
import CommandBus.Proofs.Text.Levels
import Mathlib

namespace CommandBus

namespace FilterLevel

variable {level : String} {l : FilterLevel}

/-- A literal holds no reserved character, so as text it is not taken for a wildcard. -/
def IsPlain : FilterLevel → Prop
  | .literal text => ∀ c ∈ text.toList, isReserved c = false
  | .any => True

theorem firstReserved_eq_none_iff {position : Nat} {cs : List Char} :
    firstReserved position cs = none ↔ ∀ c ∈ cs, isReserved c = false := by
  induction cs generalizing position with
  | nil => simp [firstReserved]
  | cons c rest ih => cases hc : isReserved c <;> simp [firstReserved, hc, ih]

theorem ne_wildcard_of_isPlain (h : (literal level).IsPlain) : level ≠ "+" ∧ level ≠ "#" := by
  constructor
  · rintro rfl
    exact absurd (h '+' (by simp)) (by decide)
  · rintro rfl
    exact absurd (h '#' (by simp)) (by decide)

theorem text_ne_open (h : l.IsPlain) : l.text ≠ "#" := by
  cases l with
  | literal text => exact (ne_wildcard_of_isPlain h).2
  | any => decide

theorem text_eq_wildcard_iff (h : l.IsPlain) : l.text = "+" ↔ l = .any := by
  cases l with
  | literal text => exact iff_of_false (ne_wildcard_of_isPlain h).1 (by simp)
  | any => exact iff_of_true rfl rfl

theorem accepts_iff {t : String} (h : l.IsPlain) :
    l.accepts t = true ↔ l.text = "+" ∨ t = l.text := by
  cases l with
  | literal content =>
    have hne : content ≠ "+" := (ne_wildcard_of_isPlain h).1
    rw [accepts, beq_iff_eq]
    exact ⟨fun h => .inr h.symm, fun h => (h.resolve_left hne).symm⟩
  | any => exact iff_of_true rfl (.inl rfl)

theorem parse_eq_ok_iff : parse level = .ok l ↔ l.text = level ∧ l.IsPlain := by
  by_cases hw : level = "+"
  · subst hw
    constructor
    · intro h
      cases h
      exact ⟨rfl, trivial⟩
    · rintro ⟨ht, hp⟩
      rw [(text_eq_wildcard_iff hp).mp ht]
      rfl
  · constructor
    · intro h
      rw [parse, if_neg hw] at h
      split at h <;> cases h
      exact ⟨rfl, firstReserved_eq_none_iff.mp (by assumption)⟩
    · rintro ⟨rfl, hp⟩
      cases l with
      | literal content =>
        rw [text] at hw ⊢
        rw [parse, if_neg hw, firstReserved_eq_none_iff.mpr hp]
      | any => exact absurd rfl hw

end FilterLevel

namespace Filter

variable {f : Filter} {s topic : String}

def written (f : Filter) : List String :=
  f.levels.map FilterLevel.text ++ if f.isOpen then ["#"] else []

theorem ofLevels_cons_eq_ok_iff {level : String} {rest : List String} {l : FilterLevel}
    {more : List FilterLevel} {isOpen : Bool} :
    ofLevels (level :: rest) = .ok ⟨l :: more, isOpen⟩ ↔
      level ≠ "#" ∧ FilterLevel.parse level = .ok l ∧ ofLevels rest = .ok ⟨more, isOpen⟩ := by
  by_cases ho : level = "#"
  · rw [ofLevels, if_pos ho]
    split <;> simp [ho]
  · rw [ofLevels, if_neg ho]
    constructor
    · intro h
      obtain ⟨first, hfirst, h⟩ := exists_of_bind h
      obtain ⟨g, hg, h⟩ := exists_of_bind h
      cases h
      exact ⟨ho, hfirst, hg⟩
    · rintro ⟨-, hfirst, hrest⟩
      rw [hfirst, hrest]
      rfl

theorem ofLevels_cons_eq_ok_nil_iff {level : String} {rest : List String} {isOpen : Bool} :
    ofLevels (level :: rest) = .ok ⟨[], isOpen⟩ ↔ level = "#" ∧ rest = [] ∧ isOpen = true := by
  by_cases ho : level = "#"
  · rw [ofLevels, if_pos ho]
    cases rest <;> cases isOpen <;> simp [ho]
  · rw [ofLevels, if_neg ho]
    refine iff_of_false (fun h => ?_) fun h => ho h.1
    obtain ⟨first, -, h⟩ := exists_of_bind h
    obtain ⟨g, -, h⟩ := exists_of_bind h
    cases h

theorem ofLevels_eq_ok_iff {ls : List String} :
    ofLevels ls = .ok f ↔ f.written = ls ∧ ∀ l ∈ f.levels, l.IsPlain := by
  induction ls generalizing f with
  | nil =>
    obtain ⟨_ | ⟨l, more⟩, _ | _⟩ := f <;> simp [ofLevels, written]
  | cons level rest ih =>
    obtain ⟨levels, isOpen⟩ := f
    cases levels with
    | nil =>
      rw [ofLevels_cons_eq_ok_nil_iff]
      cases isOpen <;> simp [written, eq_comm]
    | cons l more =>
      rw [ofLevels_cons_eq_ok_iff, FilterLevel.parse_eq_ok_iff, ih, List.forall_mem_cons]
      have hwritten : written ⟨l :: more, isOpen⟩ = l.text :: written ⟨more, isOpen⟩ := rfl
      rw [hwritten, List.cons.injEq]
      constructor
      · rintro ⟨-, ⟨ht, hp⟩, hw, hmore⟩
        exact ⟨⟨ht, hw⟩, hp, hmore⟩
      · rintro ⟨⟨ht, hw⟩, hp, hmore⟩
        exact ⟨ht ▸ FilterLevel.text_ne_open hp, ⟨ht, hp⟩, hw, hmore⟩

theorem parse_eq_ok_iff :
    parse s = .ok f ↔ s ≠ "" ∧ f.written = Text.levels s ∧ ∀ l ∈ f.levels, l.IsPlain := by
  rw [parse]
  by_cases hs : s = ""
  · simp [hs]
  · rw [if_neg hs, ofLevels_eq_ok_iff]
    simp [hs]

/-- The filter written as `s` ends in the wildcard for any further levels. -/
def EndsOpen (s : String) : Prop :=
  (Text.levels s).getLast? = some "#"

instance : DecidablePred EndsOpen := fun _ => inferInstanceAs (Decidable (_ = _))

def stem (s : String) : List String :=
  if EndsOpen s then (Text.levels s).dropLast else Text.levels s

/-- Each of the levels is the wildcard for one level, or is found at the same place in `ts`. -/
def Follows (ls ts : List String) : Prop :=
  ∀ (i : Nat) (level : String), ls[i]? = some level → level = "+" ∨ ts[i]? = some level

/-- Level by level, a topic is as the filter written as `s` asks for. -/
structure Matches (s topic : String) : Prop where
  follows : Follows (stem s) (Text.levels topic)
  length_eq : ¬ EndsOpen s → (Text.levels topic).length = (Text.levels s).length
  le_length : EndsOpen s → (stem s).length ≤ (Text.levels topic).length
  /-- A wildcard in front does not stand for what starts with a dollar sign. -/
  notReserved : (Text.levels s).head? = some "+" ∨ (Text.levels s).head? = some "#" →
    topic.toList.head? ≠ some '$'

theorem endsOpen_iff (h : parse s = .ok f) : EndsOpen s ↔ f.isOpen = true := by
  obtain ⟨-, hw, hp⟩ := parse_eq_ok_iff.mp h
  rw [EndsOpen, ← hw, written]
  cases ho : f.isOpen with
  | true => simp
  | false =>
    refine iff_of_false (fun hl => ?_) Bool.false_ne_true
    rw [if_neg Bool.false_ne_true, List.append_nil] at hl
    obtain ⟨l, hl, ht⟩ := List.mem_map.mp (List.mem_of_getLast? hl)
    exact FilterLevel.text_ne_open (hp l hl) ht

theorem stem_eq (h : parse s = .ok f) : stem s = f.levels.map FilterLevel.text := by
  rw [stem, if_congr (endsOpen_iff h) rfl rfl, ← (parse_eq_ok_iff.mp h).2.1, written]
  cases f.isOpen <;> simp

theorem follows_cons {l t : String} {ls ts : List String} :
    Follows (l :: ls) (t :: ts) ↔ (l = "+" ∨ t = l) ∧ Follows ls ts := by
  constructor
  · intro h
    exact ⟨by simpa using h 0 l rfl, fun i level hl => h (i + 1) level hl⟩
  · rintro ⟨hfirst, hrest⟩ (_ | i) level hl
    · cases hl
      simpa using hfirst
    · exact hrest i level hl

theorem acceptsLevels_iff {isOpen : Bool} {ls : List FilterLevel} {ts : List String}
    (hp : ∀ l ∈ ls, l.IsPlain) :
    acceptsLevels isOpen ls ts = true ↔ Follows (ls.map FilterLevel.text) ts ∧
      (isOpen = false → ts.length = ls.length) ∧ (isOpen = true → ls.length ≤ ts.length) := by
  induction ls generalizing ts with
  | nil =>
    have hfollows : Follows [] ts := fun i level hl => by simp at hl
    cases isOpen <;> simp [acceptsLevels, hfollows]
  | cons l more ih =>
    cases ts with
    | nil => cases isOpen <;> simp [acceptsLevels]
    | cons t ts =>
      rw [List.forall_mem_cons] at hp
      rw [acceptsLevels, Bool.and_eq_true, ih hp.2, FilterLevel.accepts_iff hp.1, List.map_cons,
        follows_cons, List.length_cons, List.length_cons, Nat.add_left_inj,
        Nat.add_le_add_iff_right, and_assoc]

theorem startsLiteral_eq_false_iff (h : parse s = .ok f) :
    f.startsLiteral = false ↔
      (Text.levels s).head? = some "+" ∨ (Text.levels s).head? = some "#" := by
  obtain ⟨-, hw, hp⟩ := parse_eq_ok_iff.mp h
  have hne := Text.levels_ne_nil s
  rw [← hw] at hne ⊢
  -- Only the open filter is written without any level of its own.
  obtain ⟨_ | ⟨l, more⟩, isOpen⟩ := f
  · cases isOpen with
    | false => exact absurd rfl hne
    | true => simp [written, startsLiteral]
  · have hl := hp l List.mem_cons_self
    have hhead : (written ⟨l :: more, isOpen⟩).head? = some l.text := rfl
    rw [hhead, Option.some_inj, Option.some_inj, FilterLevel.text_eq_wildcard_iff hl]
    cases l with
    | literal content => simpa [startsLiteral] using FilterLevel.text_ne_open hl
    | any => simp [startsLiteral]

/-- A filter accepts exactly the topics that its text matches, level by level. -/
theorem accepts_iff_matches (h : parse s = .ok f) (topic : String) :
    f.accepts topic = true ↔ Matches s topic := by
  have hlevels : acceptsLevels f.isOpen f.levels (Text.levels topic) = true ↔ _ :=
    acceptsLevels_iff (parse_eq_ok_iff.mp h).2.2
  have hlength : (stem s).length = f.levels.length := by rw [stem_eq h, List.length_map]
  have hopen := endsOpen_iff h
  rw [← stem_eq h, ← hlength, ← hopen, ← Bool.not_eq_true, ← hopen] at hlevels
  have hfront : (f.startsLiteral || !isReservedTopic topic) = true ↔
      ((Text.levels s).head? = some "+" ∨ (Text.levels s).head? = some "#" →
        topic.toList.head? ≠ some '$') := by
    rw [← startsLiteral_eq_false_iff h, isReservedTopic]
    cases f.startsLiteral <;> simp
  rw [accepts, Bool.and_eq_true, hlevels, hfront]
  -- What ends in no wildcard for further levels is all stem.
  constructor
  · rintro ⟨hreserved, hfollows, heq, hle⟩
    refine ⟨hfollows, fun hclosed => ?_, hle, hreserved⟩
    rw [heq hclosed, stem, if_neg hclosed]
  · rintro ⟨hfollows, heq, hle, hreserved⟩
    refine ⟨hreserved, hfollows, fun hclosed => ?_, hle⟩
    rw [heq hclosed, stem, if_neg hclosed]

/-- A topic may end where the wildcard for further levels begins. -/
theorem parent_matches : parse "sport/#" = .ok ⟨[.literal "sport"], true⟩ ∧
    Matches "sport/#" "sport" ∧ ¬ Matches "sport/#" "sports/tennis" := by
  have hparse : parse "sport/#" = .ok ⟨[.literal "sport"], true⟩ := rfl
  refine ⟨hparse, (accepts_iff_matches hparse "sport").mp rfl, fun h => ?_⟩
  cases (accepts_iff_matches hparse "sports/tennis").mpr h

end Filter

end CommandBus
