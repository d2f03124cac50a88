import CommandBus.Topic.Pattern
import CommandBus.Proofs.Success
import CommandBus.Proofs.Text.Levels
import Mathlib

namespace CommandBus

/-- The values of both maps; where both have one, that of the first. -/
def TokenMap.union (first second : TokenMap) : TokenMap :=
  second ++ first

@[simp]
theorem TokenMap.get?_union (first second : TokenMap) (name : String) :
    (first.union second).get? name = (first.get? name).or (second.get? name) := by
  rw [get?, union, List.reverse_append, List.lookup_append]
  rfl

namespace TopicPattern

theorem isLevelChar_of_mem {level : String} (h : isLevel level = true) {c : Char}
    (hc : c ∈ level.toList) : isLevelChar c = true := by
  unfold isLevel at h
  rw [Bool.and_eq_true, List.all_eq_true] at h
  exact h.2 c hc

theorem toList_ne_nil {level : String} (h : isLevel level = true) : level.toList ≠ [] := by
  unfold isLevel at h
  rw [Bool.and_eq_true] at h
  intro hnil
  rw [hnil] at h
  cases h.1

theorem notMem_of_isLevel {level : String} (h : isLevel level = true) {c : Char}
    (hc : isLevelChar c = false) : c ∉ level.toList := by
  intro hm
  rw [isLevelChar_of_mem h hm] at hc
  cases hc

def IsProper : PatternLevel → Prop
  | .literal text => isLevel text = true
  | .token _ => True

variable {property pattern : String} {space? : Option String} {tokens fill early late : TokenMap}
  {p q : TopicPattern} {invalid : ProtocolError} {level topic : String} {l : PatternLevel}

theorem isProper_of_parseLevel (h : parseLevel invalid tokens level = .ok l) : IsProper l := by
  unfold parseLevel at h
  split at h
  next chars _ =>
    dsimp only at h
    split at h
    · cases h
    · split at h
      · cases h
        exact trivial
      next value _ =>
        split at h <;> cases h
        assumption
  next =>
    split at h <;> cases h
    assumption

def fullText (space? : Option String) (pattern : String) : String :=
  space?.elim pattern (· ++ "/" ++ pattern)

/-- What is asked of a pattern and its namespace before the levels are read. -/
structure IsAdmitted (space? : Option String) (pattern : String) : Prop where
  space_isLevel : ∀ space, space? = some space → (Text.levels space).all isLevel = true
  starts : (pattern.isEmpty || (fullText space? pattern).toList.head? == some '$') = false

theorem isAdmitted_of_parse (h : parse property pattern space? tokens = .ok p) :
    IsAdmitted space? pattern := by
  constructor
  · rintro space rfl
    by_contra hlevels
    unfold parse at h
    simp only [if_neg hlevels] at h
    cases h
  · by_contra hstarts
    rw [Bool.not_eq_false] at hstarts
    unfold fullText at hstarts
    unfold parse at h
    cases space? with
    | none =>
      simp only [hstarts, if_true] at h
      cases h
    | some space =>
      simp only [hstarts, if_true] at h
      split at h <;> cases h

theorem parse_of_isAdmitted (h : IsAdmitted space? pattern) :
    parse property pattern space? tokens = (Text.levels (fullText space? pattern)).mapM
      (parseLevel (.configurationInvalid property pattern) tokens) >>= fun ls => .ok ⟨ls⟩ := by
  have hstarts := Bool.eq_false_iff.mp h.starts
  unfold fullText at hstarts
  unfold parse
  cases space? with
  | none => exact if_neg hstarts
  | some space =>
    dsimp only
    rw [if_pos (h.space_isLevel space rfl), if_neg hstarts]
    rfl

theorem parse_eq_ok_iff : parse property pattern space? tokens = .ok p ↔
    IsAdmitted space? pattern ∧ (Text.levels (fullText space? pattern)).mapM
      (parseLevel (.configurationInvalid property pattern) tokens) = .ok p.levels := by
  constructor
  · intro h
    have hadmitted := isAdmitted_of_parse h
    rw [parse_of_isAdmitted hadmitted] at h
    obtain ⟨ls, hls, h⟩ := exists_of_bind h
    cases h
    exact ⟨hadmitted, hls⟩
  · rintro ⟨hadmitted, hls⟩
    rw [parse_of_isAdmitted hadmitted, hls]
    rfl

theorem isProper_of_parse (h : parse property pattern space? tokens = .ok p) {l : PatternLevel}
    (hl : l ∈ p.levels) : IsProper l := by
  obtain ⟨k, hk, rfl⟩ := List.getElem_of_mem hl
  have hf := mapM_eq_ok_iff.mp (parse_eq_ok_iff.mp h).2
  exact isProper_of_parseLevel (hf.get (by rw [hf.length_eq]; exact hk) hk)

theorem levels_ne_nil (h : parse property pattern space? tokens = .ok p) : p.levels ≠ [] := by
  intro hnil
  have hf := mapM_eq_ok_iff.mp (parse_eq_ok_iff.mp h).2
  rw [hnil, List.forall₂_nil_right_iff] at hf
  exact Text.levels_ne_nil _ hf

theorem isLevel_of_fillLevel (hl : IsProper l) {level : String}
    (h : fillLevel fill l = .ok level) : isLevel level = true := by
  unfold fillLevel at h
  split at h
  next =>
    cases h
    exact hl
  next =>
    split at h
    · split at h <;> cases h
      assumption
    · cases h

/-- A placeholder that has a value is filled with it, and any other one stays. -/
def fillEarly (tokens : TokenMap) : PatternLevel → Except ProtocolError PatternLevel
  | .literal text => .ok (.literal text)
  | .token name =>
    match tokens.get? name with
    | none => .ok (.token name)
    | some value =>
      if isLevel value then .ok (.literal value)
      else .error ((ProtocolError.configurationInvalid name value).withText invalidValue)

theorem parseLevel_eq_fillEarly (h : parseLevel invalid [] level = .ok l) (tokens : TokenMap) :
    parseLevel invalid tokens level = fillEarly tokens l := by
  unfold parseLevel at h ⊢
  cases hplace : placeholder? level with
  | none =>
    rw [hplace] at h
    dsimp only at h ⊢
    split at h <;> cases h
    rw [if_pos (by assumption), fillEarly]
  | some chars =>
    rw [hplace] at h
    dsimp only at h ⊢
    split at h
    · cases h
    next hname =>
      cases h
      exact if_neg hname

theorem parse_eq_ok_iff_of_parse (h : parse property pattern space? [] = .ok p) :
    parse property pattern space? tokens = .ok q ↔
      p.levels.mapM (fillEarly tokens) = .ok q.levels := by
  obtain ⟨hadmitted, hlevels⟩ := parse_eq_ok_iff.mp h
  have hread := mapM_eq_mapM (mapM_eq_ok_iff.mp hlevels) fun level l hl =>
    parseLevel_eq_fillEarly hl tokens
  rw [parse_eq_ok_iff, hread]
  exact and_iff_right hadmitted

theorem fillEarly_fillLevel_iff :
    (∃ l', fillEarly early l = .ok l' ∧ fillLevel late l' = .ok level) ↔
      fillLevel (early.union late) l = .ok level := by
  cases l with
  | literal text => simp [fillEarly, fillLevel]
  | token name =>
    rw [fillEarly, fillLevel, TokenMap.get?_union]
    cases hearly : early.get? name with
    | none => simp [fillLevel]
    | some value => by_cases hv : isLevel value = true <;> simp [fillLevel, hv]

theorem isLevel_of_filled {ls : List PatternLevel} {filled : List String}
    (hp : ∀ l ∈ ls, IsProper l)
    (h : List.Forall₂ (fun l level => fillLevel fill l = .ok level) ls filled) :
    ∀ level ∈ filled, isLevel level = true := by
  induction h with
  | nil => exact List.forall_mem_nil _
  | cons hfirst _ ih =>
    rw [List.forall_mem_cons] at hp
    exact List.forall_mem_cons.mpr ⟨isLevel_of_fillLevel hp.1 hfirst, ih hp.2⟩

theorem publishTopic_eq_ok_iff (h : parse property pattern space? tokens = .ok p) :
    p.publishTopic fill = .ok topic ↔
      List.Forall₂ (fun l level => fillLevel fill l = .ok level) p.levels (Text.levels topic) := by
  unfold publishTopic
  constructor
  · intro ht
    obtain ⟨filled, hfilled, ht⟩ := exists_of_bind ht
    cases ht
    have hf := mapM_eq_ok_iff.mp hfilled
    have hslash : ∀ level ∈ filled, '/' ∉ level.toList := fun level hlevel =>
      notMem_of_isLevel (isLevel_of_filled (fun _ => isProper_of_parse h) hf level hlevel) rfl
    have hne : filled ≠ [] := by
      rintro rfl
      exact levels_ne_nil h (List.forall₂_nil_right_iff.mp hf)
    rwa [Text.levels_joinLevels hne hslash]
  · intro hf
    rw [mapM_eq_ok_iff.mpr hf]
    exact congrArg Except.ok (Text.joinLevels_levels topic)

/-- A text that can be published to: no level is empty, and no character stands for anything but
itself or is white space. -/
structure IsTopic (topic : String) : Prop where
  level_ne_empty : ∀ level ∈ Text.levels topic, level ≠ ""
  ne_reserved : ∀ c ∈ topic.toList, c ≠ '+' ∧ c ≠ '#' ∧ c ≠ '\x7b' ∧ c ≠ '\x7d' ∧
    c ≠ Char.ofNat 0 ∧ Text.isBlank c = false

theorem isTopic_of_isLevel (h : ∀ level ∈ Text.levels topic, isLevel level = true) :
    IsTopic topic where
  level_ne_empty level hl := by
    rintro rfl
    exact toList_ne_nil (h _ hl) rfl
  ne_reserved c hc := by
    rw [← Text.joinLevels_levels topic] at hc
    obtain rfl | ⟨level, hl, hc⟩ := Text.mem_joinLevels hc
    · decide
    · have hchar := isLevelChar_of_mem (h level hl) hc
      unfold isLevelChar at hchar
      simp_all

theorem exists_parse_publishTopic_iff (h : parse property pattern space? [] = .ok p) :
    (∃ q, parse property pattern space? early = .ok q ∧ q.publishTopic late = .ok topic) ↔
      ∃ ls, List.Forall₂ (fun l l' => fillEarly early l = .ok l') p.levels ls ∧
        List.Forall₂ (fun l level => fillLevel late l = .ok level) ls (Text.levels topic) := by
  constructor
  · rintro ⟨q, hq, ht⟩
    exact ⟨q.levels, mapM_eq_ok_iff.mp ((parse_eq_ok_iff_of_parse h).mp hq),
      (publishTopic_eq_ok_iff hq).mp ht⟩
  · rintro ⟨ls, hearly, hlate⟩
    have hq : parse property pattern space? early = .ok ⟨ls⟩ :=
      (parse_eq_ok_iff_of_parse h).mpr (mapM_eq_ok_iff.mpr hearly)
    exact ⟨⟨ls⟩, hq, (publishTopic_eq_ok_iff hq).mpr hlate⟩

/-- It does not matter when placeholders are filled: a pattern that is read with some values, and
published to with others, has the topics that it has when it is read without any and published to
with all of them. Such a topic has nothing in it that is reserved, and as many levels as the
pattern. -/
theorem publishTopic_union (h : parse property pattern space? [] = .ok p) (early late : TokenMap)
    (topic : String) :
    ((∃ q, parse property pattern space? early = .ok q ∧ q.publishTopic late = .ok topic) ↔
      p.publishTopic (early.union late) = .ok topic) ∧
    (p.publishTopic (early.union late) = .ok topic → IsTopic topic ∧
      (Text.levels topic).length = (Text.levels (fullText space? pattern)).length) := by
  rw [exists_parse_publishTopic_iff h, publishTopic_eq_ok_iff h, forall₂_comp]
  simp only [fillEarly_fillLevel_iff, true_and]
  intro hfilled
  have hlevels := mapM_eq_ok_iff.mp (parse_eq_ok_iff.mp h).2
  exact ⟨isTopic_of_isLevel (isLevel_of_filled (fun _ => isProper_of_parse h) hfilled),
    hfilled.length_eq.symm.trans hlevels.length_eq.symm⟩

/-- The value that is given first counts, and a placeholder may stand in the pattern twice. -/
theorem early_value_published :
    ∃ p q, parse "pattern" "\x7bmodel\x7d/\x7bname\x7d/\x7bmodel\x7d" (some "ns") [] = .ok p ∧
      parse "pattern" "\x7bmodel\x7d/\x7bname\x7d/\x7bmodel\x7d" (some "ns")
        [("model", "counter")] = .ok q ∧
      q.publishTopic [("model", "clock"), ("name", "one")] = .ok "ns/counter/one/counter" ∧
      IsTopic "ns/counter/one/counter" := by
  obtain ⟨p, hp, htopic⟩ : ∃ p,
      parse "pattern" "\x7bmodel\x7d/\x7bname\x7d/\x7bmodel\x7d" (some "ns") [] = .ok p ∧
      p.publishTopic (TokenMap.union [("model", "counter")] [("model", "clock"), ("name", "one")]) =
        .ok "ns/counter/one/counter" := ⟨_, rfl, rfl⟩
  obtain ⟨hiff, hlevels⟩ := publishTopic_union hp _ _ _
  obtain ⟨q, hq, hpublished⟩ := hiff.mpr htopic
  exact ⟨p, q, hp, hq, hpublished, (hlevels htopic).1⟩

end TopicPattern

end CommandBus
