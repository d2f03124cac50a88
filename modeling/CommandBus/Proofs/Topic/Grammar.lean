import CommandBus.Proofs.Topic.Matching
import Mathlib

namespace CommandBus

namespace FilterLevel

theorem isReserved_eq_false_iff {c : Char} :
    isReserved c = false ↔ c ≠ '#' ∧ c ≠ '+' ∧ c ≠ Char.ofNat 0 := by
  simp [isReserved, and_assoc]

theorem exists_parse_iff {level : String} : (∃ l, parse level = .ok l) ↔
    '#' ∉ level.toList ∧ ('+' ∈ level.toList → level = "+") ∧ Char.ofNat 0 ∉ level.toList := by
  simp only [parse_eq_ok_iff]
  constructor
  · rintro ⟨l, rfl, hp⟩
    cases l with
    | literal content =>
      exact ⟨fun hc => (isReserved_eq_false_iff.mp (hp _ hc)).1 rfl,
        fun hc => absurd rfl (isReserved_eq_false_iff.mp (hp _ hc)).2.1,
        fun hc => (isReserved_eq_false_iff.mp (hp _ hc)).2.2 rfl⟩
    | any => exact ⟨by simp [text], fun _ => rfl, by decide⟩
  · rintro ⟨hopen, hany, hnul⟩
    by_cases hw : '+' ∈ level.toList
    · exact ⟨.any, (hany hw).symm, trivial⟩
    · refine ⟨.literal level, rfl, fun c hc => isReserved_eq_false_iff.mpr ⟨?_, ?_, ?_⟩⟩
      · exact ne_of_mem_of_not_mem hc hopen
      · exact ne_of_mem_of_not_mem hc hw
      · exact ne_of_mem_of_not_mem hc hnul

end FilterLevel

namespace Filter

variable {f : Filter} {s topic level : String} {rest : List String}

/-- The levels that make a filter: a wildcard stands alone in its level, the one for any further
levels at the end, and NUL nowhere. -/
structure IsWellFormed (ls : List String) : Prop where
  any_alone : ∀ level ∈ ls, '+' ∈ level.toList → level = "+"
  open_last : ∀ (i : Nat) (level : String), ls[i]? = some level → '#' ∈ level.toList →
    level = "#" ∧ i + 1 = ls.length
  notMem_nul : ∀ level ∈ ls, Char.ofNat 0 ∉ level.toList

theorem isWellFormed_open : IsWellFormed ["#"] where
  any_alone level hl hc := by
    obtain rfl := List.mem_singleton.mp hl
    simp at hc
  open_last i level hl _ := by
    obtain ⟨hi, hl⟩ := List.getElem?_eq_some_iff.mp hl
    have hzero : i = 0 := by simpa using hi
    subst hzero
    exact ⟨hl.symm, rfl⟩
  notMem_nul level hl := by
    obtain rfl := List.mem_singleton.mp hl
    decide

theorem IsWellFormed.tail (h : IsWellFormed (level :: rest)) : IsWellFormed rest where
  any_alone l hl := h.any_alone l (List.mem_cons_of_mem _ hl)
  open_last i l hl hc := by
    obtain ⟨heq, hlast⟩ := h.open_last (i + 1) l hl hc
    exact ⟨heq, by simpa using hlast⟩
  notMem_nul l hl := h.notMem_nul l (List.mem_cons_of_mem _ hl)

theorem IsWellFormed.cons (h : IsWellFormed rest) (hopen : '#' ∉ level.toList)
    (hany : '+' ∈ level.toList → level = "+") (hnul : Char.ofNat 0 ∉ level.toList) :
    IsWellFormed (level :: rest) where
  any_alone := List.forall_mem_cons.mpr ⟨hany, h.any_alone⟩
  open_last := by
    rintro (_ | i) l hl hc
    · cases hl
      exact absurd hc hopen
    · obtain ⟨heq, hlast⟩ := h.open_last i l hl hc
      exact ⟨heq, congrArg (· + 1) hlast⟩
  notMem_nul := List.forall_mem_cons.mpr ⟨hnul, h.notMem_nul⟩

theorem isWellFormed_cons : IsWellFormed (level :: rest) ↔
    level = "#" ∧ rest = [] ∨
      (∃ l, FilterLevel.parse level = .ok l) ∧ IsWellFormed rest := by
  rw [FilterLevel.exists_parse_iff]
  constructor
  · intro h
    by_cases hopen : '#' ∈ level.toList
    · obtain ⟨hlevel, hlast⟩ := h.open_last 0 level rfl hopen
      exact .inl ⟨hlevel, by simpa using hlast⟩
    · exact .inr ⟨⟨hopen, h.any_alone level List.mem_cons_self,
        h.notMem_nul level List.mem_cons_self⟩, h.tail⟩
  · rintro (⟨rfl, rfl⟩ | ⟨⟨hopen, hany, hnul⟩, hrest⟩)
    · exact isWellFormed_open
    · exact hrest.cons hopen hany hnul

theorem exists_ofLevels_cons_iff : (∃ f, ofLevels (level :: rest) = .ok f) ↔
    level = "#" ∧ rest = [] ∨
      (∃ l, FilterLevel.parse level = .ok l) ∧ ∃ f, ofLevels rest = .ok f := by
  constructor
  · rintro ⟨⟨levels, isOpen⟩, h⟩
    cases levels with
    | nil =>
      obtain ⟨hlevel, hrest, -⟩ := ofLevels_cons_eq_ok_nil_iff.mp h
      exact .inl ⟨hlevel, hrest⟩
    | cons l more =>
      obtain ⟨-, hl, hmore⟩ := ofLevels_cons_eq_ok_iff.mp h
      exact .inr ⟨⟨l, hl⟩, _, hmore⟩
  · rintro (⟨rfl, rfl⟩ | ⟨⟨l, hl⟩, ⟨more, isOpen⟩, hmore⟩)
    · exact ⟨⟨[], true⟩, rfl⟩
    · obtain ⟨ht, hp⟩ := FilterLevel.parse_eq_ok_iff.mp hl
      exact ⟨⟨l :: more, isOpen⟩,
        ofLevels_cons_eq_ok_iff.mpr ⟨ht ▸ FilterLevel.text_ne_open hp, hl, hmore⟩⟩

theorem exists_ofLevels_iff {ls : List String} :
    (∃ f, ofLevels ls = .ok f) ↔ IsWellFormed ls := by
  induction ls with
  | nil => exact iff_of_true ⟨_, rfl⟩ ⟨by simp, by simp, by simp⟩
  | cons level rest ih =>
    rw [exists_ofLevels_cons_iff, isWellFormed_cons, ih]

theorem exists_parse_iff :
    (∃ f, parse s = .ok f) ↔ s ≠ "" ∧ IsWellFormed (Text.levels s) := by
  rw [← exists_ofLevels_iff, parse]
  by_cases hs : s = "" <;> simp [hs]

theorem text_of_parse (h : parse s = .ok f) : f.text = s := by
  have hwritten : f.text = Text.joinLevels f.written := rfl
  rw [hwritten, (parse_eq_ok_iff.mp h).2.1, Text.joinLevels_levels]

theorem hasWildcards_eq_false_iff :
    f.hasWildcards = false ↔ f.isOpen = false ∧ .any ∉ f.levels := by
  simp [hasWildcards]

theorem map_text_of_acceptsLevels {ls : List FilterLevel} {ts : List String}
    (hw : .any ∉ ls) (h : acceptsLevels false ls ts = true) :
    ls.map FilterLevel.text = ts := by
  induction ls generalizing ts with
  | nil =>
    rw [acceptsLevels, Bool.false_or, List.isEmpty_iff] at h
    exact h.symm
  | cons l more ih =>
    rw [List.mem_cons, not_or] at hw
    cases ts with
    | nil => cases h
    | cons t ts =>
      rw [acceptsLevels, Bool.and_eq_true] at h
      rw [List.map_cons, ih hw.2 h.2]
      cases l with
      | literal content => rw [FilterLevel.text, beq_iff_eq.mp h.1]
      | any => exact absurd rfl hw.1

theorem eq_text_of_accepts (hw : f.hasWildcards = false) (h : f.accepts topic = true) :
    topic = f.text := by
  obtain ⟨hclosed, hany⟩ := hasWildcards_eq_false_iff.mp hw
  rw [accepts, hclosed, Bool.and_eq_true] at h
  rw [← Text.joinLevels_levels topic, ← map_text_of_acceptsLevels hany h.2, text, hclosed]
  simp

/-- What a topic may have in the place of a filter's level: something else than the wildcard itself
where there is one. -/
def sampleLevel : FilterLevel → String
  | .literal content => content
  | .any => "x"

def sample (f : Filter) : List String :=
  f.levels.map sampleLevel ++ if f.isOpen then ["x"] else []

theorem acceptsLevels_sample (f : Filter) :
    acceptsLevels f.isOpen f.levels f.sample = true := by
  obtain ⟨levels, isOpen⟩ := f
  induction levels with
  | nil => cases isOpen <;> rfl
  | cons l more ih =>
    have hfirst : l.accepts (sampleLevel l) = true := by
      cases l with
      | literal content => exact beq_self_eq_true content
      | any => rfl
    have hsample : sample ⟨l :: more, isOpen⟩ = sampleLevel l :: sample ⟨more, isOpen⟩ := rfl
    rw [hsample, acceptsLevels, hfirst, ih]
    rfl

theorem length_sample (f : Filter) : f.sample.length = f.written.length := by
  rw [sample, written]
  cases f.isOpen <;> simp

theorem sample_ne_nil (h : parse s = .ok f) : f.sample ≠ [] := by
  rw [← List.length_pos_iff, length_sample, (parse_eq_ok_iff.mp h).2.1, List.length_pos_iff]
  exact Text.levels_ne_nil s

theorem notMem_of_mem_sample (h : parse s = .ok f) (hl : level ∈ f.sample) :
    '/' ∉ level.toList := by
  have hx : '/' ∉ "x".toList := by simp
  obtain hl | hl := List.mem_append.mp hl
  · obtain ⟨l, hmem, rfl⟩ := List.mem_map.mp hl
    cases l with
    | literal content =>
      refine Text.notMem_of_mem_levels (s := s) ?_
      rw [← (parse_eq_ok_iff.mp h).2.1]
      exact List.mem_append_left _ (List.mem_map_of_mem hmem)
    | any => exact hx
  · cases hopen : f.isOpen <;> simp [hopen] at hl
    exact hl ▸ hx

theorem levels_sample (h : parse s = .ok f) :
    Text.levels (Text.joinLevels f.sample) = f.sample :=
  Text.levels_joinLevels (sample_ne_nil h) fun _ => notMem_of_mem_sample h

theorem accepts_sample (h : parse s = .ok f) :
    f.accepts (Text.joinLevels f.sample) = true := by
  rw [accepts, levels_sample h, acceptsLevels_sample, Bool.and_true]
  have hne := sample_ne_nil h
  -- The first level decides; without any, the filter is the open wildcard alone.
  obtain ⟨_ | ⟨l, more⟩, isOpen⟩ := f
  · cases isOpen with
    | false => exact absurd rfl hne
    | true => decide
  · cases l with
    | literal content => rfl
    | any =>
      have hhead : (Text.joinLevels (sample ⟨.any :: more, isOpen⟩)).toList.head? = some 'x' :=
        Text.head?_joinLevels (by decide) _
      rw [isReservedTopic, hhead]
      rfl

theorem sample_ne_written (hw : f.hasWildcards = true) : f.sample ≠ f.written := by
  intro h
  rw [sample, written] at h
  obtain ⟨hlevels, htail⟩ := List.append_inj h (by simp)
  have hclosed : f.isOpen = false := by
    cases hopen : f.isOpen with
    | false => rfl
    | true => simp [hopen] at htail
  have hany : .any ∉ f.levels := fun hmem =>
    absurd (List.map_inj_left.mp hlevels .any hmem) (by decide)
  rw [hasWildcards_eq_false_iff.mpr ⟨hclosed, hany⟩] at hw
  cases hw

/-- The grammar is read without loss: its texts are the filters, each filter is written as the text
it was read from and read from no other, and it has wildcards unless it reaches nothing but its own
text. -/
theorem grammar_exact :
    (∀ s, (∃ f, parse s = .ok f) ↔ s ≠ "" ∧ IsWellFormed (Text.levels s)) ∧
    (∀ s f, parse s = .ok f → f.text = s) ∧
    (∀ s s' f, parse s = .ok f → parse s' = .ok f → s = s') ∧
    ∀ s f, parse s = .ok f →
      (f.hasWildcards = false ↔ ∀ topic, f.accepts topic = true → topic = f.text) := by
  refine ⟨fun s => exists_parse_iff, fun s f => text_of_parse, fun s s' f h h' => ?_,
    fun s f h => ⟨fun hw topic => eq_text_of_accepts hw, fun honly => ?_⟩⟩
  · rw [← text_of_parse h, text_of_parse h']
  · by_contra hw
    have heq := honly _ (accepts_sample h)
    rw [text_of_parse h] at heq
    refine sample_ne_written (Bool.not_eq_false _ ▸ hw) ?_
    rw [(parse_eq_ok_iff.mp h).2.1, ← heq, levels_sample h]

theorem slash_read_exactly : parse "/+/" = .ok ⟨[.literal "", .any, .literal ""], false⟩ ∧
    Filter.text ⟨[.literal "", .any, .literal ""], false⟩ = "/+/" ∧
    ∃ topic, Filter.accepts ⟨[.literal "", .any, .literal ""], false⟩ topic = true ∧
      topic ≠ "/+/" := by
  have hparse : parse "/+/" = .ok ⟨[.literal "", .any, .literal ""], false⟩ := rfl
  obtain ⟨-, htext, -, hwildcards⟩ := grammar_exact
  have hreaches := (hwildcards _ _ hparse).not.mp (by decide)
  rw [htext _ _ hparse] at hreaches
  push Not at hreaches
  exact ⟨hparse, htext _ _ hparse, hreaches⟩

end Filter

end CommandBus
