import CommandBus.Text.Pieces
import Mathlib

namespace CommandBus.Text

theorem notMem_of_mem_pieces {sep : Char} {s piece : List Char}
    (h : piece ∈ pieces (· == sep) s) : sep ∉ piece := by
  induction s generalizing piece with
  | nil =>
    obtain rfl := List.mem_singleton.mp h
    exact List.not_mem_nil
  | cons c rest ih =>
    obtain ⟨first, more, hrest⟩ := List.exists_cons_of_ne_nil (pieces_ne_nil (· == sep) rest)
    rw [hrest] at ih
    simp only [pieces, hrest] at h
    by_cases hc : c = sep
    · rw [if_pos (beq_iff_eq.mpr hc)] at h
      obtain rfl | h := List.mem_cons.mp h
      · exact List.not_mem_nil
      · exact ih h
    · rw [if_neg (by simpa using hc)] at h
      obtain rfl | h := List.mem_cons.mp h
      · rw [List.mem_cons, not_or]
        exact ⟨Ne.symm hc, ih List.mem_cons_self⟩
      · exact ih (List.mem_cons_of_mem first h)

theorem pieces_of_forall {isSep : Char → Bool} {piece : List Char}
    (h : ∀ c ∈ piece, isSep c = false) : pieces isSep piece = [piece] := by
  induction piece with
  | nil => rfl
  | cons c rest ih =>
    obtain ⟨hc, hrest⟩ := List.forall_mem_cons.mp h
    simp [pieces, hc, ih hrest]

theorem pieces_append (isSep : Char → Bool) {sep : Char} (hsep : isSep sep = true)
    (s rest : List Char) : pieces isSep (s ++ sep :: rest) = pieces isSep s ++ pieces isSep rest := by
  induction s with
  | nil => simp [pieces, hsep]
  | cons c more ih =>
    obtain ⟨first, others, h⟩ := List.exists_cons_of_ne_nil (pieces_ne_nil isSep more)
    rw [List.cons_append, pieces, pieces, ih, h]
    cases isSep c <;> rfl

theorem pieces_join {sep : Char} {ps : List (List Char)} (hne : ps ≠ [])
    (h : ∀ piece ∈ ps, sep ∉ piece) : pieces (· == sep) (join sep ps) = ps := by
  induction ps with
  | nil => exact absurd rfl hne
  | cons piece more ih =>
    have hfirst : ∀ c ∈ piece, (c == sep) = false := fun c hc =>
      beq_false_of_ne fun heq => h piece List.mem_cons_self (heq ▸ hc)
    cases more with
    | nil => exact pieces_of_forall hfirst
    | cons next more =>
      have hrest := ih (by simp) fun p hp => h p (List.mem_cons_of_mem _ hp)
      rw [join, pieces_append (· == sep) (beq_self_eq_true sep), pieces_of_forall hfirst, hrest]
      · rfl
      · simp

theorem mem_join {sep c : Char} {ps : List (List Char)} (h : c ∈ join sep ps) :
    c = sep ∨ ∃ piece ∈ ps, c ∈ piece := by
  induction ps with
  | nil => cases h
  | cons piece more ih =>
    cases more with
    | nil => exact .inr ⟨piece, List.mem_cons_self, h⟩
    | cons next more =>
      simp only [join, List.mem_append, List.mem_cons] at h
      obtain h | h | h := h
      · exact .inr ⟨piece, List.mem_cons_self, h⟩
      · exact .inl h
      · obtain h | ⟨p, hp, hc⟩ := ih h
        · exact .inl h
        · exact .inr ⟨p, List.mem_cons_of_mem _ hp, hc⟩

variable {s level : String} {ls : List String}

theorem levels_ne_nil (s : String) : levels s ≠ [] := fun h =>
  pieces_ne_nil (· == '/') s.toList (List.map_eq_nil_iff.mp h)

theorem notMem_of_mem_levels (h : level ∈ levels s) : '/' ∉ level.toList := by
  obtain ⟨piece, hp, rfl⟩ := List.mem_map.mp h
  rw [String.toList_ofList]
  exact notMem_of_mem_pieces hp

@[simp]
theorem joinLevels_levels (s : String) : joinLevels (levels s) = s := by
  have hpieces : (levels s).map String.toList = pieces (· == '/') s.toList := by
    rw [levels, List.map_map]
    simp
  rw [joinLevels, hpieces, join_pieces, String.ofList_toList]

theorem levels_joinLevels (hne : ls ≠ []) (h : ∀ l ∈ ls, '/' ∉ l.toList) :
    levels (joinLevels ls) = ls := by
  have hpieces : pieces (· == '/') (join '/' (ls.map String.toList)) = ls.map String.toList := by
    refine pieces_join (by simpa using hne) fun piece hp => ?_
    obtain ⟨l, hl, rfl⟩ := List.mem_map.mp hp
    exact h l hl
  unfold levels joinLevels
  rw [String.toList_ofList, hpieces, List.map_map]
  simp

theorem mem_joinLevels {c : Char} (h : c ∈ (joinLevels ls).toList) :
    c = '/' ∨ ∃ l ∈ ls, c ∈ l.toList := by
  rw [joinLevels, String.toList_ofList] at h
  obtain h | ⟨piece, hp, hc⟩ := mem_join h
  · exact .inl h
  · obtain ⟨l, hl, rfl⟩ := List.mem_map.mp hp
    exact .inr ⟨l, hl, hc⟩

theorem head?_joinLevels {first : String} (hf : first.toList ≠ []) (rest : List String) :
    (joinLevels (first :: rest)).toList.head? = first.toList.head? := by
  obtain ⟨c, more, hc⟩ := List.exists_cons_of_ne_nil hf
  unfold joinLevels
  rw [String.toList_ofList, List.map_cons, hc]
  cases rest <;> rfl

end CommandBus.Text
