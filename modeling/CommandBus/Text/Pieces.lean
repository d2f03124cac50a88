namespace CommandBus.Text

/-- The pieces between the characters that satisfy `isSep`; there is always at least one. -/
def pieces (isSep : Char → Bool) : List Char → List (List Char)
  | [] => [[]]
  | c :: rest =>
    if isSep c then [] :: pieces isSep rest
    else match pieces isSep rest with
      | [] => [[c]]
      | first :: more => (c :: first) :: more

def join (sep : Char) : List (List Char) → List Char
  | [] => []
  | [piece] => piece
  | piece :: more => piece ++ sep :: join sep more

theorem pieces_ne_nil (isSep : Char → Bool) (s : List Char) : pieces isSep s ≠ [] := by
  cases s with
  | nil => simp [pieces]
  | cons c rest =>
    simp only [pieces]
    split
    · simp
    · split <;> simp

theorem join_pieces (sep : Char) (s : List Char) : join sep (pieces (· == sep) s) = s := by
  induction s with
  | nil => rfl
  | cons c rest ih =>
    simp only [pieces]
    obtain ⟨first, more, h⟩ := List.exists_cons_of_ne_nil (pieces_ne_nil (· == sep) rest)
    rw [h] at ih ⊢
    by_cases hc : c = sep
    · subst hc
      simp only [BEq.rfl, if_true]
      rw [join, List.nil_append, ih]
      simp
    · simp only [beq_iff_eq, hc, if_false]
      cases more with
      | nil => simpa [join] using ih
      | cons next more => simpa [join] using ih

/-- The text before the first `sep` and the text after it, if there is one. -/
def splitOnce (sep : Char) : List Char → Option (List Char × List Char)
  | [] => none
  | c :: rest =>
    if c = sep then some ([], rest)
    else (splitOnce sep rest).map fun (before, after) => (c :: before, after)

theorem splitOnce_append {sep : Char} {before : List Char} (h : sep ∉ before) (after : List Char) :
    splitOnce sep (before ++ sep :: after) = some (before, after) := by
  induction before with
  | nil => simp [splitOnce]
  | cons c rest ih =>
    rw [List.mem_cons, not_or] at h
    simp [splitOnce, ih h.2, Ne.symm h.1]

theorem splitOnce_eq_some_iff {sep : Char} {s before after : List Char} :
    splitOnce sep s = some (before, after) ↔ sep ∉ before ∧ s = before ++ sep :: after := by
  constructor
  · intro h
    induction s generalizing before with
    | nil => cases h
    | cons c rest ih =>
      rw [splitOnce] at h
      split at h
      next hc =>
        cases h
        exact ⟨List.not_mem_nil, hc ▸ rfl⟩
      next hc =>
        obtain ⟨⟨first, after⟩, hrest, heq⟩ := Option.map_eq_some_iff.mp h
        cases heq
        obtain ⟨hnot, rfl⟩ := ih hrest
        exact ⟨List.not_mem_cons_of_ne_of_not_mem (Ne.symm hc) hnot, rfl⟩
  · rintro ⟨h, rfl⟩
    exact splitOnce_append h after

/-- The levels of a topic: the pieces between slashes, the empty ones included. -/
def levels (s : String) : List String :=
  (pieces (· == '/') s.toList).map String.ofList

def joinLevels (ls : List String) : String :=
  String.ofList (join '/' (ls.map String.toList))

end CommandBus.Text
