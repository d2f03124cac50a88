import CommandBus.Text.Blank
import CommandBus.Proofs.Text.Levels
import Mathlib

namespace CommandBus.Text

def IsWord (w : List Char) : Prop :=
  w ≠ [] ∧ ∀ c ∈ w, isBlank c = false

/-- A text with its words in their order: each is followed by something blank or ends the text. -/
inductive HasWords : List Char → List (List Char) → Prop
  | nil : HasWords [] []
  | blank {c : Char} {s : List Char} {ws : List (List Char)} (hc : isBlank c = true)
      (h : HasWords s ws) : HasWords (c :: s) ws
  | last {w : List Char} (hw : IsWord w) : HasWords w [w]
  | word {w s : List Char} {c : Char} {ws : List (List Char)} (hw : IsWord w)
      (hc : isBlank c = true) (h : HasWords s ws) : HasWords (w ++ c :: s) (w :: ws)

variable {s : List Char} {ws : List (List Char)}

theorem words_append {c : Char} (hc : isBlank c = true) (s rest : List Char) :
    words (s ++ c :: rest) = words s ++ words rest := by
  rw [words, pieces_append isBlank hc, List.filter_append]
  rfl

theorem words_of_isWord {w : List Char} (h : IsWord w) : words w = [w] := by
  simp [words, pieces_of_forall h.2, h.1]

theorem IsWord.cons {c : Char} {w : List Char} (hc : isBlank c = false)
    (h : ∀ c ∈ w, isBlank c = false) : IsWord (c :: w) :=
  ⟨List.cons_ne_nil c w, List.forall_mem_cons.mpr ⟨hc, h⟩⟩

theorem IsWord.singleton {c : Char} (hc : isBlank c = false) : IsWord [c] :=
  .cons hc fun _ h => absurd h List.not_mem_nil

theorem exists_hasWords (s : List Char) : ∃ ws, HasWords s ws := by
  induction s with
  | nil => exact ⟨[], .nil⟩
  | cons c s ih =>
    obtain ⟨ws, h⟩ := ih
    cases hc : isBlank c with
    | true => exact ⟨ws, .blank hc h⟩
    | false =>
      cases h with
      | nil => exact ⟨_, .last (.singleton hc)⟩
      | blank hb h => exact ⟨_, .word (.singleton hc) hb h⟩
      | last hw => exact ⟨_, .last (.cons hc hw.2)⟩
      | word hw hb h => exact ⟨_, .word (.cons hc hw.2) hb h⟩

theorem words_eq_of_hasWords (h : HasWords s ws) : words s = ws := by
  induction h with
  | nil => rfl
  | @blank c s ws hc _ ih => exact (words_append hc [] s).trans ih
  | last hw => exact words_of_isWord hw
  | word hw hc _ ih => rw [words_append hc, words_of_isWord hw, ih, List.singleton_append]

theorem words_eq_iff : words s = ws ↔ HasWords s ws := by
  refine ⟨?_, words_eq_of_hasWords⟩
  rintro rfl
  obtain ⟨ws, h⟩ := exists_hasWords s
  rwa [words_eq_of_hasWords h]

theorem hasWords_intercalate {c : Char} (hc : isBlank c = true) (h : ∀ w ∈ ws, IsWord w) :
    HasWords (List.intercalate [c] ws) ws := by
  induction ws with
  | nil => exact .nil
  | cons w rest ih =>
    obtain ⟨hw, hrest⟩ := List.forall_mem_cons.mp h
    cases rest with
    | nil => exact List.intercalate_singleton.symm ▸ .last hw
    | cons next rest =>
      rw [List.intercalate_cons_cons, List.append_assoc]
      exact .word hw hc (ih hrest)

end CommandBus.Text
