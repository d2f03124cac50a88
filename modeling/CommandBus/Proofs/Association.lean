import Mathlib

namespace CommandBus.Association

variable {α β : Type} [BEq α] [LawfulBEq α]

theorem lookup_filter_ne [DecidableEq α] (entries : List (α × β)) (dropped a : α) :
    (entries.filter (·.1 != dropped)).lookup a =
      if a = dropped then none else entries.lookup a := by
  induction entries with
  | nil => simp
  | cons entry rest ih =>
    obtain ⟨b, value⟩ := entry
    by_cases hb : b = dropped
    · subst hb
      by_cases ha : a = b
      · simpa [ha] using ih
      · simpa [ha, List.lookup_cons, beq_false_of_ne ha] using ih
    · by_cases ha : a = b
      · subst ha
        simp [hb]
      · simpa [hb, List.lookup_cons, beq_false_of_ne ha] using ih

theorem lookup_map_value (entries : List (α × β)) (f : α → β → β) (a : α) :
    (entries.map fun entry => (entry.1, f entry.1 entry.2)).lookup a =
      (entries.lookup a).map (f a) := by
  induction entries with
  | nil => rfl
  | cons entry rest ih =>
    obtain ⟨b, value⟩ := entry
    by_cases ha : a = b
    · subst ha
      simp
    · simpa [List.lookup_cons, beq_false_of_ne ha] using ih

theorem notMem_keys_of_lookup {entries : List (α × β)} {a : α} (h : entries.lookup a = none) :
    a ∉ entries.map Prod.fst := by
  intro hm
  obtain ⟨entry, he, rfl⟩ := List.mem_map.mp hm
  simpa using List.lookup_eq_none_iff.mp h entry he

theorem filter_ne_of_notMem [DecidableEq α] {entries : List (α × β)} {a : α}
    (h : a ∉ entries.map Prod.fst) : entries.filter (·.1 != a) = entries :=
  List.filter_eq_self.mpr fun _ he =>
    bne_iff_ne.mpr fun hk => h (hk ▸ List.mem_map_of_mem he)

theorem mem_of_lookup {entries : List (α × β)} {a : α} {b : β} (h : entries.lookup a = some b) :
    (a, b) ∈ entries := by
  obtain ⟨before, after, rfl, -⟩ := List.lookup_eq_some_iff.mp h
  exact List.mem_append_cons_self

theorem lookup_of_mem {entries : List (α × β)} {a : α} {b : β}
    (hn : (entries.map Prod.fst).Nodup) (h : (a, b) ∈ entries) :
    entries.lookup a = some b := by
  induction entries with
  | nil => cases h
  | cons entry rest ih =>
    obtain ⟨hk, hrest⟩ := List.nodup_cons.mp hn
    obtain rfl | h := List.mem_cons.mp h
    · simp
    · have hne : a ≠ entry.1 := fun heq => hk (heq ▸ List.mem_map_of_mem h)
      rw [List.lookup_cons, beq_false_of_ne hne]
      exact ih hrest h

theorem lookup_of_forall₂ {entries entries' : List (α × β)} {R : α × β → α × β → Prop}
    (h : List.Forall₂ R entries entries') (hkey : ∀ e e', R e e' → e'.1 = e.1) {a : α} {b : β}
    (hb : entries.lookup a = some b) : ∃ b', entries'.lookup a = some b' ∧ R (a, b) (a, b') := by
  induction h with
  | nil => cases hb
  | @cons e e' rest rest' he _ ih =>
    obtain ⟨k, value⟩ := e
    obtain ⟨k', value'⟩ := e'
    obtain rfl : k' = k := hkey _ _ he
    rw [List.lookup_cons] at hb ⊢
    split at hb
    next hk =>
      obtain rfl := eq_of_beq hk
      obtain rfl := Option.some.inj hb
      exact ⟨value', rfl, he⟩
    next => exact ih hb

variable [DecidableEq α] {entries : List (α × β)} {a : α} {b : β}

theorem sum_filter_ne (hn : (entries.map Prod.fst).Nodup) (hb : entries.lookup a = some b)
    (g : β → Nat) :
    ((entries.filter (·.1 != a)).map fun entry => g entry.2).sum + g b =
      (entries.map fun entry => g entry.2).sum := by
  induction entries with
  | nil => cases hb
  | cons entry rest ih =>
    obtain ⟨k, value⟩ := entry
    obtain ⟨hk, hrest⟩ := List.nodup_cons.mp hn
    by_cases ha : a = k
    · subst ha
      obtain rfl : value = b := by simpa using hb
      have hf : ((a, value) :: rest).filter (·.1 != a) = rest := by
        simpa using filter_ne_of_notMem hk
      rw [hf, List.map_cons, List.sum_cons, Nat.add_comm]
    · have hb' : rest.lookup a = some b := by
        rwa [List.lookup_cons, beq_false_of_ne ha] at hb
      have hf : ((k, value) :: rest).filter (·.1 != a) = (k, value) :: rest.filter (·.1 != a) := by
        simp [Ne.symm ha]
      rw [hf, List.map_cons, List.map_cons, List.sum_cons, List.sum_cons, Nat.add_assoc,
        ih hrest hb']

theorem sum_map_value (hn : (entries.map Prod.fst).Nodup) (hb : entries.lookup a = some b)
    (f : β → β) (g : β → Nat) :
    ((entries.map fun entry => (entry.1, if entry.1 = a then f entry.2 else entry.2)).map
        fun entry => g entry.2).sum + g b =
      (entries.map fun entry => g entry.2).sum + g (f b) := by
  induction entries with
  | nil => cases hb
  | cons entry rest ih =>
    obtain ⟨k, value⟩ := entry
    obtain ⟨hk, hrest⟩ := List.nodup_cons.mp hn
    by_cases ha : a = k
    · subst ha
      obtain rfl : value = b := by simpa using hb
      have hsame : (rest.map fun entry => (entry.1, if entry.1 = a then f entry.2 else entry.2)) =
          rest := by
        refine (List.map_congr_left fun entry he => ?_).trans (List.map_id rest)
        have hne : entry.1 ≠ a := fun hc => hk (List.mem_map.mpr ⟨entry, he, hc⟩)
        rw [if_neg hne]
        rfl
      simp only [List.map_cons, List.sum_cons, hsame, if_true]
      omega
    · have hb' : rest.lookup a = some b := by
        rwa [List.lookup_cons, beq_false_of_ne ha] at hb
      have := ih hrest hb'
      simp only [List.map_cons, List.sum_cons, if_neg (Ne.symm ha)]
      omega

end CommandBus.Association
