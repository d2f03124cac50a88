import CommandBus.Proofs.Cache.Linked
import CommandBus.Proofs.Cache.Runs
import Mathlib

namespace CommandBus.Cache.State

variable {s s' : State} {key k : EntryKey} {entry : Entry} {c : Correlation} {r : CommandRequest}
  {now : Nat}

/-- All but the touched entries stay as they are, or are evicted if they may be. -/
def Spares (s s' : State) (touched : EntryKey → Prop) : Prop :=
  ∀ key entry, s.entries.get? key = some entry → ¬ touched key →
    s'.entries.get? key = some entry ∨ entry.benefit ≠ none ∧ s'.entries.get? key = none

theorem spares_refl (s : State) (touched : EntryKey → Prop) : Spares s s touched :=
  fun _ _ hg _ => .inl hg

theorem get?_remove (s : State) (k key : EntryKey) :
    (s.remove k).entries.get? key = if key = k then none else s.entries.get? key := by
  cases hk : s.entries.get? k with
  | none =>
    rw [remove_of_none hk]
    split
    next heq => rw [heq, hk]
    next => rfl
  | some entry => rw [entries_remove hk, Slots.get?_remove]

theorem get?_trimFrom_of_none (queue : List (Benefit × EntryKey))
    (hn : s.entries.get? key = none) : (trimFrom queue s).entries.get? key = none := by
  induction queue generalizing s with
  | nil => exact hn
  | cons element rest ih =>
    obtain ⟨b, k⟩ := element
    unfold trimFrom
    split
    · refine ih ?_
      split
      · rw [get?_remove, hn, ite_self]
      · exact hn
    · exact hn

theorem spares_trimFrom (queue : List (Benefit × EntryKey)) (s : State) :
    Spares s (trimFrom queue s) fun _ => False := by
  induction queue generalizing s with
  | nil => exact fun _ _ hg _ => .inl hg
  | cons element rest ih =>
    obtain ⟨b, k⟩ := element
    intro key entry hg hf
    unfold trimFrom
    split
    next =>
      split
      next hb =>
        by_cases hk : key = k
        · subst hk
          refine .inr ⟨fun hn => by simp [hasBenefit, hg, hn] at hb, get?_trimFrom_of_none rest ?_⟩
          rw [get?_remove, if_pos rfl]
        · exact ih _ _ _ (by rw [get?_remove, if_neg hk, hg]) hf
      next => exact ih _ _ _ hg hf
    next => exact .inl hg

theorem spares_remove (s : State) (k : EntryKey) : Spares s (s.remove k) (· = k) := by
  intro key entry hg hk
  rw [get?_remove, if_neg hk]
  exact .inl hg

theorem Reserves.unique (h : s.Reserves c key) (h' : s.Reserves c k) : key = k :=
  Option.some_inj.mp (h.key?.symm.trans h'.key?)

theorem WellFormed.reserves_of_get? (h : s.WellFormed) (hg : s.entries.get? key = some entry)
    (hp : entry.isPending = true) : s.Reserves entry.correlation key :=
  ⟨h.key?_of_get? hg, entry, hg, hp⟩

theorem WellFormed.reserves_of_entry? (h : s.WellFormed) (he : s.entry? c = some (key, entry))
    (hp : entry.isPending = true) : s.Reserves c key := by
  obtain ⟨hg, rfl⟩ := h.entry?_eq_some.mp he
  exact h.reserves_of_get? hg hp

theorem WellFormed.store_of_not_reserves (h : s.WellFormed) (hn : ¬ ∃ k, s.Reserves r.correlation k)
    (now : Nat) (response : Message) (o : StoreOptions) : s.store now r response o = s := by
  refine store_of_not_pending (fun k entry he => ?_) now response o
  by_contra hp
  exact hn ⟨k, h.reserves_of_entry? he (by simpa using hp)⟩

theorem abandon_of_storeHalts {o : StoreOptions} (h : s.storeHalts now r o = true)
    (response : Message) :
    ((s.store now r response o).abandon r).2 = s.store now r response o := by
  rw [storeHalts] at h
  cases he : s.entry? r.correlation with
  | none => simp [he] at h
  | some found =>
    obtain ⟨key, entry⟩ := found
    simp only [he, Option.elim_some, Bool.and_eq_true] at h
    obtain ⟨requestBytes, responseBytes, hs⟩ := store_of_pending he h.1 now response o
    rw [if_pos h.2] at hs
    obtain ⟨_, hk, hm⟩ := Option.bind_eq_some_iff.mp he
    obtain ⟨_, hg, heq⟩ := Option.map_eq_some_iff.mp hm
    cases heq
    have hk' : (s.complete key response (requestBytes + responseBytes) o).key? r.correlation =
        some key := hk
    rw [hs, abandon, entry?, hk', Option.bind_some, get?_complete hg]
    rfl

theorem WellFormed.abandon_of_not_reserves (h : s.WellFormed)
    (hn : ¬ ∃ k, s.Reserves r.correlation k) : (s.abandon r).2 = s := by
  unfold abandon
  split
  next k entry he => rw [if_neg fun hp => hn ⟨k, h.reserves_of_entry? he hp⟩]
  next => rfl

theorem WellFormed.spares_store (h : s.WellFormed) (now : Nat) (r : CommandRequest)
    (response : Message) (o : StoreOptions) :
    Spares s (s.store now r response o) (s.Reserves r.correlation) := by
  by_cases hex : ∃ k, s.Reserves r.correlation k
  · obtain ⟨k, hk⟩ := hex
    obtain ⟨other, he, hp⟩ := hk.entry? h
    obtain ⟨ho, -⟩ := h.entry?_eq_some.mp he
    obtain ⟨requestBytes, responseBytes, hs⟩ := store_of_pending he hp now response o
    generalize requestBytes + responseBytes = size at hs
    intro key entry hg hn
    have hne : key ≠ k := fun hkey => hn (hkey ▸ hk)
    have hcomplete : (s.complete k response size o).entries.get? key = some entry :=
      ((h.changes_completed ho response size o).keeps hg hne).1
    rw [hs]
    split
    next => exact .inl hcomplete
    split
    next => exact spares_remove _ k _ _ hcomplete hne
    next first rest _ =>
      have hset : ((s.complete k response size o).setReuseEnd other.content k
          (reuseEnd now other o)).entries.get? k = _ := get?_complete ho response size o
      refine spares_trimFrom _ _ _ _ ?_ not_false
      rw [entries_schedule hset, Slots.get?_modify, if_neg hne]
      exact hcomplete
  · rw [h.store_of_not_reserves hex]
    exact spares_refl s _

theorem Reserves.abandon_eq (h : s.Reserves r.correlation key) (hs : s.WellFormed) :
    (s.abandon r).2 = s.remove key := by
  obtain ⟨entry, he, hp⟩ := h.entry? hs
  unfold State.abandon
  rw [he]
  dsimp only
  rw [if_pos hp]

theorem WellFormed.spares_abandon (h : s.WellFormed) (r : CommandRequest) :
    Spares s (s.abandon r).2 (s.Reserves r.correlation) := by
  by_cases hex : ∃ k, s.Reserves r.correlation k
  · obtain ⟨k, hk⟩ := hex
    rw [hk.abandon_eq h]
    intro key entry hg hn
    exact spares_remove s k key entry hg fun hkey => hn (hkey ▸ hk)
  · rw [h.abandon_of_not_reserves hex]
    exact spares_refl s _

theorem Reserves.promise_abandon (h : s.Reserves r.correlation key) (hs : s.WellFormed) :
    (s.abandon r).2.entries.get? key = none ∧ (s.abandon r).2.promise key.serial = .evicted := by
  rw [h.abandon_eq hs]
  obtain ⟨entry, hg, hp⟩ := h.exists_entry
  refine ⟨by rw [get?_remove, if_pos rfl], ?_⟩
  have hpromise : (s.remove key).promise key.serial =
      (s.settle key.serial .evicted).promise key.serial := by
    rw [State.promise, promises_remove hg, if_pos hp]
    rfl
  rw [hpromise, promise_settle _ _ _ _ (hs.serial_lt hg), if_pos ⟨rfl, h.promise hs⟩]

/-- Nothing but a response for its request and its abandonment ends the time an entry is pending. -/
theorem Reserves.apply_cases (h : s.Reserves c key) (hs : s.WellFormed) (operation : Operation) :
    (operation.apply s).Reserves c key ∨
      (∃ now r response o, operation = .store now r response o ∧ r.correlation = c ∧
        (operation.apply s).promise key.serial = .stored response) ∨
      ∃ r, operation = .abandon r ∧ r.correlation = c ∧
        (operation.apply s).entries.get? key = none ∧
        (operation.apply s).promise key.serial = .evicted := by
  cases operation with
  | retrieve now r cacheable acrossInvokers => exact .inl (h.retrieve hs r cacheable acrossInvokers)
  | store now r response o =>
    by_cases hr : r.correlation = c
    · subst hr
      exact .inr (.inl ⟨now, r, response, o, rfl, rfl, h.promise_store hs now response o⟩)
    · exact .inl (h.store hs (Ne.symm hr) response o)
  | abandon r =>
    by_cases hr : r.correlation = c
    · subst hr
      exact .inr (.inr ⟨r, rfl, rfl, h.promise_abandon hs⟩)
    · exact .inl (h.abandon hs (Ne.symm hr))
  | trim => exact .inl (h.changes hs hs.changes_trim fun _ hg _ hp => (hs.unscheduled hg hp).1)
  | expireOne now => exact .inl (h.expireOne hs)
  | nextDeadline => exact .inl (h.changes hs hs.changes_dropStale fun _ _ _ _ => trivial)
  | setConfig config => exact .inl (h.changes hs (hs.changes_config config) fun _ _ _ _ => trivial)

theorem WellFormed.changes_apply (h : s.WellFormed) (operation : Operation) :
    ∃ kept, Changes s (operation.apply s) kept := by
  cases operation with
  | retrieve now r cacheable acrossInvokers =>
    exact ⟨_, h.changes_retrieve now r cacheable acrossInvokers⟩
  | store now r response o => exact ⟨_, h.changes_store now r response o⟩
  | abandon r => exact ⟨_, h.changes_abandon r⟩
  | trim => exact ⟨_, h.changes_trim⟩
  | expireOne now => exact ⟨_, h.changes_expireOne now⟩
  | nextDeadline => exact ⟨_, h.changes_dropStale⟩
  | setConfig config => exact ⟨_, h.changes_config config⟩

end CommandBus.Cache.State
