import CommandBus.Proofs.Cache.Handles
import Mathlib

namespace CommandBus.Cache.State

variable {s s' : State} {c b : Correlation} {key : EntryKey} {now : Nat} {r : CommandRequest}

theorem Changes.reserves_of_length_eq {kept : EntryKey → Entry → Prop} (h : Changes s s' kept)
    (hs : s.WellFormed) (hl : s'.promises.length = s.promises.length)
    (hr : s'.Reserves c key) : s.Reserves c key := by
  obtain ⟨entry, hg, -⟩ := hr.exists_entry
  have hlt := h.wellFormed.serial_lt hg
  rw [hl] at hlt
  exact h.reserves_of hs hr hlt

theorem Changes.reserves_of_pending {kept : EntryKey → Entry → Prop} (h : Changes s s' kept)
    (hs : s.WellFormed) (hr : s.Reserves c key) (hp : s'.promise key.serial = .pending) :
    s'.Reserves c key := by
  have hk := h.key?_of_pending hs hr.key? hp
  obtain ⟨entry, hg, -⟩ := (h.wellFormed.key?_iff c key).mp hk
  exact ⟨hk, entry, hg, (h.wellFormed.isPending_iff hg).mpr hp⟩

theorem WellFormed.reserves_of_register (h : s.WellFormed) {content : Option Content}
    (hn : s.key? b = none) (hr : (s.register b content).Reserves c key) :
    s.Reserves c key ∨ c = b := by
  have hc := h.changes_register hn content
  by_cases hlt : key.serial < s.promises.length
  · exact .inl (hc.reserves_of h hr hlt)
  · right
    have hk := hr.key?
    rw [key?_register] at hk
    obtain hk | ⟨-, hk⟩ := Option.or_eq_some_iff.mp hk
    · obtain ⟨entry, hg, -⟩ := (h.key?_iff c key).mp hk
      exact absurd (h.serial_lt hg) hlt
    · by_contra hne
      rw [if_neg hne] at hk
      cases hk

theorem WellFormed.reserves_of_store (h : s.WellFormed) {response : Message} {o : StoreOptions}
    (hr : (s.store now r response o).Reserves c key) :
    s.Reserves c key ∧ c ≠ r.correlation := by
  have hc := h.changes_store now r response o
  have hold := hc.reserves_of_length_eq h (h.store_keeps now r response o).1 hr
  refine ⟨hold, ?_⟩
  rintro rfl
  have hpending := hr.promise hc.wellFormed
  rw [hold.promise_store h now response o] at hpending
  cases hpending

theorem WellFormed.reserves_of_abandon (h : s.WellFormed)
    (hr : (s.abandon r).2.Reserves c key) : s.Reserves c key ∧ c ≠ r.correlation := by
  have hc := h.changes_abandon r
  have hold := hc.reserves_of_length_eq h (keeps_abandon s r).length_eq hr
  refine ⟨hold, ?_⟩
  rintro rfl
  have hpending := hr.promise hc.wellFormed
  rw [(hold.promise_abandon h).2] at hpending
  cases hpending

theorem WellFormed.reserves_of_expireOne (h : s.WellFormed)
    (hr : (s.expireOne now).2.Reserves c key) : s.Reserves c key :=
  (h.changes_expireOne now).reserves_of_length_eq h (h.keeps_expireOne now).length_eq hr

theorem Answerable.register (h : s.Answerable) (hs : s.WellFormed) (b : Correlation)
    (content : Option Content) : (s.register b content).Answerable := by
  intro key entry hg
  rw [promise_register]
  split
  · exact nofun
  next hne =>
    rw [hs.get?_register] at hg
    split at hg
    next hkey => exact absurd (hkey ▸ hs.serial_nextKey) hne
    next => exact h key entry hg

end CommandBus.Cache.State
