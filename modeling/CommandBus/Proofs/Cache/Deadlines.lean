import CommandBus.Proofs.Cache.Schedules
import Mathlib

namespace CommandBus.Cache

def Entry.lastEnd (entry : Entry) : Nat :=
  entry.deferred.elim (entry.expiry.elim 0 (·.2)) (·.endsAt)

/-- The later end of the windows that lie ahead when the response to an entry is stored. -/
def laterEnd? (now : Nat) (entry : Entry) (o : StoreOptions) : Option Nat :=
  ([o.expiresAt, State.reuseEnd now entry o].filter (now < ·)).max?

namespace State

variable {s : State} {key : EntryKey} {entry : Entry} {now : Nat}

theorem laterEnd?_of_windows {requestBytes responseBytes : Nat} {o : StoreOptions}
    {first : Retention} {rest : List Retention}
    (h : s.windows now requestBytes responseBytes (reuseEnd now entry o) o = first :: rest) :
    laterEnd? now entry o = some (rest.head?.elim first.endsAt (·.endsAt)) := by
  unfold laterEnd?
  generalize reuseEnd now entry o = reuseUntil at h ⊢
  unfold windows at h
  dsimp only at h
  by_cases hd : now < o.expiresAt <;> by_cases hr : now < reuseUntil <;>
    by_cases hlt : reuseUntil < o.expiresAt <;> simp [hd, hr, hlt] at h <;>
    obtain ⟨rfl, rfl⟩ := h <;> simp [hd, hr, List.max?] <;> omega

/-- The deadline of the entry of a key, if the operation stores its response. -/
def stores (key : EntryKey) (s : State) : Operation → Option Nat
  | .store now r _ o => (s.entry? r.correlation).bind fun (k, entry) =>
    if k = key ∧ entry.isPending = true then laterEnd? now entry o else none
  | _ => none

def deadline? (s : State) (operations : List Operation) (key : EntryKey) : Option Nat :=
  firstOf (stores key) s operations

theorem stores_eq_some {operation : Operation} {time : Nat}
    (h : stores key s operation = some time) : ∃ now r response o entry,
      operation = .store now r response o ∧ s.entry? r.correlation = some (key, entry) ∧
      entry.isPending = true := by
  cases operation with
  | store now r response o =>
    obtain ⟨⟨k, entry⟩, he, hif⟩ := Option.bind_eq_some_iff.mp h
    obtain ⟨⟨rfl, hp⟩, -⟩ := Option.ite_none_right_eq_some.mp hif
    exact ⟨now, r, response, o, entry, rfl, he, hp⟩
  | retrieve | abandon | trim | expireOne | nextDeadline | setConfig => cases h

theorem stores_of_pending {r : CommandRequest} {response : Message} {o : StoreOptions}
    (he : s.entry? r.correlation = some (key, entry)) (hp : entry.isPending = true) :
    stores key s (.store now r response o) = laterEnd? now entry o := by
  rw [stores, he]
  exact if_pos ⟨rfl, hp⟩

/-- Nothing has been told of an entry while it is pending. Once it is scheduled it is its last end,
and if there is no instant at which its reuse would end, a time after all instants. -/
structure EndsAsTold (key : EntryKey) (s : State) (told : Option Nat) : Prop where
  serial_lt : told.isSome = true → key.serial < s.promises.length
  pending : ∀ {entry}, s.entries.get? key = some entry → entry.isPending = true → told = none
  scheduled : ∀ {entry}, s.entries.get? key = some entry → entry.expiry ≠ none →
    told = some entry.lastEnd
  stranded : ∀ {entry}, s.entries.get? key = some entry → entry.IsStranded →
    ∃ time, told = some time ∧ lastInstant < time

theorem lt_laterEnd?_of_overruns {o : StoreOptions} (hover : o.overruns now entry = true) :
    ∃ time, laterEnd? now entry o = some time ∧ lastInstant < time := by
  obtain ⟨hlt, hnow⟩ := lt_reuseEnd_of_overruns hover
  have hm : reuseEnd now entry o ∈ [o.expiresAt, reuseEnd now entry o].filter (now < ·) := by
    simpa using hnow
  obtain ⟨time, ht⟩ := Option.ne_none_iff_exists'.mp
    (mt List.max?_eq_none_iff.mp (List.ne_nil_of_mem hm))
  exact ⟨time, ht, hlt.trans_le ((List.max?_eq_some_iff.mp ht).2 _ hm)⟩

theorem EndsAsTold.apply (hs : s.WellFormed) {told : Option Nat} (operation : Operation)
    (h : EndsAsTold key s told) :
    EndsAsTold key (operation.apply s) (told.or (stores key s operation)) := by
  obtain ⟨kept, hc⟩ := hs.changes_apply operation
  refine ⟨fun hsome => ?_, fun {entry} hg hp => ?_, fun {entry} hg hx => ?_,
    fun {entry} hg hst => ?_⟩
  · obtain hsome | hsome : told.isSome = true ∨ (stores key s operation).isSome = true := by
      simpa using hsome
    · exact (h.serial_lt hsome).trans_le hc.length_le
    · obtain ⟨time, ht⟩ := Option.isSome_iff_exists.mp hsome
      obtain ⟨-, r, -, -, entry, -, he, -⟩ := stores_eq_some ht
      exact (hs.serial_lt (hs.entry?_eq_some.mp he).1).trans_le hc.length_le
  · refine Option.or_eq_none_iff.mpr ⟨?_, ?_⟩
    · cases hs.arises hg with
      | kept ho => exact h.pending ho hp
      | registered =>
        by_contra hne
        exact (h.serial_lt (Option.isSome_iff_ne_none.mpr hne)).ne hs.serial_nextKey
      | completed => cases hp
      | stranded => cases hp
      | @moved _ _ _ old _ _ _ hstored =>
        have hp : old.isPending = true := hp
        rw [hstored] at hp
        cases hp
    · -- a response that is stored would not leave the promise pending
      by_contra hne
      obtain ⟨time, ht⟩ := Option.ne_none_iff_exists'.mp hne
      obtain ⟨now, r, response, o, other, rfl, he, hpending⟩ := stores_eq_some ht
      have hpromise := (hs.reserves_of_entry? he hpending).promise_store hs now response o
      exact Promise.noConfusion (hpromise.symm.trans ((hc.wellFormed.isPending_iff hg).mp hp))
  · cases hs.arises hg with
    | kept ho => rw [h.scheduled ho hx, Option.some_or]
    | registered => exact absurd rfl hx
    | stranded he hp => exact absurd (hs.unscheduled (hs.entry?_eq_some.mp he).1 hp).2 hx
    | @completed now r response o _ old _ _ first rest he hpending _ hw =>
      rw [h.pending (hs.entry?_eq_some.mp he).1 hpending, Option.none_or,
        stores_of_pending he hpending, laterEnd?_of_windows hw]
      rfl
    | @moved now _ _ old _ next ho _ hold _ hd =>
      have hlast : old.lastEnd = next.endsAt := by rw [Entry.lastEnd, hd, Option.elim_some]
      rw [h.scheduled ho (hold ▸ nofun), Option.some_or, hlast]
      rfl
  · cases hs.arises hg with
    | kept ho =>
      obtain ⟨time, rfl, hlt⟩ := h.stranded ho hst
      exact ⟨time, Option.some_or, hlt⟩
    | registered => cases hst.1
    | completed => cases hst.2
    | stranded he hpending hover =>
      rw [h.pending (hs.entry?_eq_some.mp he).1 hpending, Option.none_or,
        stores_of_pending he hpending]
      exact lt_laterEnd?_of_overruns hover
    | moved => cases hst.2

end State

end CommandBus.Cache
