import CommandBus.Proofs.Cache.Operations
import Mathlib

namespace CommandBus.Cache.State

variable {s s' : State} {key : EntryKey} {entry : Entry} {c : Correlation} {response : Message}
  {deadline now : Nat} {kept : EntryKey → Entry → Prop}

structure Reserves (s : State) (c : Correlation) (key : EntryKey) : Prop where
  key? : s.key? c = some key
  exists_entry : ∃ entry, s.entries.get? key = some entry ∧ entry.isPending = true

/-- The response to the request with this correlation is stored and not to be evicted. If it is
scheduled, then for no time before the deadline, unless to go on to a window for duplicates. -/
structure Retains (s : State) (c : Correlation) (key : EntryKey) (response : Message)
    (deadline : Nat) : Prop where
  key? : s.key? c = some key
  promise : s.promise key.serial = .stored response
  exists_entry : ∃ entry, s.entries.get? key = some entry ∧ entry.isPending = false ∧
    entry.isMandatory = true ∧ entry.benefit = none ∧
    ∀ {window time}, entry.expiry = some (window, time) →
      deadline ≤ time ∨ ∃ d, entry.deferred = some d ∧ d.window = .dedup ∧ deadline ≤ d.endsAt

namespace Reserves

theorem promise (h : s.Reserves c key) (hs : s.WellFormed) :
    s.promise key.serial = .pending := by
  obtain ⟨entry, hg, hp⟩ := h.exists_entry
  exact (hs.isPending_iff hg).mp hp

theorem changes (h : s.Reserves c key) (hs : s.WellFormed) (hc : Changes s s' kept)
    (hk : ∀ entry, s.entries.get? key = some entry → entry.correlation = c →
      entry.isPending = true → kept key entry) : s'.Reserves c key := by
  obtain ⟨entry, hg, hp⟩ := h.exists_entry
  obtain ⟨entry', hg', he⟩ := (hs.key?_iff c key).mp h.key?
  rw [hg, Option.some_inj] at hg'
  subst hg'
  have hkept := hk entry hg he hp
  exact ⟨hc.key?_eq hs hg hkept h.key?, entry, (hc.keeps hg hkept).1, hp⟩

theorem retrieve (h : s.Reserves c key) (hs : s.WellFormed) (r : CommandRequest)
    (cacheable acrossInvokers : Bool) :
    (s.retrieve now r cacheable acrossInvokers).2.Reserves c key :=
  h.changes hs (hs.changes_retrieve now r cacheable acrossInvokers) fun _ _ _ _ => trivial

theorem expireOne (h : s.Reserves c key) (hs : s.WellFormed) :
    (s.expireOne now).2.Reserves c key :=
  h.changes hs (hs.changes_expireOne now) fun _ _ _ hp => hp

theorem store (h : s.Reserves c key) (hs : s.WellFormed) {r : CommandRequest}
    (hne : c ≠ r.correlation) (response : Message) (o : StoreOptions) :
    (s.store now r response o).Reserves c key :=
  h.changes hs (hs.changes_store now r response o) fun _ hg he hp =>
    ⟨fun hc => absurd (he.symm.trans hc) hne, (hs.unscheduled hg hp).1⟩

theorem abandon (h : s.Reserves c key) (hs : s.WellFormed) {r : CommandRequest}
    (hne : c ≠ r.correlation) : (s.abandon r).2.Reserves c key :=
  h.changes hs (hs.changes_abandon r) fun _ _ he _ hc => absurd (he.symm.trans hc) hne

end Reserves

theorem WellFormed.reserves_register (h : s.WellFormed) (hn : s.key? c = none)
    (content : Option Content) : (s.register c content).Reserves c s.nextKey where
  key? := by
    rw [key?_register, hn, Option.none_or, if_pos rfl]
  exists_entry := ⟨_, by rw [h.get?_register, if_pos rfl], rfl⟩

namespace Retains

theorem changes (h : s.Retains c key response deadline) (hs : s.WellFormed)
    (hc : Changes s s' kept)
    (hk : ∀ entry, s.entries.get? key = some entry → entry.isPending = false →
      entry.benefit = none → kept key entry) : s'.Retains c key response deadline := by
  obtain ⟨entry, hg, hp, hm, hb, hx⟩ := h.exists_entry
  have hkept := hk entry hg hp hb
  obtain ⟨hg', hpromise⟩ := hc.keeps hg hkept
  exact ⟨hc.key?_eq hs hg hkept h.key?, hpromise.trans h.promise, entry, hg', hp, hm, hb, hx⟩

theorem retrieve (h : s.Retains c key response deadline) (hs : s.WellFormed) (r : CommandRequest)
    (cacheable acrossInvokers : Bool) :
    (s.retrieve now r cacheable acrossInvokers).2.Retains c key response deadline :=
  h.changes hs (hs.changes_retrieve now r cacheable acrossInvokers) fun _ _ _ _ => trivial

theorem store (h : s.Retains c key response deadline) (hs : s.WellFormed) (r : CommandRequest)
    (other : Message) (o : StoreOptions) :
    (s.store now r other o).Retains c key response deadline :=
  h.changes hs (hs.changes_store now r other o) fun _ _ hp hb => ⟨fun _ => hp, hb⟩

theorem abandon (h : s.Retains c key response deadline) (hs : s.WellFormed) (r : CommandRequest) :
    (s.abandon r).2.Retains c key response deadline :=
  h.changes hs (hs.changes_abandon r) fun _ _ hp _ _ => hp

end Retains

theorem canEvict_of_dedup {first : Retention} {deferred : Option Retention}
    (hm : entry.isMandatory = true)
    (hd : first.window = .dedup ∨ ∃ d, deferred = some d ∧ d.window = .dedup) :
    canEvict entry first deferred = false := by
  obtain hd | ⟨d, rfl, hd⟩ := hd <;> simp [canEvict, hm, hd]

theorem WellFormed.retains_schedule (h : s.WellFormed)
    (hg : s.entries.get? key = some entry) (hp : entry.isPending = false)
    (hm : entry.isMandatory = true) (hpromise : s.promise key.serial = .stored response)
    {first : Retention} {deferred : Option Retention}
    (hd : first.window = .dedup ∧ deadline ≤ first.endsAt ∨
      ∃ d, deferred = some d ∧ d.window = .dedup ∧ deadline ≤ d.endsAt) :
    (s.schedule key first deferred).trim.Retains entry.correlation key response deadline := by
  have hsc := h.changes_schedule (fun he => by
    rw [hg, Option.some_inj] at he
    exact he ▸ hp) first deferred
  have hget := get?_schedule hg first deferred
  have hb : (scheduled first deferred entry).benefit = none := by
    have hd' : first.window = .dedup ∨ ∃ d, deferred = some d ∧ d.window = .dedup :=
      hd.imp And.left fun ⟨d, hdd, hdw, _⟩ => ⟨d, hdd, hdw⟩
    simp [scheduled, canEvict_of_dedup hm hd']
  have hr : (s.schedule key first deferred).Retains entry.correlation key response deadline := by
    have hk : (s.schedule key first deferred).key? entry.correlation = some key :=
      (hsc.wellFormed.key?_iff _ _).mpr ⟨_, hget, rfl⟩
    refine ⟨hk, ?_, _, hget, hp, hm, hb, fun {_ _} hx => ?_⟩
    · rw [hsc.promise_eq (h.serial_lt hg) (by rw [hpromise]; simp), hpromise]
    · cases hx
      exact hd.imp And.right id
  exact hr.changes hsc.wellFormed hsc.wellFormed.changes_trim fun _ _ _ hb => hb

theorem Retains.expireOne (h : s.Retains c key response deadline) (hs : s.WellFormed)
    (hlt : now < deadline) : (s.expireOne now).2.Retains c key response deadline := by
  obtain ⟨entry, hg, hp, hm, hb, hd⟩ := h.exists_entry
  obtain he | ⟨k, due, window, after, time, hle, hg', hx, hn, he⟩ := hs.expireOne_cases now
  · rw [he]
    exact h
  rw [he]
  by_cases hk : key = k
  · subst hk
    rw [hg, Option.some_inj] at hg'
    subst hg'
    obtain ⟨next, hdef, hw, hend⟩ := (hd hx).resolve_left (not_le.mpr (hle.trans_lt hlt))
    have hfilter : entry.deferred.filter (now < ·.endsAt) = some next := by
      rw [hdef, Option.filter_some, if_pos (by simpa using hlt.trans_le hend)]
    have hc : entry.correlation = c := by
      obtain ⟨e, hge, hce⟩ := (hs.key?_iff c key).mp h.key?
      rw [hg, Option.some_inj] at hge
      exact hge ▸ hce
    have hl := hs.changes_lapse hg hp window after
    have hpromise : (s.lapse key window after).promise key.serial = .stored response := by
      rw [hl.promise_eq (hs.serial_lt hg) (by rw [h.promise]; simp), h.promise]
    rw [expire, hfilter, ← hc]
    exact hl.wellFormed.retains_schedule (get?_lapse hg window after) hp hm hpromise
      (.inl ⟨hw, hend⟩)
  · exact h.changes hs (hs.changes_expire hg' hn now window after) fun _ _ _ hb => ⟨hk, hb⟩

/-- While duplicates may still come, the windows ahead include the one for them, at one of the
first two places. -/
theorem windows_dedup (s : State) {o : StoreOptions} (hlt : now < o.expiresAt)
    (requestBytes responseBytes reuseUntil : Nat) :
    ∃ first rest, s.windows now requestBytes responseBytes reuseUntil o = first :: rest ∧
      (first.window = .dedup ∧ o.expiresAt ≤ first.endsAt ∨
        ∃ d, rest.head? = some d ∧ d.window = .dedup ∧ o.expiresAt ≤ d.endsAt) := by
  unfold windows
  dsimp only
  split
  · by_cases hr : now < reuseUntil <;> simp [hr, hlt]
  · by_cases hr : now < reuseUntil <;> simp [hr, hlt]

section Store

variable {r : CommandRequest} {o : StoreOptions}

theorem Reserves.entry? (h : s.Reserves r.correlation key) (hs : s.WellFormed) :
    ∃ entry, s.entry? r.correlation = some (key, entry) ∧ entry.isPending = true := by
  obtain ⟨entry, hg, hp⟩ := h.exists_entry
  obtain ⟨e, hge, hc⟩ := (hs.key?_iff _ _).mp h.key?
  rw [hg, Option.some_inj] at hge
  exact ⟨entry, hs.entry?_eq_some.mpr ⟨hg, hge ▸ hc⟩, hp⟩

theorem Reserves.promise_complete (h : s.Reserves r.correlation key) (hs : s.WellFormed)
    (response : Message) (size : Nat) (o : StoreOptions) :
    (s.complete key response size o).promise key.serial = .stored response := by
  obtain ⟨entry, hg, -⟩ := h.exists_entry
  have hp : (s.complete key response size o).promise key.serial =
      (s.settle key.serial (.stored response)).promise key.serial := rfl
  rw [hp, promise_settle _ _ _ _ (hs.serial_lt hg), if_pos ⟨rfl, h.promise hs⟩]

/-- Storing the response to a command that is not idempotent retains it for as long as duplicates
may come, whatever the limits are. -/
theorem Reserves.retains_store (h : s.Reserves r.correlation key) (hs : s.WellFormed)
    (hi : o.isIdempotent = false) (hlt : now < o.expiresAt) (response : Message) :
    (s.store now r response o).Retains r.correlation key response o.expiresAt := by
  obtain ⟨entry, he, hp⟩ := h.entry? hs
  obtain ⟨hg, hc⟩ := hs.entry?_eq_some.mp he
  obtain ⟨requestBytes, responseBytes, hstore⟩ := store_of_pending he hp now response o
  generalize hsize : requestBytes + responseBytes = size at hstore
  have hd := hs.changes_completed hg response size o
  have hpromise := h.promise_complete hs response size o
  rw [hstore, ← hc]
  split
  -- an entry that is not scheduled stays for good
  next =>
    have hk := hd.wellFormed.key?_of_get? (get?_complete hg response size o)
    exact ⟨hk, hpromise, _, get?_complete hg response size o, rfl, by simp [hi],
      (hs.unscheduled hg hp).1, fun hx => by simp [(hs.unscheduled hg hp).2] at hx⟩
  obtain ⟨first, rest, hw, hwindow⟩ := (s.complete key response size o).windows_dedup hlt
    requestBytes responseBytes (reuseEnd now entry o)
  have hr : Changes _ ((s.complete key response size o).setReuseEnd entry.content key
      (reuseEnd now entry o)) fun _ _ => True :=
    hd.wellFormed.changes_congr rfl rfl rfl
  rw [hw]
  exact hr.wellFormed.retains_schedule (get?_complete hg response size o) rfl (by simp [hi])
    hpromise hwindow

theorem Reserves.promise_store (h : s.Reserves r.correlation key) (hs : s.WellFormed) (now : Nat)
    (response : Message) (o : StoreOptions) :
    (s.store now r response o).promise key.serial = .stored response := by
  obtain ⟨entry, he, hp⟩ := h.entry? hs
  obtain ⟨hg, -⟩ := hs.entry?_eq_some.mp he
  obtain ⟨size, hc⟩ := hs.changes_store_complete he hp now response o
  have hd := hs.changes_completed hg response size o
  have hpromise := h.promise_complete hs response size o
  rw [hc.promise_eq ((hs.serial_lt hg).trans_le hd.length_le) (by rw [hpromise]; simp), hpromise]

end Store

end CommandBus.Cache.State
