import CommandBus.Proofs.Cache.Entries
import Mathlib

namespace CommandBus.Cache.State

/-- Correlations and entries belong together one to one, and a promise is pending exactly as long
as its entry is. -/
structure WellFormed (s : State) : Prop where
  next_eq : s.entries.next = s.promises.length
  serial_lt : ∀ {key entry}, s.entries.get? key = some entry → key.serial < s.promises.length
  key_eq : ∀ {key entry other entry'}, s.entries.get? key = some entry →
    s.entries.get? other = some entry' → key.serial = other.serial → key = other
  key?_iff : ∀ c key, s.key? c = some key ↔
    ∃ entry, s.entries.get? key = some entry ∧ entry.correlation = c
  isPending_iff : ∀ {key entry}, s.entries.get? key = some entry →
    (entry.isPending = true ↔ s.promise key.serial = .pending)
  unscheduled : ∀ {key entry}, s.entries.get? key = some entry → entry.isPending = true →
    entry.benefit = none ∧ entry.expiry = none
  exists_entry : ∀ {p}, s.promise p = .pending →
    ∃ key entry, s.entries.get? key = some entry ∧ key.serial = p

theorem WellFormed.empty (config : Config) : WellFormed { config } where
  next_eq := rfl
  serial_lt h := by simp [Slots.get?] at h
  key_eq h := by simp [Slots.get?] at h
  key?_iff c key := by simp [key?, Slots.get?]
  isPending_iff h := by simp [Slots.get?] at h
  unscheduled h := by simp [Slots.get?] at h
  exists_entry h := by simp [promise] at h

/-- From `s` to `s'` promises are only added or settled, no entry turns into another one, and
entries with the property `kept` stay as they are. -/
structure Changes (s s' : State) (kept : EntryKey → Entry → Prop) : Prop where
  wellFormed : s'.WellFormed
  length_le : s.promises.length ≤ s'.promises.length
  promise_eq : ∀ {p}, p < s.promises.length → s.promise p ≠ .pending → s'.promise p = s.promise p
  entry_of : ∀ {key entry}, s'.entries.get? key = some entry → key.serial < s.promises.length →
    ∃ old, s.entries.get? key = some old ∧ old.correlation = entry.correlation ∧
      old.content = entry.content
  keeps : ∀ {key entry}, s.entries.get? key = some entry → kept key entry →
    s'.entries.get? key = some entry ∧ s'.promise key.serial = s.promise key.serial

variable {s s' s'' : State} {kept kept' : EntryKey → Entry → Prop} {key : EntryKey} {entry : Entry}

theorem WellFormed.key?_of_get? (h : s.WellFormed) (hg : s.entries.get? key = some entry) :
    s.key? entry.correlation = some key :=
  (h.key?_iff _ _).mpr ⟨entry, hg, rfl⟩

theorem WellFormed.isPending_of_expiry (h : s.WellFormed) (hg : s.entries.get? key = some entry)
    {x : Window × Nat} (hx : entry.expiry = some x) : entry.isPending = false := by
  by_contra hp
  obtain ⟨-, hnone⟩ := h.unscheduled hg (by simpa using hp)
  rw [hx] at hnone
  cases hnone

theorem WellFormed.isPending_of_benefit (h : s.WellFormed) (hg : s.entries.get? key = some entry)
    {b : Benefit} (hb : entry.benefit = some b) : entry.isPending = false := by
  by_contra hp
  obtain ⟨hnone, -⟩ := h.unscheduled hg (by simpa using hp)
  rw [hb] at hnone
  cases hnone

namespace Changes

theorem mono (h : Changes s s' kept)
    (hk : ∀ {key entry}, s.entries.get? key = some entry → kept' key entry → kept key entry) :
    Changes s s' kept' :=
  { h with keeps := fun hg hp => h.keeps hg (hk hg hp) }

theorem trans (h : Changes s s' kept) (h' : Changes s' s'' kept') :
    Changes s s'' fun key entry => kept key entry ∧ kept' key entry where
  wellFormed := h'.wellFormed
  length_le := h.length_le.trans h'.length_le
  promise_eq hp hne := by
    have he := h.promise_eq hp hne
    rw [h'.promise_eq (hp.trans_le h.length_le) (he ▸ hne), he]
  entry_of hg hlt := by
    obtain ⟨middle, hm, hcm, htm⟩ := h'.entry_of hg (hlt.trans_le h.length_le)
    obtain ⟨old, ho, hco, hto⟩ := h.entry_of hm hlt
    exact ⟨old, ho, hco.trans hcm, hto.trans htm⟩
  keeps hg hk := by
    obtain ⟨hm, hp⟩ := h.keeps hg hk.1
    obtain ⟨hf, hp'⟩ := h'.keeps hm hk.2
    exact ⟨hf, hp'.trans hp⟩

theorem key?_eq (h : Changes s s' kept) (hs : s.WellFormed) {c : Correlation}
    (hg : s.entries.get? key = some entry) (hk : kept key entry) (hc : s.key? c = some key) :
    s'.key? c = some key := by
  obtain ⟨entry', hg', rfl⟩ := (hs.key?_iff c key).mp hc
  rw [hg, Option.some_inj] at hg'
  exact hg' ▸ h.wellFormed.key?_of_get? (h.keeps hg hk).1

theorem key?_of_pending (h : Changes s s' kept) (hs : s.WellFormed) {c : Correlation}
    (hc : s.key? c = some key) (hp : s'.promise key.serial = .pending) :
    s'.key? c = some key := by
  obtain ⟨entry, hg, rfl⟩ := (hs.key?_iff c key).mp hc
  obtain ⟨key', entry', hg', hserial⟩ := h.wellFormed.exists_entry hp
  obtain ⟨old, ho, hco, -⟩ := h.entry_of hg' (hserial ▸ hs.serial_lt hg)
  obtain rfl := hs.key_eq ho hg hserial
  rw [hg, Option.some_inj] at ho
  rw [ho, hco]
  exact h.wellFormed.key?_of_get? hg'

theorem pending_of_pending (h : Changes s s' kept) {p : Nat} (hlt : p < s.promises.length)
    (hp : s'.promise p = .pending) : s.promise p = .pending := by
  by_contra hne
  exact hne (h.promise_eq hlt hne ▸ hp)

end Changes

theorem WellFormed.congr (h : s.WellFormed) (he : s'.entries = s.entries)
    (hc : s'.byCorrelation = s.byCorrelation) (hp : s'.promises = s.promises) :
    s'.WellFormed := by
  obtain ⟨h₁, h₂, h₃, h₄, h₅, h₆, h₇⟩ := h
  constructor <;> simp only [key?, promise, he, hc, hp] at * <;> assumption

theorem WellFormed.changes_congr (h : s.WellFormed) (he : s'.entries = s.entries)
    (hc : s'.byCorrelation = s.byCorrelation) (hp : s'.promises = s.promises) :
    Changes s s' fun _ _ => True where
  wellFormed := h.congr he hc hp
  length_le := by rw [hp]
  promise_eq _ _ := by rw [promise, promise, hp]
  entry_of hg _ := ⟨_, he ▸ hg, rfl, rfl⟩
  keeps hg _ := ⟨he ▸ hg, by rw [promise, promise, hp]⟩

theorem WellFormed.changes_refl (h : s.WellFormed) : Changes s s fun _ _ => True :=
  h.changes_congr rfl rfl rfl

theorem WellFormed.changes_map (h : s.WellFormed) {f : EntryKey → Entry → Entry}
    (he : ∀ key, s'.entries.get? key = (s.entries.get? key).map (f key))
    (hnext : s'.entries.next = s.entries.next) (hc : s'.byCorrelation = s.byCorrelation)
    (hl : s'.promises.length = s.promises.length)
    (hf : ∀ key entry, (f key entry).correlation = entry.correlation ∧
      (f key entry).content = entry.content)
    (hpending : ∀ {key entry}, s.entries.get? key = some entry →
      ((f key entry).isPending = true ↔ s'.promise key.serial = .pending))
    (hunscheduled : ∀ {key entry}, s.entries.get? key = some entry →
      (f key entry).isPending = true →
        (f key entry).benefit = none ∧ (f key entry).expiry = none)
    (hp : ∀ p, s'.promise p = s.promise p ∨ s.promise p = .pending ∧ s'.promise p ≠ .pending) :
    Changes s s' fun key entry => f key entry = entry ∧
      s'.promise key.serial = s.promise key.serial := by
  have hget : ∀ {key entry}, s'.entries.get? key = some entry →
      ∃ old, s.entries.get? key = some old ∧ f key old = entry := by
    intro key entry hg
    rw [he] at hg
    exact Option.map_eq_some_iff.mp hg
  have hkey? : ∀ c, s'.key? c = s.key? c := fun c => by rw [key?, key?, hc]
  refine ⟨⟨by rw [hnext, hl, h.next_eq], ?_, ?_, ?_, ?_, ?_, ?_⟩, hl.ge, ?_, ?_, ?_⟩
  · intro key entry hg
    obtain ⟨old, ho, -⟩ := hget hg
    rw [hl]
    exact h.serial_lt ho
  · intro key entry other entry' hg hg'
    obtain ⟨old, ho, -⟩ := hget hg
    obtain ⟨old', ho', -⟩ := hget hg'
    exact h.key_eq ho ho'
  · intro c key
    rw [hkey?, h.key?_iff]
    constructor
    · rintro ⟨entry, hg, rfl⟩
      exact ⟨f key entry, by rw [he, hg]; rfl, (hf key entry).1⟩
    · rintro ⟨entry, hg, rfl⟩
      obtain ⟨old, ho, rfl⟩ := hget hg
      exact ⟨old, ho, (hf key old).1.symm⟩
  · intro key entry hg
    obtain ⟨old, ho, rfl⟩ := hget hg
    exact hpending ho
  · intro key entry hg hpend
    obtain ⟨old, ho, rfl⟩ := hget hg
    exact hunscheduled ho hpend
  · intro p hpend
    have hold : s.promise p = .pending := by
      obtain heq | ⟨heq, -⟩ := hp p
      · rw [← heq, hpend]
      · exact heq
    obtain ⟨key, entry, hg, hserial⟩ := h.exists_entry hold
    exact ⟨key, f key entry, by rw [he, hg]; rfl, hserial⟩
  · intro p _ hne
    obtain heq | ⟨heq, -⟩ := hp p
    · exact heq
    · exact absurd heq hne
  · intro key entry hg _
    obtain ⟨old, ho, rfl⟩ := hget hg
    exact ⟨old, ho, (hf key old).1.symm, (hf key old).2.symm⟩
  · intro key entry hg hk
    rw [he, hg, Option.map_some, hk.1]
    exact ⟨rfl, hk.2⟩

theorem get?_modify_eq_map (s : State) (key : EntryKey) (f : Entry → Entry) (k : EntryKey) :
    (s.entries.modify key f).get? k =
      (s.entries.get? k).map fun entry => if k = key then f entry else entry := by
  rw [Slots.get?_modify]
  split
  · rfl
  · exact Option.map_id'.symm

theorem WellFormed.changes_modify (h : s.WellFormed) {f : Entry → Entry}
    (hf : ∀ entry, (f entry).correlation = entry.correlation ∧
      (f entry).content = entry.content ∧ (f entry).isPending = entry.isPending)
    (hn : ∀ {entry}, s.entries.get? key = some entry → entry.isPending = false)
    (he : s'.entries = s.entries.modify key f) (hc : s'.byCorrelation = s.byCorrelation)
    (hp : s'.promises = s.promises) :
    Changes s s' fun k _ => k ≠ key := by
  have hpromise : ∀ p, s'.promise p = s.promise p := fun p => by rw [promise, promise, hp]
  refine (h.changes_map (f := fun k entry => if k = key then f entry else entry) ?_
    (by rw [he]; rfl) hc (by rw [hp]) ?_ ?_ ?_ fun p => .inl (hpromise p)).mono ?_
  · intro k
    rw [he, get?_modify_eq_map]
  · intro k entry
    split
    · exact ⟨(hf entry).1, (hf entry).2.1⟩
    · exact ⟨rfl, rfl⟩
  · intro k entry hg
    rw [hpromise, ← h.isPending_iff hg]
    split
    · rw [(hf entry).2.2]
    · rfl
  · intro k entry hg
    split
    next hk =>
      rw [(hf entry).2.2, hn (hk ▸ hg)]
      exact fun hpend => absurd hpend Bool.false_ne_true
    next => exact h.unscheduled hg
  · intro k entry _ hk
    exact ⟨if_neg hk, hpromise _⟩

theorem WellFormed.changes_complete (h : s.WellFormed) (hg : s.entries.get? key = some entry)
    {f : Entry → Entry} {p : Promise}
    (hf : ∀ entry, (f entry).correlation = entry.correlation ∧
      (f entry).content = entry.content ∧ (f entry).isPending = false)
    (hne : p ≠ .pending) (he : s'.entries = s.entries.modify key f)
    (hc : s'.byCorrelation = s.byCorrelation)
    (hp : s'.promises = (s.settle key.serial p).promises) :
    Changes s s' fun k _ => k ≠ key := by
  have hpromise : ∀ q, s'.promise q =
      if q = key.serial ∧ s.promise q = .pending then p else s.promise q := fun q => by
    rw [← promise_settle s _ _ _ (h.serial_lt hg), promise, promise, hp]
  have hother : ∀ {k other}, s.entries.get? k = some other → k ≠ key →
      s'.promise k.serial = s.promise k.serial := fun ho hk => by
    rw [hpromise, if_neg fun hc => hk (h.key_eq ho hg hc.1)]
  refine (h.changes_map (f := fun k entry => if k = key then f entry else entry) ?_
    (by rw [he]; rfl) hc (by rw [hp, length_settle]) ?_ ?_ ?_ fun q => ?_).mono ?_
  · intro k
    rw [he, get?_modify_eq_map]
  · intro k entry
    split
    · exact ⟨(hf entry).1, (hf entry).2.1⟩
    · exact ⟨rfl, rfl⟩
  · intro k other ho
    split
    next hk =>
      rw [(hf other).2.2, hpromise, hk]
      refine ⟨fun hc => absurd hc Bool.false_ne_true, fun hc => ?_⟩
      split at hc
      next => exact absurd hc hne
      next hn => exact absurd ⟨rfl, hc⟩ hn
    next hk => rw [hother ho hk, h.isPending_iff ho]
  · intro k other ho
    split
    · rw [(hf other).2.2]
      exact fun hpend => absurd hpend Bool.false_ne_true
    · exact h.unscheduled ho
  · rw [hpromise]
    split
    next hq => exact .inr ⟨hq.2, hne⟩
    next => exact .inl rfl
  · intro k other ho hk
    exact ⟨if_neg hk, hother ho hk⟩

theorem WellFormed.changes_remove (h : s.WellFormed) (key : EntryKey) :
    Changes s (s.remove key) fun k _ => k ≠ key := by
  cases hg : s.entries.get? key with
  | none =>
    rw [remove_of_none hg]
    exact h.changes_refl.mono fun _ _ => trivial
  | some entry =>
    have hget : ∀ {k other}, (s.remove key).entries.get? k = some other ↔
        k ≠ key ∧ s.entries.get? k = some other := by
      intro k other
      rw [entries_remove hg, Slots.get?_remove]
      split <;> simp [*]
    have hl : (s.remove key).promises.length = s.promises.length := by
      rw [promises_remove hg]
      split
      · exact length_settle ..
      · rfl
    have hpromise : ∀ p, (s.remove key).promise p =
        if p = key.serial ∧ s.promise p = .pending then .evicted else s.promise p := by
      intro p
      rw [promise, promises_remove hg]
      split
      next => exact promise_settle s _ _ _ (h.serial_lt hg)
      next hpend =>
        rw [if_neg]
        · rfl
        · rintro ⟨rfl, hp⟩
          exact hpend ((h.isPending_iff hg).mpr hp)
    have hother : ∀ {k other}, s.entries.get? k = some other → k ≠ key →
        (s.remove key).promise k.serial = s.promise k.serial := fun ho hk => by
      rw [hpromise, if_neg fun hc => hk (h.key_eq ho hg hc.1)]
    refine ⟨⟨?_, ?_, ?_, ?_, ?_, ?_, ?_⟩, hl.ge, ?_, ?_, ?_⟩
    · rw [entries_remove hg, hl]
      exact h.next_eq
    · intro k other ho
      rw [hl]
      exact h.serial_lt (hget.mp ho).2
    · intro k other k' other' ho ho'
      exact h.key_eq (hget.mp ho).2 (hget.mp ho').2
    · intro c k
      rw [key?_remove hg]
      constructor
      · intro hc
        split at hc
        next => cases hc
        next hne =>
          obtain ⟨other, ho, rfl⟩ := (h.key?_iff c k).mp hc
          refine ⟨other, hget.mpr ⟨?_, ho⟩, rfl⟩
          rintro rfl
          rw [hg, Option.some_inj] at ho
          exact hne (ho ▸ rfl)
      · rintro ⟨other, ho, rfl⟩
        obtain ⟨hk, ho⟩ := hget.mp ho
        rw [if_neg, h.key?_of_get? ho]
        intro hc
        have := h.key?_of_get? ho
        rw [hc, h.key?_of_get? hg, Option.some_inj] at this
        exact hk this.symm
    · intro k other ho
      obtain ⟨hk, ho⟩ := hget.mp ho
      rw [hother ho hk]
      exact h.isPending_iff ho
    · intro k other ho
      exact h.unscheduled (hget.mp ho).2
    · intro p hp
      rw [hpromise] at hp
      split at hp
      next => cases hp
      next hn =>
        obtain ⟨k, other, ho, rfl⟩ := h.exists_entry hp
        refine ⟨k, other, hget.mpr ⟨?_, ho⟩, rfl⟩
        rintro rfl
        exact hn ⟨rfl, hp⟩
    · intro p _ hne
      rw [hpromise, if_neg fun hc => hne hc.2]
    · intro k other ho _
      exact ⟨other, (hget.mp ho).2, rfl, rfl⟩
    · intro k other ho hk
      exact ⟨hget.mpr ⟨hk, ho⟩, hother ho hk⟩

theorem WellFormed.get?_register (h : s.WellFormed) (c : Correlation) (content : Option Content)
    (k : EntryKey) :
    (s.register c content).entries.get? k =
      if k = s.nextKey then some { correlation := c, content } else s.entries.get? k :=
  s.entries.get?_insert (fun _ _ hg => h.next_eq ▸ h.serial_lt hg) _ k

theorem WellFormed.serial_nextKey (h : s.WellFormed) : s.nextKey.serial = s.promises.length :=
  h.next_eq

theorem WellFormed.changes_register (h : s.WellFormed) {c : Correlation}
    (hc : s.key? c = none) (content : Option Content) :
    Changes s (s.register c content) fun _ _ => True := by
  have hl := s.length_register c content
  have hold : ∀ {k entry}, s.entries.get? k = some entry → k ≠ s.nextKey := fun hg hk =>
    (h.serial_lt hg).ne (hk ▸ h.serial_nextKey)
  have hget : ∀ {k entry}, (s.register c content).entries.get? k = some entry →
      k = s.nextKey ∧ entry = { correlation := c, content } ∨
        k ≠ s.nextKey ∧ s.entries.get? k = some entry := by
    intro k entry hg
    rw [h.get?_register] at hg
    split at hg
    next hk => exact .inl ⟨hk, (Option.some_inj.mp hg).symm⟩
    next hk => exact .inr ⟨hk, hg⟩
  have hpromise : ∀ {p}, p < s.promises.length →
      (s.register c content).promise p = s.promise p := fun hp => by
    rw [promise_register, if_neg hp.ne]
  refine ⟨⟨?_, ?_, ?_, ?_, ?_, ?_, ?_⟩, by omega, fun hp _ => hpromise hp, ?_, ?_⟩
  · rw [hl, ← h.next_eq]
    rfl
  · intro k entry hg
    rw [hl]
    obtain ⟨rfl, -⟩ | ⟨-, hg⟩ := hget hg
    · exact h.serial_nextKey ▸ Nat.lt_succ_self _
    · exact (h.serial_lt hg).trans (Nat.lt_succ_self _)
  · intro k entry k' entry' hg hg' hserial
    obtain ⟨rfl, -⟩ | ⟨-, hg⟩ := hget hg <;> obtain ⟨rfl, -⟩ | ⟨-, hg'⟩ := hget hg'
    · rfl
    · exact absurd (hserial.symm.trans h.serial_nextKey) (h.serial_lt hg').ne
    · exact absurd (hserial.trans h.serial_nextKey) (h.serial_lt hg).ne
    · exact h.key_eq hg hg' hserial
  · intro b k
    rw [key?_register]
    constructor
    · intro hk
      obtain hk | ⟨-, hk⟩ := Option.or_eq_some_iff.mp hk
      · obtain ⟨entry, hg, rfl⟩ := (h.key?_iff b k).mp hk
        exact ⟨entry, by rw [h.get?_register, if_neg (hold hg), hg], rfl⟩
      · split at hk
        next hb =>
          obtain rfl := Option.some_inj.mp hk
          exact ⟨_, by rw [h.get?_register, if_pos rfl], hb.symm⟩
        next => cases hk
    · rintro ⟨entry, hg, rfl⟩
      obtain ⟨rfl, rfl⟩ | ⟨-, hg⟩ := hget hg
      · rw [hc, Option.none_or, if_pos rfl]
      · rw [h.key?_of_get? hg, Option.some_or]
  · intro k entry hg
    obtain ⟨rfl, rfl⟩ | ⟨-, hg⟩ := hget hg
    · rw [promise_register, if_pos h.serial_nextKey]
      exact iff_of_true rfl rfl
    · rw [hpromise (h.serial_lt hg)]
      exact h.isPending_iff hg
  · intro k entry hg hpend
    obtain ⟨rfl, rfl⟩ | ⟨-, hg⟩ := hget hg
    · exact ⟨rfl, rfl⟩
    · exact h.unscheduled hg hpend
  · intro p hp
    rw [promise_register] at hp
    split at hp
    next hlen =>
      exact ⟨s.nextKey, _, by rw [h.get?_register, if_pos rfl], h.serial_nextKey.trans hlen.symm⟩
    next =>
      obtain ⟨k, entry, hg, hserial⟩ := h.exists_entry hp
      exact ⟨k, entry, by rw [h.get?_register, if_neg (hold hg), hg], hserial⟩
  · intro k entry hg hlt
    obtain ⟨rfl, -⟩ | ⟨-, hg⟩ := hget hg
    · exact absurd h.serial_nextKey hlt.ne
    · exact ⟨entry, hg, rfl, rfl⟩
  · intro k entry hg _
    exact ⟨by rw [h.get?_register, if_neg (hold hg), hg], hpromise (h.serial_lt hg)⟩

end CommandBus.Cache.State
