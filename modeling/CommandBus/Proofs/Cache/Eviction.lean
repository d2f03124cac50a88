import CommandBus.Proofs.Cache.Bounds
import Mathlib

namespace CommandBus.Cache

namespace Benefit

/-- Where a number stands among all doubles; both zeros stand at the same place. -/
def number (b : Benefit) : Int :=
  if b.bits.toNat < signBit then b.magnitude else -b.magnitude

theorem number_le_of_rank_le {a b : Benefit} (h : a.rank ≤ b.rank) : a.number ≤ b.number := by
  have ha := a.bits.toNat_lt
  have hb := b.bits.toNat_lt
  unfold rank at h
  unfold number
  simp only [magnitude, signBit] at h ⊢
  by_cases hna : a.bits.toNat < 0x8000000000000000 <;>
    by_cases hnb : b.bits.toNat < 0x8000000000000000 <;>
      simp only [hna, hnb, if_true, if_false] at h ⊢ <;> omega

theorem number_eq_of_equals {a b : Benefit} (h : a.equals b = true) : a.number = b.number := by
  simp only [equals, Bool.and_eq_true, Bool.or_eq_true, beq_iff_eq] at h
  obtain ⟨-, hbits | ⟨ha, hb⟩⟩ := h
  · rw [number, number, magnitude, magnitude, hbits]
  · simp [number, ha, hb]

end Benefit

namespace State

variable {s s' u : State} {key : EntryKey} {entry : Entry} {now : Nat} {operation : Operation}
  {evicted : List (EntryKey × Benefit)}

/-- Elements wait in the order of their benefits, each for an entry that has been registered. -/
structure IsRanked (s : State) : Prop where
  sorted : s.benefitQueue.Pairwise fun a b => a.1.rank ≤ b.1.rank
  serial_lt : ∀ element ∈ s.benefitQueue, element.2.serial < s.promises.length

theorem benefitQueue_trim (s : State) : s.trim.benefitQueue <:+ s.benefitQueue :=
  trim_induction (P := fun s' => s'.benefitQueue <:+ s.benefitQueue)
    (fun s' _ h => benefitQueue_evictFront s' ▸ (List.tail_suffix _).trans h) (List.suffix_refl _)

theorem WellFormed.schedules_or_suffix (hs : s.WellFormed) (operation : Operation) :
    (∃ now u, s.Schedules now operation u) ∨
      (operation.apply s).benefitQueue <:+ s.benefitQueue := by
  cases operation with
  | retrieve now r cacheable acrossInvokers =>
    obtain ⟨p, hr⟩ | ⟨-, hr⟩ := s.retrieve_cases now r cacheable acrossInvokers <;>
      rw [Operation.apply, hr] <;> exact .inr (List.suffix_refl _)
  | store now r response o =>
    by_cases hex : ∃ k, s.Reserves r.correlation k
    · obtain ⟨key, hk⟩ := hex
      obtain ⟨entry, he, hp⟩ := hk.entry? hs
      cases hover : o.overruns now entry with
      | true =>
        rw [Operation.apply, store_eq he hp]
        dsimp only
        rw [if_pos hover]
        exact .inr (List.suffix_refl _)
      | false =>
        cases hw : s.windows now (entry.content.elim 0 (·.payload.length))
            response.payload.length (reuseEnd now entry o) o with
        | nil =>
          rw [Operation.apply, store_of_windows_eq_nil he hp hover hw, benefitQueue_remove]
          exact .inr (List.suffix_refl _)
        | cons first rest => exact .inl ⟨now, _, .store he hp rfl rfl hover hw⟩
    · rw [Operation.apply, hs.store_of_not_reserves hex]
      exact .inr (List.suffix_refl _)
  | abandon r =>
    obtain ⟨k, hk⟩ | hn := em (∃ k, s.Reserves r.correlation k)
    · rw [Operation.apply, hk.abandon_eq hs, benefitQueue_remove]
      exact .inr (List.suffix_refl _)
    · rw [Operation.apply, hs.abandon_of_not_reserves hn]
      exact .inr (List.suffix_refl _)
  | trim => exact .inr s.benefitQueue_trim
  | expireOne now =>
    cases hdue : s.nextDue? with
    | none =>
      rw [Operation.apply, State.expireOne, hdue]
      exact .inr (List.suffix_refl _)
    | some due =>
      obtain ⟨window, ⟨time, key⟩, after⟩ := due
      obtain ⟨entry, hg, -⟩ := expiry_of_isLive (nextDue?_isLive hdue)
      obtain ⟨-, -, -, -, hqueue⟩ := s.lapse_frame key window after
      rw [Operation.apply, expireOne_of_nextDue? hdue hg]
      split
      next => exact .inr (List.suffix_refl _)
      next hle =>
        unfold State.expire
        split
        next next hfilter =>
          obtain ⟨hd, hlt⟩ := Option.filter_eq_some_iff.mp hfilter
          exact .inl ⟨now, _, .expireOne hdue (not_lt.mp hle) hg hd (by simpa using hlt)⟩
        next =>
          rw [benefitQueue_remove, hqueue]
          exact .inr (List.suffix_refl _)
  | nextDeadline | setConfig => exact .inr (List.suffix_refl _)

theorem Sound.scheduled (h : s.Sound) (hu : s.Schedules now operation u) : u.Sound := by
  have hw := h.agrees.wellFormed
  cases hu with
  | @store r response o key entry requestBytes size first rest he hp =>
    obtain ⟨hg, -⟩ := hw.entry?_eq_some.mp he
    exact h.schedule_complete hg hp response size o (reuseEnd now entry o) first rest.head?
  | @expireOne window time key after entry next hdue _ hg =>
    have hlive := liveQueue_of_nextDue? hdue
    obtain ⟨other, ho, hx⟩ := expiry_of_isLive (isLive_of_dropWhile hlive)
    exact h.schedule_lapse hg (hw.isPending_of_expiry hg (by
      rw [hg, Option.some_inj] at ho
      exact ho ▸ hx)) hlive next

namespace IsRanked

theorem of_suffix (h : s.IsRanked) (hq : s'.benefitQueue <:+ s.benefitQueue)
    (hl : s.promises.length ≤ s'.promises.length) : s'.IsRanked :=
  ⟨h.sorted.sublist hq.sublist, fun element hm => (h.serial_lt element (hq.subset hm)).trans_le hl⟩

theorem schedule (h : s.IsRanked) (hlt : key.serial < s.promises.length)
    (hg : s.entries.get? key = some entry) (first : Retention) (deferred : Option Retention) :
    (s.schedule key first deferred).IsRanked := by
  obtain ⟨-, -, hpromises, -⟩ := schedule_frame hg first deferred
  have hsorted : (insertBy benefitLe (first.benefit, key) s.benefitQueue).Pairwise
      fun a b => a.1.rank ≤ b.1.rank := by
    refine pairwise_insertBy (R := fun a b : Benefit × EntryKey => a.1.rank ≤ b.1.rank) le_trans
      (fun hle => ?_) (fun hgt => ?_) _ h.sorted
    · simp only [benefitLe, Bool.or_eq_true, Bool.and_eq_true, decide_eq_true_eq,
        beq_iff_eq] at hle
      omega
    · simp only [benefitLe, Bool.or_eq_false_iff, decide_eq_false_iff_not] at hgt
      omega
  constructor
  · rw [benefitQueue_schedule hg]
    split
    · exact hsorted
    · exact h.sorted
  · intro element hm
    rw [hpromises]
    rw [benefitQueue_schedule hg] at hm
    split at hm
    · obtain rfl | hm := List.mem_cons.mp ((insertBy_perm ..).mem_iff.mp hm)
      · exact hlt
      · exact h.serial_lt element hm
    · exact h.serial_lt element hm

theorem scheduled (h : s.IsRanked) (hs : s.WellFormed) (hu : s.Schedules now operation u) :
    u.IsRanked := by
  cases hu with
  | @store r response o key entry requestBytes size first rest he =>
    obtain ⟨hg, -⟩ := hs.entry?_eq_some.mp he
    have hl : (s.complete key response size o).promises.length = s.promises.length :=
      length_settle ..
    have hranked : ((s.complete key response size o).setReuseEnd entry.content key
        (reuseEnd now entry o)).IsRanked :=
      h.of_suffix (List.suffix_refl _) hl.ge
    exact hranked.schedule (hl.ge.trans_lt' (hs.serial_lt hg)) (get?_complete hg response size o)
      first _
  | @expireOne window time key after entry next _ _ hg =>
    obtain ⟨-, -, hpromises, -, hqueue⟩ := s.lapse_frame key window after
    have hranked : (s.lapse key window after).IsRanked :=
      h.of_suffix (hqueue ▸ List.suffix_refl _) (hpromises ▸ le_rfl)
    exact hranked.schedule (hpromises ▸ hs.serial_lt hg) (get?_lapse hg window after) next none

theorem apply (h : s.IsRanked) (hs : s.Sound) (operation : Operation) :
    (operation.apply s).IsRanked := by
  have hw := hs.agrees.wellFormed
  obtain ⟨now, u, hu⟩ | hq := hw.schedules_or_suffix operation
  · rw [hu.apply_eq]
    exact (h.scheduled hw hu).of_suffix u.benefitQueue_trim
      (hs.scheduled hu).agrees.wellFormed.changes_trim.length_le
  · obtain ⟨_, hchanges⟩ := hw.changes_apply operation
    exact h.of_suffix hq hchanges.length_le

theorem empty (config : Config) : ({ config } : State).IsRanked :=
  ⟨.nil, nofun⟩

theorem run (h : s.IsRanked) (hs : s.Sound) (operations : List Operation) :
    (s.run operations).IsRanked := by
  induction operations generalizing s with
  | nil => exact h
  | cons operation rest ih => exact ih (h.apply hs operation) (hs.apply operation).1

end IsRanked

/-- The states in which a cache is trimmed: after any run, and in an operation that has scheduled an
entry. -/
inductive IsReached : State → Prop
  | run (config : Config) (operations : List Operation) :
    IsReached (({ config } : State).run operations)
  | scheduled {config : Config} {operations : List Operation} {now : Nat} {operation : Operation}
    {u : State} (h : (({ config } : State).run operations).Schedules now operation u) : IsReached u

theorem IsReached.sound (h : s.IsReached) : s.Sound := by
  cases h with
  | run config operations => exact ((Sound.empty config).run operations).1
  | @scheduled config operations _ _ _ hu =>
    exact ((Sound.empty config).run operations).1.scheduled hu

theorem IsReached.isRanked (h : s.IsReached) : s.IsRanked := by
  cases h with
  | run config operations => exact (IsRanked.empty config).run (.empty config) operations
  | @scheduled config operations _ _ _ hu =>
    exact ((IsRanked.empty config).run (.empty config) operations).scheduled
      ((WellFormed.empty config).run operations) hu

/-- Entries are removed one after the other, each with the benefit it has and when the cache is over
a limit. Nothing else happens but to the queue of benefits. -/
inductive Evictions : State → List (EntryKey × Benefit) → State → Prop
  | done (s : State) : Evictions s [] s
  | pass {s s' : State} {evicted : List (EntryKey × Benefit)} (queue : List (Benefit × EntryKey))
    (h : Evictions { s with benefitQueue := queue } evicted s') : Evictions s evicted s'
  | evict {s s' : State} {key : EntryKey} {entry : Entry} {b : Benefit}
    {evicted : List (EntryKey × Benefit)} (hover : s.isOver = true)
    (hg : s.entries.get? key = some entry) (hb : entry.benefit = some b)
    (h : Evictions (s.remove key) evicted s') : Evictions s ((key, b) :: evicted) s'

theorem Evictions.get?_eq (h : Evictions s evicted s') (key : EntryKey) :
    s'.entries.get? key = if key ∈ evicted.map Prod.fst then none else s.entries.get? key := by
  induction h with
  | done => rfl
  | pass _ _ ih => exact ih
  | evict _ _ _ _ ih =>
    rw [ih, get?_remove]
    simp only [List.map_cons, List.mem_cons]
    split <;> split <;> simp_all

theorem Evictions.exists_entry (h : Evictions s evicted s') {e : EntryKey × Benefit}
    (he : e ∈ evicted) : ∃ entry, s.entries.get? e.1 = some entry ∧ entry.benefit = some e.2 := by
  induction h with
  | done => cases he
  | pass _ _ ih => exact ih he
  | evict _ hg hb _ ih =>
    obtain rfl | he := List.mem_cons.mp he
    · exact ⟨_, hg, hb⟩
    · obtain ⟨entry, hg, hb⟩ := ih he
      exact ⟨entry, (get?_of_get?_remove hg).2, hb⟩

theorem hasBenefit_iff {b : Benefit} : s.hasBenefit b key = true ↔
    ∃ entry c, s.entries.get? key = some entry ∧ entry.benefit = some c ∧ c.equals b = true := by
  rw [hasBenefit]
  cases s.entries.get? key with
  | none => simp
  | some entry => cases hb : entry.benefit <;> simp [hb]

theorem evictFront_of_live {b : Benefit} {rest : List (Benefit × EntryKey)}
    (hq : s.benefitQueue = (b, key) :: rest) (hb : s.hasBenefit b key = true) :
    s.evictFront = { s.remove key with benefitQueue := rest } := by
  rw [evictFront, hq]
  dsimp only
  rw [if_pos hb]

theorem evictFront_of_stale {b : Benefit} {rest : List (Benefit × EntryKey)}
    (hq : s.benefitQueue = (b, key) :: rest) (hb : s.hasBenefit b key = false) :
    s.evictFront = { s with benefitQueue := rest } := by
  rw [evictFront, hq]
  dsimp only
  rw [if_neg (Bool.eq_false_iff.mp hb)]

/-- Trimming a cache with a sorted queue. Each entry that is evicted has an element there; all that
is left in the queue was behind it. -/
theorem exists_evictions (h : s.benefitQueue.Pairwise fun a b => a.1.rank ≤ b.1.rank) :
    ∃ evicted, Evictions s evicted s.trim ∧
      evicted.Pairwise (fun a b => a.2.number ≤ b.2.number) ∧
      (∀ e ∈ evicted, ∃ b, (b, e.1) ∈ s.benefitQueue ∧ b.number = e.2.number) ∧
      ∀ e ∈ evicted, ∀ element ∈ s.trim.benefitQueue, e.2.number ≤ element.1.number := by
  induction hq : s.benefitQueue generalizing s with
  | nil =>
    have ht : s.trim = s := by rw [trim, hq, trimFrom, ← hq]
    rw [ht]
    exact ⟨[], .done s, .nil, List.forall_mem_nil _, List.forall_mem_nil _⟩
  | cons front rest ih =>
    cases ho : s.isOver with
    | false =>
      rw [trim_of_not_isOver ho]
      exact ⟨[], .done s, .nil, List.forall_mem_nil _, List.forall_mem_nil _⟩
    | true =>
      obtain ⟨b, key⟩ := front
      obtain ⟨hfront, hrest⟩ := List.pairwise_cons.mp (hq ▸ h)
      have hqueue : s.evictFront.benefitQueue = rest := by
        rw [benefitQueue_evictFront, hq, List.tail_cons]
      obtain ⟨evicted, hevictions, hordered, hfrom, hkept⟩ := ih (hqueue ▸ hrest) hqueue
      have hfrom' : ∀ e ∈ evicted, ∃ c, (c, e.1) ∈ (b, key) :: rest ∧ c.number = e.2.number :=
        fun e he => (hfrom e he).imp fun _ hc => ⟨List.mem_cons_of_mem _ hc.1, hc.2⟩
      rw [trim_of_isOver ho]
      cases hb : s.hasBenefit b key with
      | true =>
        obtain ⟨entry, c, hg, hc, hequals⟩ := hasBenefit_iff.mp hb
        have hnumber : b.number = c.number := (Benefit.number_eq_of_equals hequals).symm
        -- whatever waits behind the element in front has no lesser benefit
        have hleast : ∀ element ∈ rest, c.number ≤ element.1.number := fun element hm =>
          hnumber ▸ Benefit.number_le_of_rank_le (hfront element hm)
        refine ⟨(key, c) :: evicted, .evict ho hg hc (.pass rest ?_),
          List.pairwise_cons.mpr ⟨fun e he => ?_, hordered⟩, fun e he => ?_, fun e he => ?_⟩
        · exact evictFront_of_live hq hb ▸ hevictions
        · obtain ⟨d, hd, hnumber⟩ := hfrom e he
          exact hnumber ▸ hleast _ hd
        · obtain rfl | he := List.mem_cons.mp he
          · exact ⟨b, List.mem_cons_self, hnumber⟩
          · exact hfrom' e he
        · obtain rfl | he := List.mem_cons.mp he
          · exact fun element hm => hleast element (hqueue ▸ (benefitQueue_trim _).subset hm)
          · exact hkept e he
      | false =>
        exact ⟨evicted, .pass rest (evictFront_of_stale hq hb ▸ hevictions), hordered, hfrom',
          hkept⟩

theorem trimFrom_of_not_isOver (h : s.isOver = false) (queue : List (Benefit × EntryKey)) :
    trimFrom queue s = { s with benefitQueue := queue } := by
  cases queue with
  | nil => rfl
  | cons element rest => rw [trimFrom, if_neg (Bool.eq_false_iff.mp h)]

theorem hasBenefit_of_remove {b : Benefit} {k : EntryKey}
    (h : (s.remove key).hasBenefit b k = true) : s.hasBenefit b k = true := by
  obtain ⟨entry, c, hg, hc⟩ := hasBenefit_iff.mp h
  exact hasBenefit_iff.mpr ⟨entry, c, (get?_of_get?_remove hg).2, hc⟩

theorem trimFrom_filter {p : Benefit × EntryKey → Bool}
    (hp : ∀ {b key}, s.hasBenefit b key = true → p (b, key) = true)
    (queue : List (Benefit × EntryKey)) :
    ∃ rest, trimFrom (queue.filter p) s = { trimFrom queue s with benefitQueue := rest } := by
  induction queue generalizing s with
  | nil => exact ⟨[], rfl⟩
  | cons element rest ih =>
    obtain ⟨b, key⟩ := element
    cases ho : s.isOver with
    | false =>
      rw [trimFrom_of_not_isOver ho, trimFrom_of_not_isOver ho]
      exact ⟨_, rfl⟩
    | true =>
      cases hk : p (b, key) with
      | true =>
        rw [List.filter_cons_of_pos hk, trimFrom, trimFrom, if_pos ho, if_pos ho]
        refine ih fun hb => hp ?_
        split at hb
        · exact hasBenefit_of_remove hb
        · exact hb
      | false =>
        have hb : ¬s.hasBenefit b key = true := fun hb => by
          rw [hp hb] at hk
          cases hk
        rw [List.filter_cons_of_neg (Bool.eq_false_iff.mp hk), trimFrom, if_pos ho, if_neg hb]
        exact ih hp

/-- A cache in which all benefits are numbers is trimmed by removing entries that may be evicted,
those of least benefit first and each while a limit is exceeded; none that stays has a lesser
benefit than one that is removed. Stale elements, of entries removed or with another benefit than
the entry has now, may as well be dropped before, and no entry comes back under the key of one that
has been removed. -/
theorem trim_evicts_least (s : State) (hs : s.IsReached)
    (hnumber : ∀ key entry b, s.entries.get? key = some entry → entry.benefit = some b →
      b.isNaN = false) :
    (∃ evicted, Evictions s evicted s.trim ∧
      (∀ e ∈ evicted, ∃ entry, s.entries.get? e.1 = some entry ∧ entry.benefit = some e.2) ∧
      (∀ key, s.trim.entries.get? key =
        if key ∈ evicted.map Prod.fst then none else s.entries.get? key) ∧
      evicted.Pairwise (fun a b => a.2.number ≤ b.2.number) ∧
      ∀ key entry b, s.trim.entries.get? key = some entry → entry.benefit = some b →
        ∀ e ∈ evicted, e.2.number ≤ b.number) ∧
    (∀ p : Benefit × EntryKey → Bool,
      (∀ b key entry c, s.entries.get? key = some entry → entry.benefit = some c →
        c.number = b.number → p (b, key) = true) →
      ∃ queue, ({ s with benefitQueue := s.benefitQueue.filter p } : State).trim =
        { s.trim with benefitQueue := queue }) ∧
    ∀ b key later, (b, key) ∈ s.benefitQueue → s.entries.get? key = none →
      (s.run later).entries.get? key = none := by
  have hsound := hs.sound
  have hranked := hs.isRanked
  obtain ⟨evicted, hevictions, hordered, -, hkept⟩ := exists_evictions hranked.sorted
  refine ⟨⟨evicted, hevictions, fun e he => hevictions.exists_entry he, hevictions.get?_eq,
    hordered, fun key entry b hg hb e he => ?_⟩, fun p hp => ?_, fun b key later hm hnone => ?_⟩
  · -- an entry that stays has its element in what is left of the queue
    have hn := hnumber key entry b (get?_of_get?_trim hg) hb
    exact hkept e he (b, key) (hsound.trim.covers hg hb hn)
  · rw [← trimFrom_eq]
    refine trimFrom_filter (fun {b key} hb => ?_) s.benefitQueue
    obtain ⟨entry, c, hg, hc, hequals⟩ := hasBenefit_iff.mp hb
    exact hp b key entry c hg hc (Benefit.number_eq_of_equals hequals)
  · cases hg : (s.run later).entries.get? key with
    | none => rfl
    | some entry =>
      obtain ⟨_, hchanges⟩ := hsound.agrees.wellFormed.changes_run later
      obtain ⟨old, ho, -⟩ := hchanges.entry_of hg (hranked.serial_lt _ hm)
      rw [hnone] at ho
      cases ho

/-- Of two responses that took as long the larger one is evicted when there is room for one. -/
theorem larger_response_evicted :
    let r : CommandRequest := ⟨"cmd", "inv", "t", [1], [2]⟩
    let other : CommandRequest := ⟨"cmd", "inv", "t", [2], [2]⟩
    let s := ({} : State).run [.retrieve 0 r false false, .retrieve 0 other false false,
      .store 0 r { topic := "reply", payload := [3, 4, 5, 6, 7, 8] } ⟨true, 10, ⟨0⟩, 0⟩,
      .store 0 other { topic := "reply", payload := [3] } ⟨true, 10, ⟨0⟩, 0⟩,
      .setConfig { maxEntries := 1 }]
    ∃ evicted, Evictions s evicted s.trim ∧
      (⟨0, 0⟩ : EntryKey) ∈ evicted.map Prod.fst ∧ (⟨1, 1⟩ : EntryKey) ∉ evicted.map Prod.fst := by
  intro r other s
  have hsomething : ({} : State).StoresSomething [.retrieve 0 r false false,
      .retrieve 0 other false false,
      .store 0 r { topic := "reply", payload := [3, 4, 5, 6, 7, 8] } ⟨true, 10, ⟨0⟩, 0⟩,
      .store 0 other { topic := "reply", payload := [3] } ⟨true, 10, ⟨0⟩, 0⟩,
      .setConfig { maxEntries := 1 }] := by
    -- executing a command is taken to cost ten milliseconds at least
    refine ⟨not_false, not_false, ?_, ?_, not_false, trivial⟩ <;>
      rintro ⟨_, _, _, _, _, _, ⟨hfixed, -⟩, -⟩ <;> exact absurd hfixed (by decide)
  have hnumber : ∀ key entry b, s.entries.get? key = some entry → entry.benefit = some b →
      b.isNaN = false := fun key entry b hg =>
    ((WellFormed.empty {}).hasNumbers_run (fun ho => by simp [Slots.get?] at ho) hsomething
      hg).benefit b
  obtain ⟨⟨evicted, hevictions, -, hget, -⟩, -⟩ := trim_evicts_least s (.run {} _) hnumber
  have hfirst : (s.entries.get? ⟨0, 0⟩).isSome = true ∧ s.trim.entries.get? ⟨0, 0⟩ = none ∧
      (s.trim.entries.get? ⟨1, 1⟩).isSome = true := by decide +kernel
  obtain ⟨hin, hout, hkept⟩ := hfirst
  refine ⟨evicted, hevictions, ?_, fun hm => ?_⟩
  · by_contra hm
    rw [hget, if_neg hm] at hout
    rw [hout] at hin
    cases hin
  · rw [hget, if_pos hm] at hkept
    cases hkept

end State

end CommandBus.Cache
