import CommandBus.Proofs.Cache.Schedules
import CommandBus.Proofs.Cache.Soundness
import CommandBus.Proofs.Cache.Worth
import Mathlib

namespace CommandBus.Cache

/-- The entry may not be evicted: it is pending, or its command is not idempotent and its window for
duplicates lies ahead. -/
def Entry.MustStay (entry : Entry) (now : Nat) : Prop :=
  entry.isPending = true ∨ entry.isMandatory = true ∧
    ∃ time, entry.dedupEnd? = some time ∧ now < time

theorem Entry.IsScheduled.le_dedupEnd {entry : Entry} (h : entry.IsScheduled) {window : Window}
    {due time : Nat} (hx : entry.expiry = some (window, due)) (ht : entry.dedupEnd? = some time) :
    due ≤ time := by
  obtain ⟨⟨w, t, hx', hdeferred⟩, -⟩ := h
  obtain ⟨rfl, rfl⟩ := Prod.mk.inj (Option.some_inj.mp (hx'.symm.trans hx))
  rw [dedupEnd?, hx] at ht
  cases w with
  | dedup => exact (Option.some_inj.mp ht).le
  | reuse =>
    obtain ⟨d, hfilter, rfl⟩ := Option.map_eq_some_iff.mp ht
    exact hdeferred d (Option.filter_eq_some_iff.mp hfilter).1

theorem Entry.MustStay.awaitsDuplicates {entry : Entry} {now : Nat} (h : entry.MustStay now)
    (hp : entry.isPending = false) : entry.AwaitsDuplicates := by
  obtain hpending | ⟨hm, time, ht, -⟩ := h
  · rw [hp] at hpending
    cases hpending
  · exact ⟨hm, by rw [ht, Option.isSome_some]⟩

namespace State

variable {s u : State} {key : EntryKey} {entry : Entry} {now : Nat}

/-- The operation schedules an entry, which leaves the cache as it is before it is trimmed. -/
inductive Schedules (s : State) (now : Nat) : Operation → State → Prop
  | store {r : CommandRequest} {response : Message} {o : StoreOptions} {key : EntryKey}
    {entry : Entry} {requestBytes size : Nat} {first : Retention} {rest : List Retention}
    (he : s.entry? r.correlation = some (key, entry)) (hp : entry.isPending = true)
    (hbytes : requestBytes = entry.content.elim 0 (·.payload.length))
    (hsize : size = requestBytes + response.payload.length)
    (hover : o.overruns now entry = false)
    (hw : s.windows now requestBytes response.payload.length (reuseEnd now entry o) o =
      first :: rest) :
    Schedules s now (.store now r response o)
      (((s.complete key response size o).setReuseEnd entry.content key
        (reuseEnd now entry o)).schedule key first rest.head?)
  | expireOne {window : Window} {time : Nat} {key : EntryKey} {after : List (Nat × EntryKey)}
    {entry : Entry} {next : Retention} (hdue : s.nextDue? = some (window, (time, key), after))
    (hle : time ≤ now) (hg : s.entries.get? key = some entry) (hd : entry.deferred = some next)
    (hlt : now < next.endsAt) :
    Schedules s now (.expireOne now) ((s.lapse key window after).schedule key next none)

theorem Schedules.apply_eq {operation : Operation} (h : s.Schedules now operation u) :
    operation.apply s = u.trim := by
  cases h with
  | @store r response o key entry requestBytes size first rest he hp hbytes hsize hover hw =>
    subst hbytes hsize
    have hw' : (s.complete key response (entry.content.elim 0 (·.payload.length) +
        response.payload.length) o).windows now (entry.content.elim 0 (·.payload.length))
        response.payload.length (reuseEnd now entry o) o = first :: rest := hw
    rw [Operation.apply, store_eq he hp]
    dsimp only
    rw [hw', if_neg (by simp [hover])]
  | @expireOne window time key after entry next hdue hle hg hd hlt =>
    rw [Operation.apply, expireOne_of_nextDue? hdue hg, if_neg (not_lt.mpr hle), State.expire, hd,
      Option.filter_some, if_pos (by simpa using hlt)]

theorem Schedules.returns {operation : Operation} (h : s.Schedules now operation u) :
    s.Returns operation := by
  cases h with
  | store he hp _ _ hover => simp [Returns, storeHalts, he, hover]
  | expireOne => trivial

theorem store_of_windows_eq_nil {r : CommandRequest} {response : Message} {o : StoreOptions}
    (he : s.entry? r.correlation = some (key, entry)) (hp : entry.isPending = true)
    (hover : o.overruns now entry = false)
    (hw : s.windows now (entry.content.elim 0 (·.payload.length)) response.payload.length
      (reuseEnd now entry o) o = []) :
    s.store now r response o = (s.complete key response
      (entry.content.elim 0 (·.payload.length) + response.payload.length) o).remove key := by
  have hw' : (s.complete key response (entry.content.elim 0 (·.payload.length) +
      response.payload.length) o).windows now (entry.content.elim 0 (·.payload.length))
      response.payload.length (reuseEnd now entry o) o = [] := hw
  rw [store_eq he hp]
  dsimp only
  rw [hw', if_neg (by simp [hover])]

/-- Takes the element of least benefit out of the queue, and evicts its entry if it is live. -/
def evictFront (s : State) : State :=
  match s.benefitQueue with
  | [] => s
  | (b, key) :: rest =>
    { (if s.hasBenefit b key then s.remove key else s) with benefitQueue := rest }

theorem remove_setBenefitQueue (s : State) (key : EntryKey) (queue : List (Benefit × EntryKey)) :
    ({ s with benefitQueue := queue } : State).remove key =
      { s.remove key with benefitQueue := queue } := by
  unfold State.remove
  dsimp only
  split
  · rfl
  · split <;> rfl

theorem trimFrom_eq (queue : List (Benefit × EntryKey)) (s : State) :
    trimFrom queue s = ({ s with benefitQueue := queue } : State).trim := by
  have hany : ∀ queue s other,
      trimFrom queue s = trimFrom queue { s with benefitQueue := other } := by
    intro queue
    induction queue with
    | nil => exact fun _ _ => rfl
    | cons element rest ih =>
      obtain ⟨b, key⟩ := element
      intro s other
      have hb : ({ s with benefitQueue := other } : State).hasBenefit b key = s.hasBenefit b key :=
        rfl
      have ho : ({ s with benefitQueue := other } : State).isOver = s.isOver := rfl
      have hr := s.remove_setBenefitQueue key other
      rw [trimFrom, trimFrom, hb, ho, hr]
      split
      · split
        · exact ih _ other
        · exact ih _ other
      · rfl
  exact hany queue s queue

theorem trim_of_not_isOver (h : s.isOver = false) : s.trim = s := by
  unfold trim
  cases hq : s.benefitQueue with
  | nil => rw [trimFrom, ← hq]
  | cons element rest =>
    obtain ⟨b, key⟩ := element
    rw [trimFrom, if_neg (by simp [h]), ← hq]

theorem trim_of_isOver (h : s.isOver = true) : s.trim = s.evictFront.trim := by
  unfold trim
  cases hq : s.benefitQueue with
  | nil =>
    have he : s.evictFront = s := by rw [evictFront, hq]
    rw [he, hq]
  | cons element rest =>
    obtain ⟨b, key⟩ := element
    have he : s.evictFront = { (if s.hasBenefit b key then s.remove key else s) with
        benefitQueue := rest } := by rw [evictFront, hq]
    rw [trimFrom, if_pos h, trimFrom_eq, he]
    rfl

theorem benefitQueue_evictFront (s : State) : s.evictFront.benefitQueue = s.benefitQueue.tail := by
  unfold evictFront
  split
  next hq => rw [hq, List.tail_nil]
  next hq => rw [hq, List.tail_cons]

theorem trim_induction {P : State → Prop} (hround : ∀ s, s.isOver = true → P s → P s.evictFront)
    (h : P s) : P s.trim := by
  induction hq : s.benefitQueue generalizing s with
  | nil =>
    have ht : s.trim = s := by rw [trim, hq, trimFrom, ← hq]
    exact ht.symm ▸ h
  | cons element rest ih =>
    cases ho : s.isOver with
    | false => exact (trim_of_not_isOver ho).symm ▸ h
    | true =>
      rw [trim_of_isOver ho]
      exact ih (hround s ho h) (by rw [benefitQueue_evictFront, hq]; rfl)

theorem benefitQueue_of_isOver_trim (h : s.trim.isOver = true) : s.trim.benefitQueue = [] := by
  induction hq : s.benefitQueue generalizing s with
  | nil => rw [trim, hq, trimFrom]
  | cons element rest ih =>
    cases ho : s.isOver with
    | false =>
      rw [trim_of_not_isOver ho, ho] at h
      cases h
    | true =>
      rw [trim_of_isOver ho] at h ⊢
      exact ih h (by rw [benefitQueue_evictFront, hq, List.tail_cons])

/-- The limits of the cache are kept, or none of its entries may be evicted. -/
def IsBounded (s : State) (now : Nat) : Prop :=
  s.size ≤ s.config.maxEntries ∧ s.totalSize ≤ s.config.maxBytes ∨
    ∀ key entry, s.entries.get? key = some entry → entry.MustStay now

/-- Once the queue has been worked through, an entry that may be evicted is left for two reasons: its
benefit is not a number, or its window for duplicates is over and expiry has not come to it yet. -/
theorem Timed.isBounded_iff (h : s.Timed) (hempty : s.isOver = true → s.benefitQueue = [])
    (hn : ∀ key entry, s.entries.get? key = some entry → ¬entry.IsStranded) (now : Nat) :
    s.IsBounded now ↔ (s.isOver = true → ∀ key entry, s.entries.get? key = some entry →
      (∀ b, entry.benefit = some b → b.isNaN = false) ∧
        (entry.isMandatory = true → ∀ time, entry.dedupEnd? = some time → now < time)) := by
  have hover : s.isOver = false ↔
      s.size ≤ s.config.maxEntries ∧ s.totalSize ≤ s.config.maxBytes := by
    simp [isOver]
  have hscheduled : ∀ {key entry}, s.entries.get? key = some entry → entry.isPending = false →
      entry.IsScheduled := fun hg hp => h.scheduled hg fun hx => hn _ _ hg ⟨hp, hx⟩
  rw [IsBounded, ← hover]
  constructor
  · rintro (ho | hall) hover' key entry hg
    · rw [ho] at hover'
      cases hover'
    obtain hp | ⟨hm, time, ht, hlt⟩ := hall key entry hg
    · obtain ⟨hbenefit, hexpiry⟩ := h.wellFormed.unscheduled hg hp
      obtain ⟨-, hdeferred⟩ := h.agrees.pending hg hp
      simp [hbenefit, Entry.dedupEnd?, hexpiry, hdeferred]
    · refine ⟨fun b hb => ?_, fun _ t ht' => Option.some_inj.mp (ht.symm.trans ht') ▸ hlt⟩
      -- an entry that must stay has no benefit at all
      have hp := h.wellFormed.isPending_of_benefit hg hb
      have hnone := (hscheduled hg hp).benefit_eq_none_iff.mpr ⟨hm, by rw [ht, Option.isSome_some]⟩
      rw [hb] at hnone
      cases hnone
  · intro hleft
    cases ho : s.isOver with
    | false => exact .inl rfl
    | true =>
      refine .inr fun key entry hg => ?_
      obtain ⟨hnumber, hahead⟩ := hleft ho key entry hg
      cases hp : entry.isPending with
      | true => exact .inl hp
      | false =>
        have hnone : entry.benefit = none := by
          -- a benefit that is a number would still have its element in the queue
          by_contra hne
          obtain ⟨b, hb⟩ := Option.ne_none_iff_exists'.mp hne
          have hm := h.covers hg hb (hnumber b hb)
          rw [hempty ho] at hm
          cases hm
        obtain ⟨hm, hd⟩ := (hscheduled hg hp).benefit_eq_none_iff.mp hnone
        obtain ⟨time, ht⟩ := Option.isSome_iff_exists.mp hd
        exact .inr ⟨hm, time, ht, hahead hm time ht⟩

/-- After any run whose operations come to their ends and any operation that schedules an entry, the
cache is bounded exactly if it is not left over a limit with a benefit that is not a number, or with
an overdue response that was kept for duplicates. So it is bounded if no response was stored that
counts nothing and no entry is overdue. -/
theorem bounded_after_scheduling_iff (config : Config) (operations : List Operation) (now : Nat)
    (operation : Operation) (u : State) (hr : ({ config } : State).AllReturn operations)
    (h : (({ config } : State).run operations).Schedules now operation u) :
    let s := operation.apply (({ config } : State).run operations)
    (s.IsBounded now ↔ (s.isOver = true → ∀ key entry, s.entries.get? key = some entry →
      (∀ b, entry.benefit = some b → b.isNaN = false) ∧
        (entry.isMandatory = true → ∀ time, entry.dedupEnd? = some time → now < time))) ∧
    (({ config } : State).StoresSomething (operations ++ [operation]) →
      (∀ time ∈ s.deadlines, now < time) → s.IsBounded now) := by
  intro s
  have htimed : s.Timed := ((Timed.empty config).run operations).apply operation
  have hempty : s.isOver = true → s.benefitQueue = [] := fun ho => by
    have heq : s = u.trim := h.apply_eq
    rw [heq] at ho ⊢
    exact benefitQueue_of_isOver_trim ho
  have hrun : s = ({ config } : State).run (operations ++ [operation]) := by
    rw [run_append]
    rfl
  have hn : ∀ key entry, s.entries.get? key = some entry → ¬entry.IsStranded := by
    have hreturn : ({ config } : State).AllReturn (operations ++ [operation]) :=
      allReturn_append.mpr ⟨hr, h.returns, trivial⟩
    rw [hrun]
    exact fun key entry => not_isStranded_run config hreturn
  have hiff := htimed.isBounded_iff hempty hn now
  refine ⟨hiff, fun hsomething hahead => hiff.mpr fun _ key entry hg => ⟨fun b => ?_, ?_⟩⟩
  · rw [hrun] at hg
    exact ((WellFormed.empty config).hasNumbers_run (fun ho => by simp [Slots.get?] at ho)
      hsomething hg).benefit b
  · intro hm time ht
    -- a pending entry has no window at all
    have hx : entry.expiry ≠ none := fun hx => by
      have hp : entry.isPending = true := by
        by_contra hp
        exact hn key entry hg ⟨by simpa using hp, hx⟩
      simp [Entry.dedupEnd?, hx, (htimed.agrees.pending hg hp).2] at ht
    obtain ⟨⟨window, due⟩, hdue⟩ := Option.ne_none_iff_exists'.mp hx
    exact (hahead due ⟨key, entry, window, hg, hdue⟩).trans_le
      ((htimed.scheduled hg hx).le_dedupEnd hdue ht)

/-- A cache with room for nothing evicts a response that may be evicted as soon as it is stored. -/
theorem bounded_without_room :
    let r : CommandRequest := ⟨"cmd", "inv", "t", [1], [2]⟩
    let s := ({ config := { maxEntries := 0, maxBytes := 0 } } : State).run
      [.retrieve 0 r false false,
        .store 0 r { topic := "reply", payload := [3] } ⟨true, 10, ⟨0⟩, 0⟩]
    s.IsBounded 0 := by
  intro r s
  let before := ({ config := { maxEntries := 0, maxBytes := 0 } } : State).run
    [.retrieve 0 r false false]
  have hentry : before.entry? r.correlation = some (⟨0, 0⟩, ⟨r.correlation, none, true, 0, true,
    none, none, none⟩) := rfl
  have hahead : 0 < (⟨true, 10, ⟨0⟩, 0⟩ : StoreOptions).expiresAt := by decide
  obtain ⟨first, rest, hw, -⟩ := before.windows_dedup hahead 0 1 0
  refine (bounded_after_scheduling_iff { maxEntries := 0, maxBytes := 0 }
    [.retrieve 0 r false false] 0
    (.store 0 r { topic := "reply", payload := [3] } ⟨true, 10, ⟨0⟩, 0⟩) _ ⟨trivial, trivial⟩
    (.store hentry rfl rfl rfl rfl hw)).2 ⟨not_false, ?_, trivial⟩ ?_
  -- executing a command is taken to cost ten milliseconds at least
  · rintro ⟨_, _, _, _, _, _, ⟨hfixed, -⟩, -⟩
    exact absurd hfixed (by decide)
  · have hnone : s.entries.entries = [] := by decide +kernel
    rintro time ⟨key, entry, window, hg, -⟩
    have hg : s.entries.get? key = some entry := hg
    rw [Slots.get?, hnone] at hg
    cases hg

/-- A benefit that is not a number keeps an entry that may be evicted in a cache with room for
none. -/
theorem nan_benefit_exceeds_limits :
    let r : CommandRequest := ⟨"cmd", "inv", "t", [1], []⟩
    let before := ({ config := { maxEntries := 0, unitBytes := 0, fixedMillis := 0 } } : State).run
      [.retrieve 0 r false false]
    let store : Operation := .store 0 r { topic := "reply" } ⟨true, 10000, ⟨0⟩, 0⟩
    (∃ u, before.Schedules 0 store u) ∧ ¬(store.apply before).IsBounded 0 := by
  intro r before store
  have hentry : before.entry? r.correlation = some (⟨0, 0⟩, ⟨r.correlation, none, true, 0, true,
    none, none, none⟩) := rfl
  have hahead : 0 < (⟨true, 10000, ⟨0⟩, 0⟩ : StoreOptions).expiresAt := by decide
  obtain ⟨first, rest, hw, -⟩ := before.windows_dedup hahead 0 0 0
  refine ⟨⟨_, .store hentry rfl rfl rfl rfl hw⟩, ?_⟩
  have hleft : (store.apply before).config.maxEntries < (store.apply before).size ∧
      ((store.apply before).entries.get? ⟨0, 0⟩).map (fun entry =>
        (entry.isPending, entry.isMandatory)) = some (false, false) := by decide +kernel
  obtain ⟨hover, hentry⟩ := hleft
  obtain ⟨entry, hg, heq⟩ := Option.map_eq_some_iff.mp hentry
  obtain ⟨hp, hm⟩ := Prod.mk.inj heq
  rintro (⟨hle, -⟩ | hall)
  · exact absurd hle (not_le.mpr hover)
  · obtain ⟨hmandatory, -⟩ := (hall _ entry hg).awaitsDuplicates hp
    rw [hm] at hmandatory
    cases hmandatory

/-- As long as expiry has not come to a response that was kept for duplicates, it stays in a cache
with room for none, although its window is over. -/
theorem overdue_response_exceeds_limits :
    let r : CommandRequest := ⟨"cmd", "inv", "t", [1], []⟩
    let r' : CommandRequest := ⟨"cmd", "inv", "t", [2], []⟩
    let before := ({ config := { maxEntries := 0 } } : State).run
      [.retrieve 0 r false false, .store 0 r { topic := "reply" } ⟨false, 10, ⟨0⟩, 0⟩,
        .retrieve 20 r' false false]
    let store : Operation := .store 20 r' { topic := "reply" } ⟨true, 30, ⟨0⟩, 0⟩
    (∃ u, before.Schedules 20 store u) ∧ ¬(store.apply before).IsBounded 20 := by
  intro r r' before store
  have hentry : before.entry? r'.correlation = some (⟨1, 1⟩, ⟨r'.correlation, none, true, 0, true,
    none, none, none⟩) := rfl
  have hahead : 20 < (⟨true, 30, ⟨0⟩, 0⟩ : StoreOptions).expiresAt := by decide
  obtain ⟨first, rest, hw, -⟩ := before.windows_dedup hahead 0 0 20
  refine ⟨⟨_, .store hentry rfl rfl rfl rfl hw⟩, ?_⟩
  have hleft : (store.apply before).config.maxEntries < (store.apply before).size ∧
      ((store.apply before).entries.get? ⟨0, 0⟩).map (fun entry =>
        (entry.isPending, entry.dedupEnd?)) = some (false, some 10) := by decide +kernel
  obtain ⟨hover, hentry⟩ := hleft
  obtain ⟨entry, hg, heq⟩ := Option.map_eq_some_iff.mp hentry
  obtain ⟨hp, hd⟩ := Prod.mk.inj heq
  rintro (⟨hle, -⟩ | hall)
  · exact absurd hle (not_le.mpr hover)
  · obtain hpending | ⟨-, time, ht, hlt⟩ := hall _ entry hg
    · rw [hp] at hpending
      cases hpending
    · rw [hd, Option.some_inj] at ht
      omega

end State

end CommandBus.Cache
