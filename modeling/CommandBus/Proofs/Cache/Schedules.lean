import CommandBus.Proofs.Cache.Arising
import Mathlib

namespace CommandBus.Cache

/-- The end of the window for duplicates, as long as the entry is in that window or is to come to
it. -/
def Entry.dedupEnd? (entry : Entry) : Option Nat :=
  match entry.expiry with
  | some (.dedup, time) => some time
  | _ => (entry.deferred.filter (·.window = .dedup)).map (·.endsAt)

/-- The response to a command that is not idempotent, before its window for duplicates is over. -/
def Entry.AwaitsDuplicates (entry : Entry) : Prop :=
  entry.isMandatory = true ∧ entry.dedupEnd?.isSome = true

/-- The entry is scheduled for a window that ends no later than the one deferred, and may not be
evicted exactly if duplicates may still come. -/
structure Entry.IsScheduled (entry : Entry) : Prop where
  exists_expiry : ∃ window time, entry.expiry = some (window, time) ∧
    ∀ d, entry.deferred = some d → time ≤ d.endsAt
  benefit_eq_none_iff : entry.benefit = none ↔ entry.AwaitsDuplicates

def IsSorted (queue : List (Nat × EntryKey)) : Prop :=
  queue.Pairwise fun a b => a.1 ≤ b.1

namespace IsSorted

variable {queue : List (Nat × EntryKey)}

theorem insertBy (h : IsSorted queue) (element : Nat × EntryKey) :
    IsSorted (insertBy timeLe element queue) := by
  refine pairwise_insertBy (R := fun a b : Nat × EntryKey => a.1 ≤ b.1) le_trans (fun hle => ?_)
    (fun hgt => ?_) element h
  · simp only [timeLe, Bool.or_eq_true, Bool.and_eq_true, decide_eq_true_eq, beq_iff_eq] at hle
    omega
  · simp only [timeLe, Bool.or_eq_false_iff, decide_eq_false_iff_not] at hgt
    omega

theorem dropWhile (h : IsSorted queue) (p : Nat × EntryKey → Bool) :
    IsSorted (queue.dropWhile p) :=
  h.sublist (List.dropWhile_sublist p)

theorem front_le {front other : Nat × EntryKey} {rest : List (Nat × EntryKey)}
    (h : IsSorted (front :: rest)) (hm : other ∈ front :: rest) : front.1 ≤ other.1 := by
  obtain rfl | hm := List.mem_cons.mp hm
  · exact le_rfl
  · exact (List.pairwise_cons.mp h).1 other hm

end IsSorted

namespace State

variable {s : State} {key : EntryKey} {entry : Entry} {now : Nat}

theorem windows_sorted (s : State) (now requestBytes responseBytes reuseUntil : Nat)
    (o : StoreOptions) :
    (s.windows now requestBytes responseBytes reuseUntil o).Pairwise (·.endsAt ≤ ·.endsAt) ∧
      ∀ d ∈ s.windows now requestBytes responseBytes reuseUntil o, now < d.endsAt := by
  refine ⟨?_, fun d hd => of_decide_eq_true (List.mem_filter.mp hd).2⟩
  unfold windows
  dsimp only
  refine List.Pairwise.filter _ ?_
  split
  next hlt => simpa using hlt.le
  next hlt => simpa using hlt

theorem isScheduled_scheduled {first : Retention} {deferred : Option Retention}
    (hd : ∀ d, deferred = some d → first.endsAt ≤ d.endsAt) :
    (scheduled first deferred entry).IsScheduled := by
  refine ⟨⟨first.window, first.endsAt, rfl, hd⟩, ?_⟩
  -- the deferred window, if there is one, counts for a first window of the other kind only
  obtain ⟨window, time, benefit⟩ := first
  rw [Entry.AwaitsDuplicates, Entry.dedupEnd?]
  cases window with
  | dedup => simp [scheduled, canEvict]
  | reuse =>
    cases deferred with
    | none => simp [scheduled, canEvict]
    | some d =>
      cases hw : d.window <;> simp [scheduled, canEvict, Option.filter_some, hw]

/-- What is added to soundness when it comes to times: queues are sorted, and entries that wait in
one wait for the right time. -/
structure Timed (s : State) : Prop extends Sound s where
  sorted : ∀ window, IsSorted (s.queue window)
  scheduled : ∀ {key entry}, s.entries.get? key = some entry → entry.expiry ≠ none →
    entry.IsScheduled

theorem WellFormed.isScheduled_of_arises (hs : s.WellFormed) {operation : Operation}
    (h : ∀ {k other}, s.entries.get? k = some other → other.expiry ≠ none → other.IsScheduled)
    (hg : (operation.apply s).entries.get? key = some entry) (hx : entry.expiry ≠ none) :
    entry.IsScheduled := by
  cases hs.arises hg with
  | kept hg => exact h hg hx
  | registered => exact absurd rfl hx
  | stranded he hp => exact absurd (hs.unscheduled (hs.entry?_eq_some.mp he).1 hp).2 hx
  | @completed now r response o _ _ _ requestBytes first rest he hpending _ hw =>
    refine isScheduled_scheduled fun d hd => ?_
    obtain ⟨hsorted, -⟩ := s.windows_sorted now requestBytes response.payload.length
      (reuseEnd now _ o) o
    rw [hw] at hsorted
    exact (List.pairwise_cons.mp hsorted).1 d (List.mem_of_mem_head? hd)
  | moved => exact isScheduled_scheduled nofun

theorem queue_trimFrom (queue : List (Benefit × EntryKey)) (s : State) (window : Window) :
    (trimFrom queue s).queue window = s.queue window := by
  induction queue generalizing s with
  | nil => cases window <;> rfl
  | cons element rest ih =>
    obtain ⟨b, key⟩ := element
    unfold trimFrom
    split
    · rw [ih]
      split
      · exact queue_remove s key window
      · rfl
    · cases window <;> rfl

theorem sorted_schedule (h : ∀ window, IsSorted (s.queue window))
    (hg : s.entries.get? key = some entry) (first : Retention) (deferred : Option Retention)
    (window : Window) : IsSorted ((s.schedule key first deferred).trim.queue window) := by
  rw [State.trim, queue_trimFrom, queue_schedule hg]
  split
  · exact (h window).insertBy _
  · exact h window

theorem WellFormed.sorted_store (hs : s.WellFormed) (h : ∀ window, IsSorted (s.queue window))
    (r : CommandRequest) (response : Message) (o : StoreOptions) (window : Window) :
    IsSorted ((s.store now r response o).queue window) := by
  by_cases hex : ∃ k, s.Reserves r.correlation k
  · obtain ⟨key, hk⟩ := hex
    obtain ⟨entry, he, hp⟩ := hk.entry? hs
    obtain ⟨hg, -⟩ := hs.entry?_eq_some.mp he
    obtain ⟨requestBytes, responseBytes, hstore⟩ := store_of_pending he hp now response o
    generalize requestBytes + responseBytes = size at hstore
    have hcomplete : ∀ window, (s.complete key response size o).queue window = s.queue window :=
      fun window => by cases window <;> rfl
    have hset : ∀ window, ((s.complete key response size o).setReuseEnd entry.content key
        (reuseEnd now entry o)).queue window = s.queue window := fun window => by
      cases window <;> rfl
    rw [hstore]
    split
    next => exact hcomplete window ▸ h window
    split
    next =>
      rw [queue_remove, hcomplete]
      exact h window
    next first rest _ =>
      have hget : ((s.complete key response size o).setReuseEnd entry.content key
          (reuseEnd now entry o)).entries.get? key = _ := get?_complete hg response size o
      exact sorted_schedule (fun window => hset window ▸ h window) hget first rest.head? window
  · rw [hs.store_of_not_reserves hex]
    exact h window

theorem sorted_expireOne (h : ∀ window, IsSorted (s.queue window)) (now : Nat) (window : Window) :
    IsSorted ((s.expireOne now).2.queue window) := by
  cases hdue : s.nextDue? with
  | none =>
    rw [State.expireOne, hdue]
    exact h window
  | some due =>
    obtain ⟨w, ⟨time, key⟩, after⟩ := due
    obtain ⟨entry, hg, -⟩ := expiry_of_isLive (nextDue?_isLive hdue)
    rw [expireOne_of_nextDue? hdue hg]
    split
    next => exact h window
    next =>
      have hlapse : ∀ window, IsSorted ((s.lapse key w after).queue window) := fun window => by
        rw [queue_lapse]
        split
        · have hlive := (h w).dropWhile (!s.isLive w ·)
          rw [← liveQueue, liveQueue_of_nextDue? hdue] at hlive
          exact hlive.of_cons
        · exact h window
      unfold State.expire
      split
      next next _ => exact sorted_schedule hlapse (get?_lapse hg w after) next none window
      next => exact queue_remove (s.lapse key w after) key window ▸ hlapse window

theorem WellFormed.sorted_apply (hs : s.WellFormed) (h : ∀ window, IsSorted (s.queue window))
    (operation : Operation) (window : Window) : IsSorted ((operation.apply s).queue window) := by
  cases operation with
  | retrieve now r cacheable acrossInvokers =>
    obtain ⟨p, hr⟩ | ⟨-, hr⟩ := s.retrieve_cases now r cacheable acrossInvokers <;>
      rw [Operation.apply, hr]
    · exact h window
    · exact (queue_register s _ _ window).symm ▸ h window
  | store now r response o => exact hs.sorted_store h r response o window
  | abandon r =>
    obtain ⟨k, hk⟩ | hn := em (∃ k, s.Reserves r.correlation k)
    · rw [Operation.apply, hk.abandon_eq hs, queue_remove]
      exact h window
    · rw [Operation.apply, hs.abandon_of_not_reserves hn]
      exact h window
  | trim => exact (queue_trimFrom s.benefitQueue s window).symm ▸ h window
  | expireOne now => exact sorted_expireOne h now window
  | nextDeadline => exact queue_dropStale s window ▸ (h window).dropWhile _
  | setConfig config =>
    have hq : (Operation.apply (.setConfig config) s).queue window = s.queue window := by
      cases window <;> rfl
    exact hq.symm ▸ h window

theorem Timed.empty (config : Config) : Timed { config } where
  toSound := .empty config
  sorted window := by cases window <;> exact .nil
  scheduled h := by simp [Slots.get?] at h

theorem Timed.wellFormed (h : s.Timed) : s.WellFormed :=
  h.agrees.wellFormed

theorem Timed.apply (h : s.Timed) (operation : Operation) : (operation.apply s).Timed where
  toSound := (h.toSound.apply operation).1
  sorted := h.wellFormed.sorted_apply h.sorted operation
  scheduled := h.wellFormed.isScheduled_of_arises h.scheduled

theorem Timed.run (h : s.Timed) (operations : List Operation) : (s.run operations).Timed := by
  induction operations generalizing s with
  | nil => exact h
  | cons operation rest ih => exact ih (h.apply operation)

def deadlines (s : State) : Set Nat :=
  { time | ∃ key entry window, s.entries.get? key = some entry ∧
    entry.expiry = some (window, time) }

theorem Agrees.mem_liveQueue (h : s.Agrees)
    (hg : s.entries.get? key = some entry) {window : Window} {time : Nat}
    (hx : entry.expiry = some (window, time)) : (time, key) ∈ s.liveQueue window := by
  have hm : (time, key) ∈ (s.liveQueue window).filter (·.2 = key) := by
    rw [h.filter_liveQueue hg, (h.elements_perm hg window).mem_iff, Entry.elements, hx]
    simp
  exact (List.mem_filter.mp hm).1

theorem Timed.nextDue?_le (h : s.Timed) {window w : Window} {element other : Nat × EntryKey}
    {after : List (Nat × EntryKey)} (hdue : s.nextDue? = some (window, element, after))
    (hm : other ∈ s.liveQueue w) : element.1 ≤ other.1 := by
  have hfront : ∀ {w front after}, s.liveQueue w = front :: after → other ∈ s.liveQueue w →
      front.1 ≤ other.1 := fun {w _ _} hq hm => by
    have hsorted := (h.sorted w).dropWhile (!s.isLive w ·)
    rw [← liveQueue, hq] at hsorted
    exact hsorted.front_le (hq ▸ hm)
  unfold nextDue? at hdue
  split at hdue
  next dedup _ reuse _ hd hr =>
    split at hdue <;> cases hdue
    next hlt =>
      cases w with
      | dedup => exact hlt.le.trans (hfront hd hm)
      | reuse => exact hfront hr hm
    next hlt =>
      cases w with
      | dedup => exact hfront hd hm
      | reuse => exact (not_lt.mp hlt).trans (hfront hr hm)
  next hd hr =>
    cases hdue
    cases w with
    | dedup => exact hfront hd hm
    | reuse => exact absurd (hr ▸ hm) List.not_mem_nil
  next hd hr =>
    cases hdue
    cases w with
    | dedup => exact absurd (hd ▸ hm) List.not_mem_nil
    | reuse => exact hfront hr hm
  next => cases hdue

theorem liveQueue_of_nextDue?_eq_none (h : s.nextDue? = none) (window : Window) :
    s.liveQueue window = [] := by
  unfold nextDue? at h
  split at h
  next => split at h <;> cases h
  next => cases h
  next => cases h
  next hd hr => cases window <;> assumption

theorem Timed.nextDeadline?_eq_some_iff (h : s.Timed) {time : Nat} :
    s.nextDeadline? = some time ↔ IsLeast s.deadlines time := by
  have hleast : ∀ {t}, s.nextDeadline? = some t → IsLeast s.deadlines t := by
    intro t ht
    obtain ⟨⟨window, ⟨t', key⟩, after⟩, hdue, heq⟩ := Option.map_eq_some_iff.mp ht
    obtain rfl : t' = t := heq
    obtain ⟨entry, hg, hx⟩ := expiry_of_isLive (nextDue?_isLive hdue)
    refine ⟨⟨key, entry, window, hg, hx⟩, ?_⟩
    rintro t ⟨k, other, w, ho, hxo⟩
    exact h.nextDue?_le hdue (h.agrees.mem_liveQueue ho hxo)
  refine ⟨hleast, fun ht => ?_⟩
  cases hn : s.nextDeadline? with
  | some t => rw [(hleast hn).unique ht]
  | none =>
    obtain ⟨⟨key, entry, window, hg, hx⟩, -⟩ := ht
    have hm := h.agrees.mem_liveQueue hg hx
    rw [liveQueue_of_nextDue?_eq_none (Option.map_eq_none_iff.mp hn)] at hm
    cases hm

end State

end CommandBus.Cache
