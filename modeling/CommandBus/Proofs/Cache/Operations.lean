import CommandBus.Proofs.Cache.Changes
import Mathlib

namespace CommandBus.Cache.State

variable {s : State} {key : EntryKey} {entry : Entry} {now : Nat}

theorem changes_trimFrom (queue : List (Benefit × EntryKey)) (h : s.WellFormed) :
    Changes s (trimFrom queue s) fun _ entry => entry.benefit = none := by
  induction queue generalizing s with
  | nil => exact Changes.mono (h.changes_congr rfl rfl rfl) fun _ _ => trivial
  | cons element rest ih =>
    obtain ⟨b, key⟩ := element
    unfold trimFrom
    split
    · have hr : Changes s (if s.hasBenefit b key then s.remove key else s)
          fun _ entry => entry.benefit = none := by
        split
        next hb =>
          refine (h.changes_remove key).mono fun hg hn => ?_
          rintro rfl
          simp [hasBenefit, hg, hn] at hb
        next => exact h.changes_refl.mono fun _ _ => trivial
      exact (hr.trans (ih hr.wellFormed)).mono fun _ hn => ⟨hn, hn⟩
    · exact Changes.mono (h.changes_congr rfl rfl rfl) fun _ _ => trivial

theorem WellFormed.changes_trim (h : s.WellFormed) :
    Changes s s.trim fun _ entry => entry.benefit = none :=
  changes_trimFrom _ h

theorem setQueue_entries (s : State) (elements : List (Nat × EntryKey)) (window : Window) :
    (s.setQueue elements window).entries = s.entries := by
  cases window <;> rfl

theorem setQueue_byCorrelation (s : State) (elements : List (Nat × EntryKey)) (window : Window) :
    (s.setQueue elements window).byCorrelation = s.byCorrelation := by
  cases window <;> rfl

theorem setQueue_promises (s : State) (elements : List (Nat × EntryKey)) (window : Window) :
    (s.setQueue elements window).promises = s.promises := by
  cases window <;> rfl

def scheduled (first : Retention) (deferred : Option Retention) (entry : Entry) : Entry :=
  { entry with
    expiry := some (first.window, first.endsAt)
    benefit := if canEvict entry first deferred then some first.benefit else none
    deferred }

theorem entries_schedule (hg : s.entries.get? key = some entry) (first : Retention)
    (deferred : Option Retention) :
    (s.schedule key first deferred).entries =
      s.entries.modify key fun e => { e with
        expiry := some (first.window, first.endsAt)
        benefit := if canEvict entry first deferred then some first.benefit else none
        deferred } := by
  simp only [schedule, hg]
  exact setQueue_entries ..

theorem get?_schedule (hg : s.entries.get? key = some entry) (first : Retention)
    (deferred : Option Retention) :
    (s.schedule key first deferred).entries.get? key = some (scheduled first deferred entry) := by
  rw [entries_schedule hg, Slots.get?_modify, if_pos rfl, hg]
  rfl

theorem WellFormed.changes_schedule (h : s.WellFormed)
    (hn : ∀ {entry}, s.entries.get? key = some entry → entry.isPending = false)
    (first : Retention) (deferred : Option Retention) :
    Changes s (s.schedule key first deferred) fun k _ => k ≠ key := by
  cases hg : s.entries.get? key with
  | none =>
    rw [schedule, hg]
    exact h.changes_refl.mono fun _ _ => trivial
  | some entry =>
    refine h.changes_modify ?_ hn (entries_schedule hg first deferred) ?_ ?_
    · exact fun _ => ⟨rfl, rfl, rfl⟩
    · simp only [schedule, hg]
      exact setQueue_byCorrelation ..
    · simp only [schedule, hg]
      exact setQueue_promises ..

theorem retrieve_of_key? {r : CommandRequest} (hk : s.key? r.correlation = some key) (now : Nat)
    (cacheable acrossInvokers : Bool) :
    s.retrieve now r cacheable acrossInvokers = (some key.serial, s) := by
  rw [retrieve, hk]

theorem retrieve_cases (s : State) (now : Nat) (r : CommandRequest)
    (cacheable acrossInvokers : Bool) :
    (∃ p, s.retrieve now r cacheable acrossInvokers = (some p, s)) ∨
      s.key? r.correlation = none ∧ s.retrieve now r cacheable acrossInvokers =
        (none, s.register r.correlation
          (if cacheable then some (r.content acrossInvokers) else none)) := by
  unfold retrieve
  split
  next key hk => exact .inl ⟨_, rfl⟩
  next hk =>
    dsimp only
    split
    next key hr => exact .inl ⟨_, rfl⟩
    next => exact .inr ⟨hk, rfl⟩

/-- A promise that is found is that of the same request or, if that is allowed, of an
equivalent one. -/
theorem retrieve_eq_some {r : CommandRequest} {cacheable acrossInvokers : Bool} {p : Nat}
    (h : (s.retrieve now r cacheable acrossInvokers).1 = some p) :
    ∃ key, key.serial = p ∧ (s.key? r.correlation = some key ∨
      cacheable = true ∧ s.reusable? now (r.content acrossInvokers) = some key) := by
  unfold retrieve at h
  split at h
  next key hk =>
    cases h
    exact ⟨key, rfl, .inl hk⟩
  next =>
    dsimp only at h
    split at h <;> cases h
    next key hr =>
      cases cacheable
      · cases hr
      · exact ⟨key, rfl, .inr ⟨rfl, hr⟩⟩

theorem isSome_get?_of_reusable? {content : Content}
    (h : s.reusable? now content = some key) : ∃ entry, s.entries.get? key = some entry := by
  unfold reusable? at h
  split at h
  · split at h <;> cases h
    next hc =>
      simp only [Bool.and_eq_true] at hc
      exact Option.isSome_iff_exists.mp hc.2
  · cases h

theorem WellFormed.changes_retrieve (h : s.WellFormed) (now : Nat) (r : CommandRequest)
    (cacheable acrossInvokers : Bool) :
    Changes s (s.retrieve now r cacheable acrossInvokers).2 fun _ _ => True := by
  obtain ⟨p, hr⟩ | ⟨hc, hr⟩ := s.retrieve_cases now r cacheable acrossInvokers <;> rw [hr]
  · exact h.changes_refl
  · exact h.changes_register hc _

theorem WellFormed.entry?_eq_some (h : s.WellFormed) {c : Correlation} :
    s.entry? c = some (key, entry) ↔
      s.entries.get? key = some entry ∧ entry.correlation = c := by
  unfold entry?
  rw [Option.bind_eq_some_iff]
  constructor
  · rintro ⟨k, hk, hm⟩
    obtain ⟨e, he, heq⟩ := Option.map_eq_some_iff.mp hm
    obtain ⟨rfl, rfl⟩ := Prod.mk.inj heq
    obtain ⟨e', he', hc⟩ := (h.key?_iff c k).mp hk
    rw [he, Option.some_inj] at he'
    exact ⟨he, he' ▸ hc⟩
  · rintro ⟨hg, rfl⟩
    exact ⟨key, h.key?_of_get? hg, by rw [hg]; rfl⟩

/-- The entries that an operation for the request leaves as they are. -/
def IsApart (r : CommandRequest) (entry : Entry) : Prop :=
  entry.correlation = r.correlation → entry.isPending = false

theorem WellFormed.changes_abandon (h : s.WellFormed) (r : CommandRequest) :
    Changes s (s.abandon r).2 fun _ entry => IsApart r entry := by
  unfold abandon
  split
  next key entry he =>
    obtain ⟨hg, hc⟩ := h.entry?_eq_some.mp he
    split
    next hp =>
      refine (h.changes_remove key).mono fun hg' hk => ?_
      rintro rfl
      rw [hg, Option.some_inj] at hg'
      subst hg'
      exact absurd (hk hc) (by simp [hp])
    next => exact h.changes_refl.mono fun _ _ => trivial
  next => exact h.changes_refl.mono fun _ _ => trivial

/-- The entry of `key` completed with a response of `size` bytes in all. -/
def complete (s : State) (key : EntryKey) (response : Message) (size : Nat) (o : StoreOptions) :
    State :=
  { s.settle key.serial (.stored response) with
    entries := s.entries.modify key fun e =>
      { e with isPending := false, size, isMandatory := !o.isIdempotent }
    totalSize := s.totalSize + size }

theorem WellFormed.changes_completed (h : s.WellFormed) (hg : s.entries.get? key = some entry)
    (response : Message) (size : Nat) (o : StoreOptions) :
    Changes s (s.complete key response size o) fun k _ => k ≠ key :=
  h.changes_complete (f := fun e =>
      { e with isPending := false, size, isMandatory := !o.isIdempotent })
    hg (fun _ => ⟨rfl, rfl, rfl⟩) (p := .stored response) (by simp) rfl rfl rfl

theorem get?_complete (hg : s.entries.get? key = some entry) (response : Message) (size : Nat)
    (o : StoreOptions) :
    (s.complete key response size o).entries.get? key =
      some { entry with isPending := false, size, isMandatory := !o.isIdempotent } := by
  have hm : (s.complete key response size o).entries.get? key = _ := s.entries.get?_modify ..
  rw [hm, if_pos rfl, hg]
  rfl

def reuseEnd (now : Nat) (entry : Entry) (o : StoreOptions) : Nat :=
  if entry.content.isSome then now + o.reusableFor else now

theorem lt_reuseEnd_of_overruns {now : Nat} {o : StoreOptions}
    (h : o.overruns now entry = true) :
    lastInstant < reuseEnd now entry o ∧ now < reuseEnd now entry o := by
  simp only [StoreOptions.overruns, Bool.and_eq_true, decide_eq_true_eq] at h
  rw [reuseEnd, if_pos h.1]
  omega

/-- What storing does with an entry that is pending: it is completed, and then scheduled if one of
its windows lies ahead, unless there is no instant at which its reuse would end. -/
theorem store_of_pending {r : CommandRequest} (he : s.entry? r.correlation = some (key, entry))
    (hp : entry.isPending = true) (now : Nat) (response : Message) (o : StoreOptions) :
    ∃ requestBytes responseBytes,
      s.store now r response o =
        if o.overruns now entry then s.complete key response (requestBytes + responseBytes) o
        else match (s.complete key response (requestBytes + responseBytes) o).windows now
          requestBytes responseBytes (reuseEnd now entry o) o with
        | [] => (s.complete key response (requestBytes + responseBytes) o).remove key
        | first :: rest =>
          (((s.complete key response (requestBytes + responseBytes) o).setReuseEnd entry.content
            key (reuseEnd now entry o)).schedule key first rest.head?).trim := by
  refine ⟨entry.content.elim 0 (·.payload.length), response.payload.length, ?_⟩
  simp only [store, he, hp]
  rfl

theorem store_of_not_pending {r : CommandRequest}
    (he : ∀ key entry, s.entry? r.correlation = some (key, entry) → entry.isPending = false)
    (now : Nat) (response : Message) (o : StoreOptions) : s.store now r response o = s := by
  unfold store
  split
  next => rfl
  next key entry h => simp [he key entry h]

/-- What storing does after it has completed the entry touches no other entry that may not be
evicted. -/
theorem WellFormed.changes_store_complete (h : s.WellFormed) {r : CommandRequest}
    (he : s.entry? r.correlation = some (key, entry)) (hp : entry.isPending = true) (now : Nat)
    (response : Message) (o : StoreOptions) :
    ∃ size, Changes (s.complete key response size o) (s.store now r response o)
      fun k other => k ≠ key ∧ other.benefit = none := by
  obtain ⟨hg, -⟩ := h.entry?_eq_some.mp he
  obtain ⟨requestBytes, responseBytes, hs⟩ := store_of_pending he hp now response o
  refine ⟨requestBytes + responseBytes, ?_⟩
  have hd := (h.changes_completed hg response (requestBytes + responseBytes) o).wellFormed
  rw [hs]
  split
  next => exact hd.changes_refl.mono fun _ _ => trivial
  split
  next => exact (hd.changes_remove key).mono fun _ hk => hk.1
  next first rest _ =>
    have hr : Changes _ ((s.complete key response (requestBytes + responseBytes) o).setReuseEnd
        entry.content key (reuseEnd now entry o)) fun _ _ => True :=
      hd.changes_congr rfl rfl rfl
    have hn : ∀ {e}, ((s.complete key response (requestBytes + responseBytes) o).setReuseEnd
        entry.content key (reuseEnd now entry o)).entries.get? key = some e →
          e.isPending = false := by
      intro e hge
      have hm := get?_complete hg response (requestBytes + responseBytes) o
      exact Option.some_inj.mp (hge.symm.trans hm) ▸ rfl
    have hsc := hr.wellFormed.changes_schedule hn first rest.head?
    exact ((hr.trans hsc).trans hsc.wellFormed.changes_trim).mono fun _ hk =>
      ⟨⟨trivial, hk.1⟩, hk.2⟩

theorem WellFormed.changes_store (h : s.WellFormed) (now : Nat) (r : CommandRequest)
    (response : Message) (o : StoreOptions) :
    Changes s (s.store now r response o) fun _ entry => IsApart r entry ∧ entry.benefit = none := by
  by_cases hex : ∃ key entry, s.entry? r.correlation = some (key, entry) ∧ entry.isPending = true
  · obtain ⟨key, entry, he, hp⟩ := hex
    obtain ⟨hg, hc⟩ := h.entry?_eq_some.mp he
    obtain ⟨size, hs⟩ := h.changes_store_complete he hp now response o
    refine ((h.changes_completed hg response size o).trans hs).mono @fun k other ho hk => ?_
    have hne : k ≠ key := by
      rintro rfl
      rw [hg, Option.some_inj] at ho
      rw [← ho] at hk
      exact absurd (hk.1 hc) (by simp [hp])
    exact ⟨hne, hne, hk.2⟩
  · rw [store_of_not_pending fun key entry he => ?_]
    · exact h.changes_refl.mono fun _ _ => trivial
    · by_contra hp
      exact hex ⟨key, entry, he, by simpa using hp⟩

theorem isLive_of_dropWhile {window : Window} {element : Nat × EntryKey}
    {after : List (Nat × EntryKey)} (h : s.liveQueue window = element :: after) :
    s.isLive window element = true := by
  have := List.head?_dropWhile_not (fun e => !s.isLive window e) (s.queue window)
  rw [liveQueue] at h
  rw [h] at this
  simpa using this

theorem liveQueue_of_nextDue? {window : Window} {element : Nat × EntryKey}
    {after : List (Nat × EntryKey)} (h : s.nextDue? = some (window, element, after)) :
    s.liveQueue window = element :: after := by
  unfold nextDue? at h
  split at h
  next hd hr =>
    split at h <;> cases h
    · exact hr
    · exact hd
  next hd _ =>
    cases h
    exact hd
  next _ hr =>
    cases h
    exact hr
  next => cases h

theorem nextDue?_isLive {window : Window} {element : Nat × EntryKey}
    {after : List (Nat × EntryKey)} (h : s.nextDue? = some (window, element, after)) :
    s.isLive window element = true :=
  isLive_of_dropWhile (liveQueue_of_nextDue? h)

theorem expiry_of_isLive {window : Window} {time : Nat} (h : s.isLive window (time, key) = true) :
    ∃ entry, s.entries.get? key = some entry ∧ entry.expiry = some (window, time) := by
  rw [isLive] at h
  cases hg : s.entries.get? key with
  | none => simp [hg] at h
  | some entry => exact ⟨entry, rfl, by simpa [hg] using h⟩

/-- The element in front of a queue is taken out, and its entry is scheduled for nothing. -/
def lapse (s : State) (key : EntryKey) (window : Window) (after : List (Nat × EntryKey)) : State :=
  let s := s.setQueue after window
  { s with entries := s.entries.modify key ({ · with expiry := none, deferred := none }) }

theorem entries_lapse (s : State) (key : EntryKey) (window : Window)
    (after : List (Nat × EntryKey)) :
    (s.lapse key window after).entries =
      s.entries.modify key ({ · with expiry := none, deferred := none }) := by
  cases window <;> rfl

/-- The entry whose time has come goes on to its deferred window, or is removed. -/
def expire (s : State) (now : Nat) (key : EntryKey) (entry : Entry) (window : Window)
    (after : List (Nat × EntryKey)) : State :=
  match entry.deferred.filter (now < ·.endsAt) with
  | some next => ((s.lapse key window after).schedule key next none).trim
  | none => (s.lapse key window after).remove key

theorem expireOne_of_nextDue? {window : Window} {time : Nat} {after : List (Nat × EntryKey)}
    (h : s.nextDue? = some (window, (time, key), after)) (hg : s.entries.get? key = some entry)
    (now : Nat) : (s.expireOne now).2 =
      if now < time then s else s.expire now key entry window after := by
  rw [expireOne, h]
  dsimp only
  split
  · rfl
  · rw [hg, Option.bind_some, expire]
    cases entry.deferred.filter (now < ·.endsAt) <;> rfl

theorem WellFormed.expireOne_cases (h : s.WellFormed) (now : Nat) :
    (s.expireOne now).2 = s ∨ ∃ key entry window after time, time ≤ now ∧
      s.entries.get? key = some entry ∧ entry.expiry = some (window, time) ∧
      entry.isPending = false ∧ (s.expireOne now).2 = s.expire now key entry window after := by
  cases hdue : s.nextDue? with
  | none =>
    rw [expireOne, hdue]
    exact .inl rfl
  | some due =>
    obtain ⟨window, ⟨time, key⟩, after⟩ := due
    obtain ⟨entry, hg, hx⟩ := expiry_of_isLive (nextDue?_isLive hdue)
    rw [expireOne_of_nextDue? hdue hg]
    split
    next => exact .inl rfl
    next hle =>
      exact .inr ⟨key, entry, window, after, time, not_lt.mp hle, hg, hx,
        h.isPending_of_expiry hg hx, rfl⟩

theorem WellFormed.changes_lapse (h : s.WellFormed) (hg : s.entries.get? key = some entry)
    (hn : entry.isPending = false) (window : Window) (after : List (Nat × EntryKey)) :
    Changes s (s.lapse key window after) fun k _ => k ≠ key := by
  refine h.changes_modify (f := ({ · with expiry := none, deferred := none }))
    (fun _ => ⟨rfl, rfl, rfl⟩) (fun he => ?_) (entries_lapse ..) (setQueue_byCorrelation ..)
    (setQueue_promises ..)
  rw [hg, Option.some_inj] at he
  exact he ▸ hn

theorem get?_lapse (hg : s.entries.get? key = some entry) (window : Window)
    (after : List (Nat × EntryKey)) :
    (s.lapse key window after).entries.get? key =
      some { entry with expiry := none, deferred := none } := by
  rw [entries_lapse, Slots.get?_modify, if_pos rfl, hg]
  rfl

theorem WellFormed.changes_expire (h : s.WellFormed) (hg : s.entries.get? key = some entry)
    (hn : entry.isPending = false) (now : Nat) (window : Window)
    (after : List (Nat × EntryKey)) :
    Changes s (s.expire now key entry window after) fun k other =>
      k ≠ key ∧ other.benefit = none := by
  have hl := h.changes_lapse hg hn window after
  unfold expire
  split
  next next _ =>
    have hsc := hl.wellFormed.changes_schedule (fun hge => by
      rw [get?_lapse hg, Option.some_inj] at hge
      exact hge ▸ hn) next none
    exact ((hl.trans hsc).trans hsc.wellFormed.changes_trim).mono fun _ hk =>
      ⟨⟨hk.1, hk.1⟩, hk.2⟩
  next => exact (hl.trans (hl.wellFormed.changes_remove key)).mono fun _ hk => ⟨hk.1, hk.1⟩

theorem WellFormed.changes_expireOne (h : s.WellFormed) (now : Nat) :
    Changes s (s.expireOne now).2 fun _ entry => entry.isPending = true := by
  obtain he | ⟨key, entry, window, after, time, -, hg, -, hn, he⟩ := h.expireOne_cases now <;>
    rw [he]
  · exact h.changes_refl.mono fun _ _ => trivial
  · refine (h.changes_expire hg hn now window after).mono fun ho hp => ⟨?_, (h.unscheduled ho hp).1⟩
    rintro rfl
    rw [hg, Option.some_inj] at ho
    rw [← ho, hn] at hp
    cases hp

theorem WellFormed.changes_config (h : s.WellFormed) (config : Config) :
    Changes s { s with config } fun _ _ => True :=
  h.changes_congr rfl rfl rfl

end CommandBus.Cache.State
