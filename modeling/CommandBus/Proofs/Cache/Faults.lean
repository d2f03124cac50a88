import CommandBus.Proofs.Cache.Coherence
import Mathlib

namespace CommandBus.Cache

/-- What operations would notice if the collections of a cache disagreed. -/
inductive Fault
  /-- A correlation leads to no entry. -/
  | lostEntry
  /-- A queue does not yield the element that was seen in front of it. -/
  | unexpectedElement
  /-- A live element belongs to no entry. -/
  | strayElement
  /-- No window lies ahead of an entry that is to be kept. -/
  | noWindow
  /-- An entry is larger than all entries together. -/
  | negativeSize
  deriving DecidableEq, Repr

namespace State

def removeChecked (s : State) (key : EntryKey) : Except Fault State :=
  match s.entries.get? key with
  | none => .ok s
  | some entry => if s.totalSize < entry.size then .error .negativeSize else .ok (s.remove key)

def trimFromChecked : List (Benefit × EntryKey) → State → Except Fault State
  | [], s => .ok { s with benefitQueue := [] }
  | (b, key) :: rest, s =>
    if s.isOver then
      if s.hasBenefit b key then (s.removeChecked key).bind fun s => trimFromChecked rest s
      else trimFromChecked rest s
    else .ok { s with benefitQueue := (b, key) :: rest }

def trimChecked (s : State) : Except Fault State :=
  trimFromChecked s.benefitQueue s

/-- That there is no instant at which reuse would end is not a matter of the collections. -/
def completeChecked (s : State) (now : Nat) (key : EntryKey) (entry : Entry) (response : Message)
    (o : StoreOptions) : Except Fault State :=
  let requestBytes := entry.content.elim 0 (·.payload.length)
  let responseBytes := response.payload.length
  let reuseUntil := reuseEnd now entry o
  let s := s.complete key response (requestBytes + responseBytes) o
  if o.overruns now entry then .ok s
  else if o.expiresAt ≤ now ∧ reuseUntil ≤ now then s.removeChecked key
  else
    match s.windows now requestBytes responseBytes reuseUntil o with
    | [] => .error .noWindow
    | first :: rest =>
      ((s.setReuseEnd entry.content key reuseUntil).schedule key first rest.head?).trimChecked

def storeChecked (s : State) (now : Nat) (r : CommandRequest) (response : Message)
    (o : StoreOptions) : Except Fault State :=
  match s.key? r.correlation with
  | none => .ok s
  | some key =>
    match s.entries.get? key with
    | none => .error .lostEntry
    | some entry =>
      if entry.isPending then s.completeChecked now key entry response o else .ok s

def abandonChecked (s : State) (r : CommandRequest) : Except Fault State :=
  match s.entry? r.correlation with
  | some (key, entry) => if entry.isPending then s.removeChecked key else .ok s
  | none => .ok s

def expireChecked (s : State) (now : Nat) (key : EntryKey) (entry : Entry) (window : Window)
    (after : List (Nat × EntryKey)) : Except Fault State :=
  match entry.deferred.filter (now < ·.endsAt) with
  | some next => ((s.lapse key window after).schedule key next none).trimChecked
  | none => (s.lapse key window after).removeChecked key

def expireOneChecked (s : State) (now : Nat) : Except Fault State :=
  match s.nextDue? with
  | none => .ok s
  | some (window, (time, key), _) =>
    if now < time then .ok s
    else
      match s.dropStale.queue window with
      | [] => .error .unexpectedElement
      | popped :: after =>
        if popped ≠ (time, key) then .error .unexpectedElement
        else
          match s.entries.get? key with
          | none => .error .strayElement
          | some entry => s.expireChecked now key entry window after

end State

theorem Benefit.equals_self {b : Benefit} (h : b.isNaN = false) : b.equals b = true := by
  simp [equals, h]

def Operation.check : Operation → State → Except Fault State
  | .store now r response o, s => s.storeChecked now r response o
  | .abandon r, s => s.abandonChecked r
  | .trim, s => s.trimChecked
  | .expireOne now, s => s.expireOneChecked now
  | operation, s => .ok (operation.apply s)

namespace State

variable {s s' : State} {key : EntryKey} {entry : Entry} {queue : List (Benefit × EntryKey)}
  {now : Nat}

/-- The collections tell the same, and each entry that may be evicted is queued for that. -/
structure Sound (s : State) : Prop where
  agrees : s.Agrees
  covers : Covers s s.benefitQueue

theorem Covers.of_entry (h : Covers s queue)
    (he : ∀ {key entry}, s'.entries.get? key = some entry → entry.benefit = none ∨
      ∃ old, s.entries.get? key = some old ∧ old.benefit = entry.benefit) : Covers s' queue := by
  intro key entry b hg hb hn
  obtain hnone | ⟨old, ho, heq⟩ := he hg
  · rw [hb] at hnone
    cases hnone
  · exact h ho (heq.trans hb) hn

theorem Covers.modify (h : Covers s queue) {f : Entry → Entry}
    (hf : ∀ e, (f e).benefit = e.benefit) (he : s'.entries = s.entries.modify key f) :
    Covers s' queue := by
  refine h.of_entry fun {k entry} hg => ?_
  rw [he, Slots.get?_modify] at hg
  split at hg
  · obtain ⟨old, ho, rfl⟩ := Option.map_eq_some_iff.mp hg
    exact .inr ⟨old, ho, (hf old).symm⟩
  · exact .inr ⟨entry, hg, rfl⟩

theorem get?_of_get?_remove {k : EntryKey} {other : Entry}
    (h : (s.remove key).entries.get? k = some other) :
    (k ≠ key ∨ s.entries.get? key = none) ∧ s.entries.get? k = some other := by
  cases hg : s.entries.get? key with
  | none =>
    rw [remove_of_none hg] at h
    exact ⟨.inr rfl, h⟩
  | some entry =>
    obtain ⟨hk, ho⟩ := (get?_remove_eq_some_iff hg).mp h
    exact ⟨.inl hk, ho⟩

theorem Covers.remove (h : Covers s queue) (key : EntryKey) : Covers (s.remove key) queue :=
  h.of_entry fun hg => .inr ⟨_, (get?_of_get?_remove hg).2, rfl⟩

theorem Covers.tail {b : Benefit} {rest : List (Benefit × EntryKey)}
    (h : Covers s ((b, key) :: rest)) :
    Covers (if s.hasBenefit b key then s.remove key else s) rest := by
  have hother : ∀ {k other c}, s.entries.get? k = some other → other.benefit = some c →
      c.isNaN = false → (k = key → s.hasBenefit b key = false) → (c, k) ∈ rest := by
    intro k other c hg hc hn hk
    obtain heq | hm := List.mem_cons.mp (h hg hc hn)
    · obtain ⟨rfl, rfl⟩ := Prod.mk.inj heq
      have hno := hk rfl
      rw [hasBenefit, hg, Option.elim_some, hc, Option.elim_some, Benefit.equals_self hn] at hno
      cases hno
    · exact hm
  split
  next hb =>
    intro k other c hg hc hn
    obtain ⟨hk, ho⟩ := get?_of_get?_remove hg
    refine hother ho hc hn fun he => absurd he (hk.resolve_right fun hnone => ?_)
    rw [hasBenefit, hnone] at hb
    cases hb
  next hb =>
    intro k other c hg hc hn
    exact hother hg hc hn fun _ => by simpa using hb

theorem Agrees.removeChecked_eq (h : s.Agrees) (key : EntryKey) :
    s.removeChecked key = .ok (s.remove key) := by
  unfold removeChecked
  cases hg : s.entries.get? key with
  | none => rw [remove_of_none hg]
  | some entry =>
    have hsum := Association.sum_filter_ne h.keys_nodup hg Entry.size
    rw [← h.totalSize_eq] at hsum
    exact if_neg (by omega)

theorem Agrees.evict (h : s.Agrees) (b : Benefit) (key : EntryKey) :
    (if s.hasBenefit b key then s.remove key else s).Agrees := by
  split
  · exact h.remove key
  · exact h

theorem Agrees.trimFromChecked_eq (h : s.Agrees)
    (queue : List (Benefit × EntryKey)) :
    trimFromChecked queue s = .ok (trimFrom queue s) := by
  induction queue generalizing s with
  | nil => rfl
  | cons element rest ih =>
    obtain ⟨b, key⟩ := element
    -- the rest is processed in the state after the element in front
    have hevict := ih (h.evict b key)
    unfold trimFromChecked trimFrom
    split
    · split at hevict
      next hb =>
        rw [if_pos hb, h.removeChecked_eq, if_pos hb]
        exact hevict
      next hb => rw [if_neg hb, if_neg hb, hevict]
    · rfl

theorem Agrees.trimChecked_eq (h : s.Agrees) : s.trimChecked = .ok s.trim :=
  h.trimFromChecked_eq _

theorem sound_trimFrom (h : s.Agrees) (hc : Covers s queue) :
    (trimFrom queue s).Sound := by
  induction queue generalizing s with
  | nil => exact ⟨h.congr_queues rfl rfl rfl rfl rfl fun window => by cases window <;> rfl, hc⟩
  | cons element rest ih =>
    obtain ⟨b, key⟩ := element
    unfold trimFrom
    split
    · exact ih (h.evict b key) hc.tail
    · exact ⟨h.congr_queues rfl rfl rfl rfl rfl fun window => by cases window <;> rfl, hc⟩

theorem Sound.trim (h : s.Sound) : s.trim.Sound :=
  sound_trimFrom h.agrees h.covers

theorem Sound.remove (h : s.Sound) (key : EntryKey) : (s.remove key).Sound :=
  ⟨h.agrees.remove key, benefitQueue_remove s key ▸ Covers.remove h.covers key⟩

theorem benefitQueue_schedule (hg : s.entries.get? key = some entry) (first : Retention)
    (deferred : Option Retention) : (s.schedule key first deferred).benefitQueue =
      if canEvict entry first deferred then insertBy benefitLe (first.benefit, key) s.benefitQueue
      else s.benefitQueue := by
  simp only [State.schedule, hg]
  cases first.window <;> split <;> rfl

theorem Covers.schedule (h : Covers s s.benefitQueue) (hg : s.entries.get? key = some entry)
    (first : Retention) (deferred : Option Retention) :
    Covers (s.schedule key first deferred) (s.schedule key first deferred).benefitQueue := by
  have hq := benefitQueue_schedule hg first deferred
  have hsub : s.benefitQueue ⊆ (s.schedule key first deferred).benefitQueue := by
    rw [hq]
    split
    · exact fun x hx => (insertBy_perm ..).mem_iff.mpr (List.mem_cons_of_mem _ hx)
    · exact fun _ hx => hx
  intro k other b ho hb hn
  by_cases hk : k = key
  · subst hk
    rw [get?_schedule hg, Option.some_inj] at ho
    rw [← ho] at hb
    obtain ⟨hevict, hbenefit⟩ := Option.ite_none_right_eq_some.mp hb
    rw [hq, if_pos hevict, Option.some_inj.mp hbenefit]
    exact (insertBy_perm ..).mem_iff.mpr List.mem_cons_self
  · rw [entries_schedule hg, Slots.get?_modify, if_neg hk] at ho
    exact hsub (h ho hb hn)

theorem Sound.complete (h : s.Sound) (hg : s.entries.get? key = some entry)
    (hp : entry.isPending = true) (response : Message) (size : Nat) (o : StoreOptions) :
    (s.complete key response size o).Sound :=
  ⟨h.agrees.complete hg hp response size o, Covers.modify (s := s) h.covers (f := fun e =>
    { e with isPending := false, size, isMandatory := !o.isIdempotent }) (fun _ => rfl) rfl⟩

theorem Sound.schedule_complete (h : s.Sound) (hg : s.entries.get? key = some entry)
    (hp : entry.isPending = true) (response : Message) (size : Nat) (o : StoreOptions) (time : Nat)
    (first : Retention) (deferred : Option Retention) :
    (((s.complete key response size o).setReuseEnd entry.content key time).schedule key first
      deferred).Sound := by
  obtain ⟨hc, hcov⟩ := h.complete hg hp response size o
  have hget := get?_complete hg response size o
  -- a pending entry has no expiry yet, so that scheduling gives it its only element
  have hx := (h.agrees.wellFormed.unscheduled hg hp).2
  exact ⟨(hc.setReuseEnd hget rfl entry.content time).schedule hget rfl hx
      (hc.endsAt_setReuseEnd hget) first deferred,
    Covers.schedule (s := (s.complete key response size o).setReuseEnd entry.content key time)
      hcov hget first deferred⟩

theorem Sound.empty (config : Config) : ({ config } : State).Sound :=
  ⟨.empty config, Covers.empty config⟩

theorem Sound.retrieve (h : s.Sound) (now : Nat) (r : CommandRequest)
    (cacheable acrossInvokers : Bool) : (s.retrieve now r cacheable acrossInvokers).2.Sound := by
  obtain ⟨p, hr⟩ | ⟨hc, hr⟩ := s.retrieve_cases now r cacheable acrossInvokers <;> rw [hr]
  · exact h
  · refine ⟨h.agrees.register hc _, Covers.of_entry (s := s) h.covers fun {k entry} hg => ?_⟩
    rw [h.agrees.wellFormed.get?_register] at hg
    split at hg
    · exact .inl (Option.some_inj.mp hg ▸ rfl)
    · exact .inr ⟨entry, hg, rfl⟩

theorem windows_eq_nil_iff (s : State) (now requestBytes responseBytes reuseUntil : Nat)
    (o : StoreOptions) : s.windows now requestBytes responseBytes reuseUntil o = [] ↔
      o.expiresAt ≤ now ∧ reuseUntil ≤ now := by
  unfold windows
  dsimp only
  split <;> simp [List.filter_eq_nil_iff, and_comm]

theorem store_eq {r : CommandRequest} (he : s.entry? r.correlation = some (key, entry))
    (hp : entry.isPending = true) (now : Nat) (response : Message) (o : StoreOptions) :
    s.store now r response o =
      let requestBytes := entry.content.elim 0 (·.payload.length)
      let responseBytes := response.payload.length
      let s := s.complete key response (requestBytes + responseBytes) o
      if o.overruns now entry then s
      else match s.windows now requestBytes responseBytes (reuseEnd now entry o) o with
      | [] => s.remove key
      | first :: rest =>
        ((s.setReuseEnd entry.content key (reuseEnd now entry o)).schedule key first
          rest.head?).trim := by
  simp only [store, he, hp]
  rfl

theorem Sound.store_pending (h : s.Sound) {r : CommandRequest}
    (he : s.entry? r.correlation = some (key, entry)) (hp : entry.isPending = true) (now : Nat)
    (response : Message) (o : StoreOptions) : (s.store now r response o).Sound ∧
      s.completeChecked now key entry response o = .ok (s.store now r response o) := by
  obtain ⟨hg, -⟩ := h.agrees.wellFormed.entry?_eq_some.mp he
  rw [store_eq he hp, completeChecked]
  dsimp only
  generalize entry.content.elim 0 (·.payload.length) = requestBytes
  have hcomplete := h.complete hg hp response (requestBytes + response.payload.length) o
  split
  next => exact ⟨hcomplete, rfl⟩
  cases hwin : (s.complete key response (requestBytes + response.payload.length) o).windows now
      requestBytes response.payload.length (reuseEnd now entry o) o with
  | nil =>
    have hlapsed := (windows_eq_nil_iff ..).mp hwin
    rw [if_pos hlapsed, hcomplete.agrees.removeChecked_eq]
    exact ⟨hcomplete.remove key, rfl⟩
  | cons first rest =>
    have hahead : ¬(o.expiresAt ≤ now ∧ reuseEnd now entry o ≤ now) := fun hlapsed => by
      rw [(windows_eq_nil_iff ..).mpr hlapsed] at hwin
      cases hwin
    have hscheduled := h.schedule_complete hg hp response
      (requestBytes + response.payload.length) o (reuseEnd now entry o) first rest.head?
    rw [if_neg hahead]
    exact ⟨hscheduled.trim, hscheduled.agrees.trimChecked_eq⟩

theorem Sound.store (h : s.Sound) (now : Nat) (r : CommandRequest) (response : Message)
    (o : StoreOptions) : (s.store now r response o).Sound ∧
      s.storeChecked now r response o = .ok (s.store now r response o) := by
  have hw := h.agrees.wellFormed
  unfold storeChecked
  cases hk : s.key? r.correlation with
  | none =>
    have he : s.entry? r.correlation = none := by rw [ entry?, hk, Option.bind_none]
    have hs : s.store now r response o = s :=
      store_of_not_pending (fun key entry hsome => by rw [he] at hsome; cases hsome) now response o
    exact ⟨by rwa [hs], by rw [hs]⟩
  | some key =>
    obtain ⟨entry, hg, hc⟩ := (hw.key?_iff r.correlation key).mp hk
    have he : s.entry? r.correlation = some (key, entry) := hw.entry?_eq_some.mpr ⟨hg, hc⟩
    simp only [hg]
    split
    next hp => exact h.store_pending he hp now response o
    next hp =>
      have hs : s.store now r response o = s := store_of_not_pending (fun k other ho => by
        rw [he, Option.some_inj] at ho
        exact (Prod.mk.inj ho).2 ▸ Bool.eq_false_iff.mpr hp) now response o
      exact ⟨by rwa [hs], by rw [hs]⟩

theorem Sound.abandon (h : s.Sound) (r : CommandRequest) : (s.abandon r).2.Sound ∧
    s.abandonChecked r = .ok (s.abandon r).2 := by
  unfold abandonChecked State.abandon
  cases s.entry? r.correlation with
  | none => exact ⟨h, rfl⟩
  | some found =>
    obtain ⟨key, entry⟩ := found
    dsimp only
    split
    · exact ⟨h.remove key, h.agrees.removeChecked_eq key⟩
    · exact ⟨h, rfl⟩

theorem Covers.lapse (h : Covers s s.benefitQueue) (key : EntryKey) (window : Window)
    (after : List (Nat × EntryKey)) :
    Covers (s.lapse key window after) (s.lapse key window after).benefitQueue := by
  obtain ⟨-, -, -, -, hqueue⟩ := s.lapse_frame key window after
  exact hqueue ▸ Covers.modify (s := s) (f := ({ · with expiry := none, deferred := none })) h
    (fun _ => rfl) (entries_lapse s key window after)

theorem Sound.lapse (h : s.Sound) (hg : s.entries.get? key = some entry)
    (hp : entry.isPending = false) {window : Window} {time : Nat} {after : List (Nat × EntryKey)}
    (hlive : s.liveQueue window = (time, key) :: after) : (s.lapse key window after).Sound :=
  ⟨h.agrees.lapse hg hp hlive, Covers.lapse h.covers key window after⟩

theorem Sound.schedule_lapse (h : s.Sound) (hg : s.entries.get? key = some entry)
    (hp : entry.isPending = false) {window : Window} {time : Nat} {after : List (Nat × EntryKey)}
    (hlive : s.liveQueue window = (time, key) :: after) (next : Retention) :
    ((s.lapse key window after).schedule key next none).Sound := by
  obtain ⟨-, hcont, -⟩ := s.lapse_frame key window after
  have hsome : entry.expiry ≠ none := by
    obtain ⟨other, ho, hx⟩ := expiry_of_isLive (isLive_of_dropWhile hlive)
    rw [hg, Option.some_inj] at ho
    simp [ho, hx]
  -- the entry has been scheduled, so the end of its reuse is set already
  have hends : ∀ {content reuse}, (content, reuse) ∈ (s.lapse key window after).byContent →
      reuse.key = key → reuse.endsAt ≠ none := by
    intro content reuse hm hk
    obtain ⟨other, ho, -, -, hset⟩ := h.agrees.exists_entry (hcont ▸ hm)
    rw [hk, hg, Option.some_inj] at ho
    exact hset (ho ▸ hsome)
  have hget := get?_lapse hg window after
  obtain ⟨hlapse, hcovers⟩ := h.lapse hg hp hlive
  exact ⟨hlapse.schedule hget hp rfl hends next none, Covers.schedule hcovers hget next none⟩

theorem Sound.expire (h : s.Sound) (hg : s.entries.get? key = some entry)
    (hp : entry.isPending = false) {window : Window} {time : Nat} {after : List (Nat × EntryKey)}
    (hlive : s.liveQueue window = (time, key) :: after) (now : Nat) :
    (s.expire now key entry window after).Sound ∧
      s.expireChecked now key entry window after = .ok (s.expire now key entry window after) := by
  have hlapse := h.lapse hg hp hlive
  unfold State.expire expireChecked
  cases entry.deferred.filter (now < ·.endsAt) with
  | none =>
    exact ⟨hlapse.remove key, hlapse.agrees.removeChecked_eq key⟩
  | some next =>
    have hnext := h.schedule_lapse hg hp hlive next
    exact ⟨hnext.trim, hnext.agrees.trimChecked_eq⟩

theorem queue_dropStale (s : State) (window : Window) :
    s.dropStale.queue window = s.liveQueue window := by
  cases window <;> rfl

theorem Sound.expireOne (h : s.Sound) (now : Nat) : (s.expireOne now).2.Sound ∧
    s.expireOneChecked now = .ok (s.expireOne now).2 := by
  have hw := h.agrees.wellFormed
  unfold expireOneChecked
  cases hdue : s.nextDue? with
  | none =>
    rw [State.expireOne, hdue]
    exact ⟨h, rfl⟩
  | some due =>
    obtain ⟨window, ⟨time, key⟩, after⟩ := due
    have hlive := liveQueue_of_nextDue? hdue
    obtain ⟨entry, hg, hx⟩ := expiry_of_isLive (isLive_of_dropWhile hlive)
    have hp := hw.isPending_of_expiry hg hx
    rw [expireOne_of_nextDue? hdue hg]
    dsimp only
    split
    next => exact ⟨h, rfl⟩
    next =>
      rw [queue_dropStale, hlive, hg]
      exact ⟨(h.expire hg hp hlive now).1, (if_neg (by simp)).trans (h.expire hg hp hlive now).2⟩

theorem Sound.dropStale (h : s.Sound) : s.dropStale.Sound :=
  ⟨h.agrees.dropStale, Covers.of_entry (s := s) h.covers fun hg => .inr ⟨_, hg, rfl⟩⟩

theorem Sound.setConfig (h : s.Sound) (config : Config) : ({ s with config } : State).Sound :=
  ⟨h.agrees.congr_queues rfl rfl rfl rfl rfl fun window => by cases window <;> rfl,
    Covers.of_entry (s := s) h.covers fun hg => .inr ⟨_, hg, rfl⟩⟩

theorem Sound.apply (h : s.Sound) (operation : Operation) :
    (operation.apply s).Sound ∧ operation.check s = .ok (operation.apply s) := by
  cases operation with
  | retrieve now r cacheable acrossInvokers => exact ⟨h.retrieve now r cacheable acrossInvokers, rfl⟩
  | store now r response o => exact h.store now r response o
  | abandon r => exact h.abandon r
  | trim => exact ⟨h.trim, h.agrees.trimChecked_eq⟩
  | expireOne now => exact h.expireOne now
  | nextDeadline => exact ⟨h.dropStale, rfl⟩
  | setConfig config => exact ⟨h.setConfig config, rfl⟩

def runChecked (s : State) (operations : List Operation) : Except Fault State :=
  operations.foldlM (fun s operation => operation.check s) s

theorem Sound.run (h : s.Sound) (operations : List Operation) :
    (s.run operations).Sound ∧ s.runChecked operations = .ok (s.run operations) := by
  induction operations generalizing s with
  | nil => exact ⟨h, rfl⟩
  | cons operation rest ih =>
    obtain ⟨hsound, hcheck⟩ := h.apply operation
    obtain ⟨hrun, hrest⟩ := ih hsound
    refine ⟨hrun, ?_⟩
    rw [runChecked, List.foldlM_cons, hcheck]
    exact hrest

end State

end CommandBus.Cache
