import CommandBus.Proofs.Cache.Fates
import CommandBus.Proofs.Cache.Faults
import Mathlib

namespace CommandBus.Cache

def Entry.completed (entry : Entry) (size : Nat) (o : StoreOptions) : Entry :=
  { entry with isPending := false, size, isMandatory := !o.isIdempotent }

def Entry.lapsed (entry : Entry) : Entry :=
  { entry with expiry := none, deferred := none }

namespace State

variable {s : State} {key k : EntryKey} {entry : Entry} {now : Nat}

inductive Arises (s : State) : Operation → EntryKey → Entry → Prop
  | kept {operation : Operation} {key : EntryKey} {entry : Entry}
    (hg : s.entries.get? key = some entry) : Arises s operation key entry
  | registered {now : Nat} {r : CommandRequest} {cacheable acrossInvokers : Bool}
    (hmiss : (s.retrieve now r cacheable acrossInvokers).1 = none) :
    Arises s (.retrieve now r cacheable acrossInvokers) s.nextKey
      { correlation := r.correlation
        content := if cacheable then some (r.content acrossInvokers) else none }
  | completed {now : Nat} {r : CommandRequest} {response : Message} {o : StoreOptions}
    {key : EntryKey} {entry : Entry} {size requestBytes : Nat} {first : Retention}
    {rest : List Retention} (he : s.entry? r.correlation = some (key, entry))
    (hp : entry.isPending = true) (hbytes : requestBytes = entry.content.elim 0 (·.payload.length))
    (hw : s.windows now requestBytes response.payload.length (reuseEnd now entry o) o =
      first :: rest) (hover : o.overruns now entry = false) :
    Arises s (.store now r response o) key (scheduled first rest.head? (entry.completed size o))
  | stranded {now : Nat} {r : CommandRequest} {response : Message} {o : StoreOptions}
    {key : EntryKey} {entry : Entry} {size : Nat}
    (he : s.entry? r.correlation = some (key, entry)) (hp : entry.isPending = true)
    (hover : o.overruns now entry = true) :
    Arises s (.store now r response o) key (entry.completed size o)
  | moved {now time : Nat} {key : EntryKey} {entry : Entry} {window : Window} {next : Retention}
    (hg : s.entries.get? key = some entry) (hp : entry.isPending = false)
    (hx : entry.expiry = some (window, time)) (hle : time ≤ now)
    (hd : entry.deferred = some next) (hlt : now < next.endsAt) :
    Arises s (.expireOne now) key (scheduled next none entry.lapsed)

theorem get?_of_get?_trim (hg : s.trim.entries.get? key = some entry) :
    s.entries.get? key = some entry := by
  cases ho : s.entries.get? key with
  | none =>
    have hnone : s.trim.entries.get? key = none := get?_trimFrom_of_none _ ho
    rw [hnone] at hg
    cases hg
  | some old =>
    obtain hk | ⟨-, hn⟩ := spares_trimFrom s.benefitQueue s key old ho not_false
    · exact hk.symm.trans hg
    · rw [← trim, hg] at hn
      cases hn

theorem get?_schedule_of_ne (hg : s.entries.get? key = some entry) (hk : k ≠ key)
    (first : Retention) (deferred : Option Retention) :
    (s.schedule key first deferred).entries.get? k = s.entries.get? k := by
  rw [entries_schedule hg, Slots.get?_modify, if_neg hk]

theorem get?_complete_of_ne (s : State) (hk : k ≠ key) (response : Message) (size : Nat)
    (o : StoreOptions) :
    (s.complete key response size o).entries.get? k = s.entries.get? k := by
  have hm : (s.complete key response size o).entries.get? k = _ := s.entries.get?_modify ..
  rw [hm, if_neg hk]

theorem get?_lapse_of_ne (s : State) (hk : k ≠ key) (window : Window)
    (after : List (Nat × EntryKey)) :
    (s.lapse key window after).entries.get? k = s.entries.get? k := by
  rw [entries_lapse, Slots.get?_modify, if_neg hk]

theorem WellFormed.arises_retrieve (h : s.WellFormed) {r : CommandRequest}
    {cacheable acrossInvokers : Bool}
    (hg : (s.retrieve now r cacheable acrossInvokers).2.entries.get? key = some entry) :
    s.Arises (.retrieve now r cacheable acrossInvokers) key entry := by
  obtain ⟨p, hr⟩ | ⟨-, hr⟩ := s.retrieve_cases now r cacheable acrossInvokers
  · rw [hr] at hg
    exact .kept hg
  · have hmiss : (s.retrieve now r cacheable acrossInvokers).1 = none := by rw [hr]
    rw [hr] at hg
    obtain ⟨rfl, rfl⟩ | ⟨-, hg⟩ := h.get?_register_cases hg
    · exact .registered hmiss
    · exact .kept hg

theorem WellFormed.arises_store (h : s.WellFormed) {r : CommandRequest} {response : Message}
    {o : StoreOptions} (hg : (s.store now r response o).entries.get? key = some entry) :
    s.Arises (.store now r response o) key entry := by
  by_cases hex : ∃ k, s.Reserves r.correlation k
  · obtain ⟨k, hk⟩ := hex
    obtain ⟨old, he, hp⟩ := hk.entry? h
    obtain ⟨ho, -⟩ := h.entry?_eq_some.mp he
    rw [store_eq he hp] at hg
    dsimp only at hg
    have hcomplete := get?_complete ho response
      (old.content.elim 0 (·.payload.length) + response.payload.length) o
    generalize hbytes : old.content.elim 0 (·.payload.length) = requestBytes at hg hcomplete
    generalize hsize : requestBytes + response.payload.length = size at hg hcomplete
    by_cases hover : o.overruns now old = true
    · rw [if_pos hover] at hg
      by_cases hne : key = k
      · subst hne
        rw [hcomplete, Option.some_inj] at hg
        subst hg
        exact .stranded he hp hover
      · exact .kept (get?_complete_of_ne s hne response size o ▸ hg)
    rw [if_neg hover] at hg
    split at hg
    next =>
      rw [get?_remove] at hg
      split at hg
      next => cases hg
      next hne => exact .kept (get?_complete_of_ne s hne response size o ▸ hg)
    next first rest hw =>
      have hset : ((s.complete k response size o).setReuseEnd old.content k
          (reuseEnd now old o)).entries.get? k = _ := hcomplete
      have hg := get?_of_get?_trim hg
      by_cases hne : key = k
      · subst hne
        rw [get?_schedule hset, Option.some_inj] at hg
        subst hg
        exact .completed he hp hbytes.symm hw (by simpa using hover)
      · rw [get?_schedule_of_ne hset hne] at hg
        exact .kept (get?_complete_of_ne s hne response size o ▸ hg)
  · rw [h.store_of_not_reserves hex] at hg
    exact .kept hg

theorem WellFormed.arises_expireOne (h : s.WellFormed)
    (hg : (s.expireOne now).2.entries.get? key = some entry) :
    s.Arises (.expireOne now) key entry := by
  obtain he | ⟨k, old, window, after, time, hle, ho, hx, hp, he⟩ := h.expireOne_cases now
  · exact .kept (he ▸ hg)
  rw [he, expire] at hg
  have hlapse := get?_lapse ho window after
  split at hg
  next next hfilter =>
    obtain ⟨hd, hlt⟩ := Option.filter_eq_some_iff.mp hfilter
    have hg := get?_of_get?_trim hg
    by_cases hne : key = k
    · subst hne
      rw [get?_schedule hlapse, Option.some_inj] at hg
      subst hg
      exact .moved ho hp hx hle hd (by simpa using hlt)
    · rw [get?_schedule_of_ne hlapse hne, get?_lapse_of_ne s hne] at hg
      exact .kept hg
  next =>
    rw [get?_remove] at hg
    split at hg
    next => cases hg
    next hne => exact .kept (get?_lapse_of_ne s hne window after ▸ hg)

theorem WellFormed.arises (h : s.WellFormed) {operation : Operation}
    (hg : (operation.apply s).entries.get? key = some entry) : s.Arises operation key entry := by
  cases operation with
  | retrieve now r cacheable acrossInvokers => exact h.arises_retrieve hg
  | store now r response o => exact h.arises_store hg
  | abandon r =>
    obtain ⟨k, hk⟩ | hn := em (∃ k, s.Reserves r.correlation k)
    · rw [Operation.apply, hk.abandon_eq h, get?_remove] at hg
      split at hg
      · cases hg
      · exact .kept hg
    · rw [Operation.apply, h.abandon_of_not_reserves hn] at hg
      exact .kept hg
  | trim => exact .kept (get?_of_get?_trim hg)
  | expireOne now => exact h.arises_expireOne hg
  | nextDeadline | setConfig => exact .kept hg

/-- What the first operation of a run tells that has something to tell. -/
def firstOf {α : Type} (tells : State → Operation → Option α) : State → List Operation → Option α
  | _, [] => none
  | s, operation :: rest => (tells s operation).or (firstOf tells (operation.apply s) rest)

section FirstOf

variable {α : Type} {tells : State → Operation → Option α}

theorem run_append (s : State) (before after : List Operation) :
    s.run (before ++ after) = (s.run before).run after :=
  List.foldl_append

theorem exists_of_firstOf {operations : List Operation} {a : α}
    (h : firstOf tells s operations = some a) :
    ∃ before operation after, operations = before ++ operation :: after ∧
      tells (s.run before) operation = some a := by
  induction operations generalizing s with
  | nil => cases h
  | cons operation rest ih =>
    obtain h | ⟨-, h⟩ := Option.or_eq_some_iff.mp h
    · exact ⟨[], operation, rest, rfl, h⟩
    · obtain ⟨before, later, after, rfl, ht⟩ := ih h
      exact ⟨operation :: before, later, after, rfl, ht⟩

/-- What ties a cache to what was told of it goes through a run if it goes through every
operation. -/
theorem firstOf_run_of_mem {P : State → Option α → Prop} {told : Option α}
    (hs : s.WellFormed) (h : P s told) (operations : List Operation)
    (hstep : ∀ {s told} operation, operation ∈ operations → s.WellFormed → P s told →
      P (operation.apply s) (told.or (tells s operation))) :
    P (s.run operations) (told.or (firstOf tells s operations)) := by
  induction operations generalizing s told with
  | nil =>
    rw [firstOf, Option.or_none]
    exact h
  | cons operation rest ih =>
    rw [firstOf, ← Option.or_assoc]
    exact ih (hs.apply operation) (hstep operation List.mem_cons_self hs h)
      fun later hm => hstep later (List.mem_cons_of_mem _ hm)

theorem firstOf_run {P : State → Option α → Prop} {told : Option α}
    (hstep : ∀ {s told} operation, s.WellFormed → P s told →
      P (operation.apply s) (told.or (tells s operation)))
    (hs : s.WellFormed) (h : P s told) (operations : List Operation) :
    P (s.run operations) (told.or (firstOf tells s operations)) :=
  firstOf_run_of_mem hs h operations fun operation _ => hstep operation

end FirstOf

theorem WellFormed.changes_run (h : s.WellFormed) (operations : List Operation) :
    ∃ kept, Changes s (s.run operations) kept := by
  induction operations generalizing s with
  | nil => exact ⟨_, h.changes_refl⟩
  | cons operation rest ih =>
    obtain ⟨kept, hfirst⟩ := h.changes_apply operation
    obtain ⟨kept', hrest⟩ := ih hfirst.wellFormed
    exact ⟨_, hfirst.trans hrest⟩

end State

end CommandBus.Cache
