import CommandBus.Cache
import CommandBus.Proofs.Cache.Fates
import Mathlib

namespace CommandBus

namespace Cache

structure Shared where
  cache : Cache
  /-- The reservations, each with the key of the entry that was registered for it. -/
  held : List (EntryKey × CommandRequest) := []

inductive Use
  | retrieve (now : Nat) (request : CommandRequest) (cacheable acrossInvokers : Bool)
  | reserve (now : Nat) (request : CommandRequest) (cacheable acrossInvokers : Bool)
  | store (now : Nat) (request : CommandRequest) (response : Message) (options : StoreOptions)
  | abandon (request : CommandRequest)
  /-- Stores a response through a reservation, which ends with that. -/
  | fill (key : EntryKey) (now : Nat) (response : Message) (options : StoreOptions)
  | drop (key : EntryKey)
  | trim
  | expireOne (now : Nat)
  | setConfig (config : Config)
  /-- Starts or stops the cache. -/
  | setStarted (isStarted : Bool)

namespace Shared

def start (config : Config) : Shared :=
  { cache := ofConfig config }

def request? (d : Shared) (key : EntryKey) : Option CommandRequest :=
  d.held.lookup key

def reserve (d : Shared) (now : Nat) (r : CommandRequest) (cacheable acrossInvokers : Bool) :
    Shared :=
  match d.cache.retrieve now r cacheable acrossInvokers with
  | (some _, cache) => { d with cache }
  | (none, cache) => { cache, held := (d.cache.state.nextKey, r) :: d.held }

/-- A reservation ends with what `f` does to the cache for its request. -/
def release (d : Shared) (key : EntryKey) (f : CommandRequest → Cache → Cache) : Shared :=
  match d.request? key with
  | some r => { cache := f r d.cache, held := d.held.filter (·.1 != key) }
  | none => d

def use (d : Shared) : Use → Shared
  | .retrieve now r cacheable acrossInvokers =>
    { d with cache := (d.cache.retrieve now r cacheable acrossInvokers).2 }
  | .reserve now r cacheable acrossInvokers => d.reserve now r cacheable acrossInvokers
  | .store now r response o => { d with cache := (d.cache.store now r response o).2 }
  | .abandon r => { d with cache := (d.cache.abandon r).2 }
  | .fill key now response o => d.release key fun r c => (c.fill now r response o).2
  | .drop key => d.release key fun r c => (c.abandon r).2
  | .trim => { d with cache := { d.cache with state := d.cache.state.trim } }
  | .expireOne now =>
    { d with cache := { d.cache with state := (d.cache.state.expireOne now).2 } }
  | .setConfig config => { d with cache := d.cache.setConfig config }
  | .setStarted isStarted => { d with cache := { d.cache with isStarted } }

def run (d : Shared) (uses : List Use) : Shared :=
  uses.foldl use d

def storing? (d : Shared) (now : Nat) (r : CommandRequest) (response : Message)
    (o : StoreOptions) : Option Operation :=
  if d.cache.isStarted then some (.store now r response o) else none

def operation? (d : Shared) : Use → Option Operation
  | .retrieve now r cacheable acrossInvokers | .reserve now r cacheable acrossInvokers =>
    some (.retrieve now r cacheable acrossInvokers)
  | .store now r response o => d.storing? now r response o
  | .abandon r => some (.abandon r)
  | .fill key now response o =>
    (d.request? key).map fun r => (d.storing? now r response o).getD (.abandon r)
  | .drop key => (d.request? key).map .abandon
  | .trim => some .trim
  | .expireOne now => some (.expireOne now)
  | .setConfig config => some (.setConfig config)
  | .setStarted _ => none

end Shared

section Fill

variable (c : Cache) (now : Nat) (r : CommandRequest) (response : Message) (o : StoreOptions)

theorem state_store : (c.store now r response o).2.state =
    if c.isStarted then c.state.store now r response o else c.state := by
  unfold store
  split <;> rfl

/-- A store that breaks off has stored the response already, so that there is no pending entry to
give up. -/
theorem state_fill : (c.fill now r response o).2.state =
    if c.isStarted then c.state.store now r response o else (c.state.abandon r).2 := by
  unfold fill store
  cases c.isStarted with
  | false => rfl
  | true =>
    cases hhalts : c.state.storeHalts now r o with
    | false => simp
    | true => exact State.abandon_of_storeHalts hhalts response

end Fill

namespace Shared

variable {d : Shared} {r : CommandRequest}

theorem run_append (d : Shared) (before after : List Use) :
    d.run (before ++ after) = (d.run before).run after :=
  List.foldl_append

theorem reserve_of_hit {now : Nat} {cacheable acrossInvokers : Bool} {p : Nat}
    (h : (d.cache.state.retrieve now r cacheable acrossInvokers).1 = some p) :
    d.reserve now r cacheable acrossInvokers =
      { d with cache := (d.cache.retrieve now r cacheable acrossInvokers).2 } := by
  have hr : (d.cache.retrieve now r cacheable acrossInvokers).1 = some p := h
  unfold reserve
  split
  next heq => rw [heq]
  next heq =>
    rw [heq] at hr
    cases hr

theorem reserve_of_miss {now : Nat} {cacheable acrossInvokers : Bool}
    (h : (d.cache.state.retrieve now r cacheable acrossInvokers).1 = none) :
    d.reserve now r cacheable acrossInvokers =
      { cache := (d.cache.retrieve now r cacheable acrossInvokers).2
        held := (d.cache.state.nextKey, r) :: d.held } := by
  have hr : (d.cache.retrieve now r cacheable acrossInvokers).1 = none := h
  unfold reserve
  split
  next heq =>
    rw [heq] at hr
    cases hr
  next heq => rw [heq]

theorem cache_release (d : Shared) (key : EntryKey) (f : CommandRequest → Cache → Cache) :
    (d.release key f).cache = (d.request? key).elim d.cache (f · d.cache) := by
  unfold release
  cases d.request? key <;> rfl

theorem state_use (d : Shared) (u : Use) : (d.use u).cache.state =
    (d.operation? u).elim d.cache.state (·.apply d.cache.state) := by
  cases u with
  | retrieve | abandon | trim | expireOne | setConfig | setStarted => rfl
  | reserve now r cacheable acrossInvokers =>
    have hstate : (d.reserve now r cacheable acrossInvokers).cache =
        (d.cache.retrieve now r cacheable acrossInvokers).2 := by
      cases h : (d.cache.state.retrieve now r cacheable acrossInvokers).1 with
      | none => rw [reserve_of_miss h]
      | some p => rw [reserve_of_hit h]
    exact congrArg Cache.state hstate
  | store now r response o =>
    rw [use, state_store, operation?, storing?]
    split <;> rfl
  | fill key now response o =>
    rw [use, operation?, cache_release]
    cases d.request? key with
    | none => rfl
    | some r =>
      rw [Option.elim_some, state_fill, Option.map_some, storing?]
      split <;> rfl
  | drop key =>
    rw [use, operation?, cache_release]
    cases d.request? key <;> rfl

theorem wellFormed_use (h : d.cache.state.WellFormed) (u : Use) :
    (d.use u).cache.state.WellFormed := by
  rw [state_use]
  cases d.operation? u with
  | none => exact h
  | some operation => exact h.apply operation

theorem wellFormed_run (h : d.cache.state.WellFormed) (uses : List Use) :
    (d.run uses).cache.state.WellFormed := by
  induction uses generalizing d with
  | nil => exact h
  | cons u rest ih => exact ih (wellFormed_use h u)

theorem wellFormed_start (config : Config) (uses : List Use) :
    ((start config).run uses).cache.state.WellFormed :=
  wellFormed_run (State.WellFormed.empty config) uses

theorem changes_use (h : d.cache.state.WellFormed) (u : Use) :
    ∃ kept, State.Changes d.cache.state (d.use u).cache.state kept := by
  rw [state_use]
  cases d.operation? u with
  | none => exact ⟨_, h.changes_refl⟩
  | some operation => exact h.changes_apply operation

theorem changes_run (h : d.cache.state.WellFormed) (uses : List Use) :
    ∃ kept, State.Changes d.cache.state (d.run uses).cache.state kept := by
  induction uses generalizing d with
  | nil => exact ⟨_, h.changes_refl⟩
  | cons u rest ih =>
    obtain ⟨kept, hfirst⟩ := changes_use h u
    obtain ⟨kept', hrest⟩ := ih hfirst.wellFormed
    exact ⟨_, hfirst.trans hrest⟩

end Shared

end Cache

end CommandBus
