import CommandBus.Proofs.Cache.Retention
import Mathlib

namespace CommandBus.Cache

inductive Operation
  | retrieve (now : Nat) (request : CommandRequest) (cacheable acrossInvokers : Bool)
  | store (now : Nat) (request : CommandRequest) (response : Message) (options : StoreOptions)
  | abandon (request : CommandRequest)
  | trim
  | expireOne (now : Nat)
  /-- Looks for the deadline that comes first. -/
  | nextDeadline
  | setConfig (config : Config)

namespace State

variable {s : State}

/-- What a look for the next deadline leaves of the queues: their stale fronts are dropped. -/
def dropStale (s : State) : State :=
  { s with dedupQueue := s.liveQueue .dedup, reuseQueue := s.liveQueue .reuse }

theorem WellFormed.changes_dropStale (h : s.WellFormed) :
    Changes s s.dropStale fun _ _ => True :=
  h.changes_congr rfl rfl rfl

end State

def Operation.apply : Operation → State → State
  | .retrieve now r cacheable acrossInvokers, s => (s.retrieve now r cacheable acrossInvokers).2
  | .store now r response o, s => s.store now r response o
  | .abandon r, s => (s.abandon r).2
  | .trim, s => s.trim
  | .expireOne now, s => (s.expireOne now).2
  | .nextDeadline, s => s.dropStale
  | .setConfig config, s => { s with config }

namespace State

def run (s : State) (operations : List Operation) : State :=
  operations.foldl (fun s operation => operation.apply s) s

variable {s : State} {key : EntryKey} {c : Correlation} {response : Message} {deadline : Nat}

theorem WellFormed.apply (h : s.WellFormed) (operation : Operation) :
    (operation.apply s).WellFormed := by
  cases operation with
  | retrieve now r cacheable acrossInvokers =>
    exact (h.changes_retrieve now r cacheable acrossInvokers).wellFormed
  | store now r response o => exact (h.changes_store now r response o).wellFormed
  | abandon r => exact (h.changes_abandon r).wellFormed
  | trim => exact h.changes_trim.wellFormed
  | expireOne now => exact (h.changes_expireOne now).wellFormed
  | nextDeadline => exact h.changes_dropStale.wellFormed
  | setConfig config => exact (h.changes_config config).wellFormed

theorem WellFormed.run (h : s.WellFormed) (operations : List Operation) :
    (s.run operations).WellFormed := by
  induction operations generalizing s with
  | nil => exact h
  | cons operation rest ih => exact ih (h.apply operation)

theorem Retains.apply (h : s.Retains c key response deadline) (hs : s.WellFormed)
    {operation : Operation} (ho : ∀ now, operation = .expireOne now → now < deadline) :
    (operation.apply s).Retains c key response deadline := by
  cases operation with
  | retrieve now r cacheable acrossInvokers => exact h.retrieve hs r cacheable acrossInvokers
  | store now r other o => exact h.store hs r other o
  | abandon r => exact h.abandon hs r
  | trim => exact h.changes hs hs.changes_trim fun _ _ _ hb => hb
  | expireOne now => exact h.expireOne hs (ho now rfl)
  | nextDeadline => exact h.changes hs hs.changes_dropStale fun _ _ _ _ => trivial
  | setConfig config => exact h.changes hs (hs.changes_config config) fun _ _ _ _ => trivial

theorem Retains.run (h : s.Retains c key response deadline) (hs : s.WellFormed)
    {operations : List Operation} (ho : ∀ now, .expireOne now ∈ operations → now < deadline) :
    (s.run operations).Retains c key response deadline := by
  induction operations generalizing s with
  | nil => exact h
  | cons operation rest ih =>
    have hfirst : ∀ now, operation = .expireOne now → now < deadline := fun now he =>
      ho now (he ▸ List.mem_cons_self)
    exact ih (h.apply hs hfirst) (hs.apply operation) fun now hm =>
      ho now (List.mem_cons_of_mem _ hm)

theorem Retains.retrieve_eq (h : s.Retains c key response deadline) {r : CommandRequest}
    (hr : r.correlation = c) (now : Nat) (cacheable acrossInvokers : Bool) :
    s.retrieve now r cacheable acrossInvokers = (some key.serial, s) :=
  retrieve_of_key? (hr ▸ h.key?) now cacheable acrossInvokers

theorem Retains.exists_entry?_eq_some (h : s.Retains c key response deadline) :
    ∃ entry, s.entry? c = some (key, entry) := by
  obtain ⟨entry, hg, -⟩ := h.exists_entry
  exact ⟨entry, by rw [ entry?, h.key?, Option.bind_some, hg, Option.map_some]⟩

/-- After any run the response to a command that is not idempotent is stored. Whatever follows, and
whatever limits are set, until the request expires its entry stays in the cache, and a look-up for
the request finds the response. -/
theorem stored_response_retained (config : Config) (before after : List Operation) (now : Nat)
    (r : CommandRequest) (response : Message) (o : StoreOptions) (key : EntryKey) (entry : Entry)
    (he : State.entry? (({ config } : State).run before) r.correlation = some (key, entry))
    (hp : entry.isPending = true) (hi : o.isIdempotent = false) (hlt : now < o.expiresAt)
    (hafter : ∀ time, .expireOne time ∈ after → time < o.expiresAt) :
    let s := ((({ config } : State).run before).store now r response o).run after
    (∃ entry', s.entry? r.correlation = some (key, entry')) ∧
      s.promise key.serial = .stored response ∧
      ∀ (r' : CommandRequest) (time : Nat) (cacheable acrossInvokers : Bool),
        r'.correlation = r.correlation →
          s.retrieve time r' cacheable acrossInvokers = (some key.serial, s) := by
  have hw : (({ config } : State).run before).WellFormed := (WellFormed.empty config).run before
  obtain ⟨hg, hc⟩ := hw.entry?_eq_some.mp he
  have hreserves : (({ config } : State).run before).Reserves r.correlation key :=
    ⟨hc ▸ hw.key?_of_get? hg, entry, hg, hp⟩
  have hstored := hreserves.retains_store hw hi hlt response
  have hrun := hstored.run (hw.changes_store now r response o).wellFormed hafter
  exact ⟨hrun.exists_entry?_eq_some, hrun.promise, fun r' time cacheable acrossInvokers hr =>
    hrun.retrieve_eq hr time cacheable acrossInvokers⟩

/-- A cache with room for nothing keeps the response through expiry and trimming. -/
theorem response_retained_without_room :
    let r : CommandRequest := ⟨"cmd", "inv", "t", [1], [2]⟩
    let tight : Config := { maxEntries := 0, maxBytes := 0 }
    let s := ((({ config := tight } : State).run [.retrieve 0 r true false]).store 0 r
      { topic := "reply", payload := [3] } ⟨false, 10, ⟨0⟩, 3⟩).run [.expireOne 5, .trim]
    (∃ entry, s.entry? r.correlation = some (⟨0, 0⟩, entry)) ∧
      s.promise 0 = .stored { topic := "reply", payload := [3] } := by
  intro r tight s
  obtain ⟨hentry, hpromise, -⟩ := stored_response_retained tight [.retrieve 0 r true false]
    [.expireOne 5, .trim] 0 r { topic := "reply", payload := [3] } ⟨false, 10, ⟨0⟩, 3⟩ ⟨0, 0⟩
    { correlation := r.correlation, content := some (r.content false) } rfl rfl rfl (by decide)
    (by simp)
  exact ⟨hentry, hpromise⟩

end State

end CommandBus.Cache
