import CommandBus.Cache.Benefit
import CommandBus.Cache.Slots
import CommandBus.Duration
import CommandBus.Message

namespace CommandBus

structure CommandRequest where
  commandName : String
  invokerId : String
  topic : String
  correlationData : Bytes
  payload : Bytes
  deriving DecidableEq, Inhabited, Repr

namespace Cache

structure Config where
  maxEntries : Nat := 10000
  maxBytes : Nat := 10000000
  /-- The cost of storing an entry beyond its payloads. -/
  unitBytes : Nat := 100
  /-- The cost of executing a command beyond the time it takes. -/
  fixedMillis : Nat := 10
  deriving DecidableEq, Inhabited, Repr

def Config.benefit (c : Config) (requestBytes responseBytes : Nat) (execution : Duration) :
    Benefit :=
  let seconds := execution.secs.toUInt64.toFloat + execution.subsecNanos.toUInt64.toFloat / 1.0e9
  let millis := c.fixedMillis.toUInt64.toFloat + seconds * 1000.0
  .ofFloat (millis / (c.unitBytes + requestBytes + responseBytes).toUInt64.toFloat)

structure Correlation where
  topic : String
  data : Bytes
  deriving DecidableEq, Inhabited, Repr

/-- What makes requests equivalent; the invoker is empty if it makes no difference. -/
structure Content where
  commandName : String
  invokerId : String
  payload : Bytes
  deriving DecidableEq, Inhabited, Repr

inductive Window
  | dedup
  | reuse
  deriving DecidableEq, Inhabited, Repr

structure Retention where
  window : Window
  /-- The time in milliseconds at which it ends. -/
  endsAt : Nat
  benefit : Benefit
  deriving DecidableEq, Inhabited, Repr

structure Entry where
  correlation : Correlation
  /-- Set if equivalent requests may have the response. -/
  content : Option Content
  isPending : Bool := true
  /-- Counted against the limit on bytes once the response is stored. -/
  size : Nat := 0
  /-- Not to be evicted while duplicates may still come. -/
  isMandatory : Bool := true
  expiry : Option (Window × Nat) := none
  /-- Set if the entry may be evicted. -/
  benefit : Option Benefit := none
  /-- The window that is scheduled when the present one ends. -/
  deferred : Option Retention := none
  deriving Inhabited, Repr

/-- The newest entry with some content, and until when it may be reused once it is stored. -/
structure Reuse where
  key : EntryKey
  endsAt : Option Nat
  deriving DecidableEq, Inhabited, Repr

inductive Promise
  | pending
  | stored (response : Message)
  | evicted
  deriving DecidableEq, Inhabited, Repr

structure StoreOptions where
  isIdempotent : Bool
  expiresAt : Nat
  execution : Duration
  /-- How many milliseconds an equivalent request may have the response. -/
  reusableFor : Nat
  deriving Inhabited, Repr

/-- The last instant the clock can tell, before the end of `2 ^ 63` seconds. -/
def lastInstant : Nat :=
  9223372036854775807999

/-- Whether reuse of the response to an entry would end after the last instant. -/
def StoreOptions.overruns (o : StoreOptions) (now : Nat) (entry : Entry) : Bool :=
  entry.content.isSome && lastInstant - now < o.reusableFor

structure State where
  config : Config := {}
  entries : Slots Entry := {}
  byCorrelation : List (Correlation × EntryKey) := []
  byContent : List (Content × Reuse) := []
  dedupQueue : List (Nat × EntryKey) := []
  reuseQueue : List (Nat × EntryKey) := []
  benefitQueue : List (Benefit × EntryKey) := []
  totalSize : Nat := 0
  /-- By the serial number of the entry. -/
  promises : List Promise := []
  deriving Inhabited, Repr

end Cache

namespace CommandRequest

def correlation (r : CommandRequest) : Cache.Correlation :=
  ⟨r.topic, r.correlationData⟩

def content (r : CommandRequest) (acrossInvokers : Bool) : Cache.Content :=
  ⟨r.commandName, if acrossInvokers then "" else r.invokerId, r.payload⟩

end CommandRequest

namespace Cache

def insertBy {α : Type} (le : α → α → Bool) (a : α) : List α → List α
  | [] => [a]
  | b :: rest => if le b a then b :: insertBy le a rest else a :: b :: rest

def timeLe (a b : Nat × EntryKey) : Bool :=
  a.1 < b.1 || (a.1 == b.1 && a.2.le b.2)

def benefitLe (a b : Benefit × EntryKey) : Bool :=
  a.1.rank < b.1.rank || (a.1.rank == b.1.rank && a.2.le b.2)

namespace State

def size (s : State) : Nat :=
  s.entries.size

def contains (s : State) (c : Correlation) : Bool :=
  (s.byCorrelation.lookup c).isSome

def key? (s : State) (c : Correlation) : Option EntryKey :=
  s.byCorrelation.lookup c

def entry? (s : State) (c : Correlation) : Option (EntryKey × Entry) :=
  (s.key? c).bind fun key => (s.entries.get? key).map (key, ·)

def queue (s : State) : Window → List (Nat × EntryKey)
  | .dedup => s.dedupQueue
  | .reuse => s.reuseQueue

def setQueue (s : State) (elements : List (Nat × EntryKey)) : Window → State
  | .dedup => { s with dedupQueue := elements }
  | .reuse => { s with reuseQueue := elements }

def promise (s : State) (serial : Nat) : Promise :=
  s.promises[serial]?.getD .evicted

def settle (s : State) (serial : Nat) (p : Promise) : State :=
  { s with promises := s.promises.modify serial fun old => if old = .pending then p else old }

def remove (s : State) (key : EntryKey) : State :=
  match s.entries.get? key with
  | none => s
  | some entry =>
    let s := if entry.isPending then s.settle key.serial .evicted else s
    { s with
      entries := s.entries.remove key
      byCorrelation := s.byCorrelation.filter (·.1 != entry.correlation)
      byContent := s.byContent.filter fun (content, reuse) =>
        !(entry.content == some content && reuse.key == key)
      totalSize := s.totalSize - entry.size }

/-- The entry whose response an equivalent request may have: pending, or stored and not stale. -/
def reusable? (s : State) (now : Nat) (content : Content) : Option EntryKey :=
  match s.byContent.lookup content with
  | some reuse =>
    if reuse.endsAt.elim true (now < ·) && (s.entries.get? reuse.key).isSome then some reuse.key
    else none
  | none => none

def register (s : State) (c : Correlation) (content : Option Content) : State :=
  let (key, entries) := s.entries.insert { correlation := c, content }
  { s with
    entries
    byCorrelation := s.byCorrelation ++ [(c, key)]
    byContent := match content with
      | some content => s.byContent.filter (·.1 != content) ++ [(content, ⟨key, none⟩)]
      | none => s.byContent
    promises := s.promises ++ [.pending] }

/-- The promise of a response to the same or, if `cacheable`, an equivalent request; otherwise a
pending entry is registered and nothing is returned. -/
def retrieve (s : State) (now : Nat) (r : CommandRequest) (cacheable acrossInvokers : Bool) :
    Option Nat × State :=
  match s.key? r.correlation with
  | some key => (some key.serial, s)
  | none =>
    let content := if cacheable then some (r.content acrossInvokers) else none
    match content.bind (s.reusable? now) with
    | some key => (some key.serial, s)
    | none => (none, s.register r.correlation content)

/-- An entry to be kept may not be evicted in a window before duplicates have ceased. -/
def canEvict (entry : Entry) (first : Retention) (deferred : Option Retention) : Bool :=
  !(entry.isMandatory &&
    (first.window == .dedup || deferred.elim false (·.window == .dedup)))

def schedule (s : State) (key : EntryKey) (first : Retention) (deferred : Option Retention) :
    State :=
  match s.entries.get? key with
  | none => s
  | some entry =>
    let benefit := if canEvict entry first deferred then some first.benefit else none
    let s := { s with
      entries := s.entries.modify key fun e =>
        { e with expiry := some (first.window, first.endsAt), benefit, deferred }
      benefitQueue := match benefit with
        | some b => insertBy benefitLe (b, key) s.benefitQueue
        | none => s.benefitQueue }
    s.setQueue (insertBy timeLe (first.endsAt, key) (s.queue first.window)) first.window

def isOver (s : State) : Bool :=
  s.config.maxEntries < s.size || s.config.maxBytes < s.totalSize

def hasBenefit (s : State) (b : Benefit) (key : EntryKey) : Bool :=
  (s.entries.get? key).elim false fun e => e.benefit.elim false (·.equals b)

def trimFrom : List (Benefit × EntryKey) → State → State
  | [], s => { s with benefitQueue := [] }
  | (b, key) :: rest, s =>
    if s.isOver then trimFrom rest (if s.hasBenefit b key then s.remove key else s)
    else { s with benefitQueue := (b, key) :: rest }

/-- Evicts the entries of least benefit until the limits are kept or nothing may be evicted. -/
def trim (s : State) : State :=
  trimFrom s.benefitQueue s

/-- The windows that lie ahead at `now`, the one that ends first in front; of two that end together
the one for duplicates. -/
def windows (s : State) (now requestBytes responseBytes reuseUntil : Nat) (o : StoreOptions) :
    List Retention :=
  let dedup : Retention :=
    ⟨.dedup, o.expiresAt, s.config.benefit 0 responseBytes o.execution⟩
  let reuse : Retention :=
    ⟨.reuse, reuseUntil, s.config.benefit requestBytes responseBytes o.execution⟩
  let ordered := if reuse.endsAt < dedup.endsAt then [reuse, dedup] else [dedup, reuse]
  ordered.filter (now < ·.endsAt)

/-- From now on the entry may be reused until `time`, if it is the newest with its content. -/
def setReuseEnd (s : State) (content : Option Content) (key : EntryKey) (time : Nat) : State :=
  { s with
    byContent := s.byContent.map fun ((c, reuse) : Content × Reuse) =>
      if content = some c ∧ reuse.key = key then (c, { reuse with endsAt := some time })
      else (c, reuse) }

/-- Whether `store` comes to no end: it breaks off with an entry completed and not scheduled. -/
def storeHalts (s : State) (now : Nat) (r : CommandRequest) (o : StoreOptions) : Bool :=
  (s.entry? r.correlation).elim false fun (_, entry) => entry.isPending && o.overruns now entry

/-- Completes the pending entry for `r`; without one the response is discarded. -/
def store (s : State) (now : Nat) (r : CommandRequest) (response : Message) (o : StoreOptions) :
    State :=
  match s.entry? r.correlation with
  | none => s
  | some (key, entry) =>
    if !entry.isPending then s
    else
      let requestBytes := entry.content.elim 0 (·.payload.length)
      let responseBytes := response.payload.length
      let size := requestBytes + responseBytes
      let reuseUntil := if entry.content.isSome then now + o.reusableFor else now
      let s := s.settle key.serial (.stored response)
      let s := { s with
        entries := s.entries.modify key fun e =>
          { e with isPending := false, size, isMandatory := !o.isIdempotent }
        totalSize := s.totalSize + size }
      if o.overruns now entry then s
      else match s.windows now requestBytes responseBytes reuseUntil o with
      | [] => s.remove key
      | first :: rest =>
        let s := s.setReuseEnd entry.content key reuseUntil
        (s.schedule key first rest.head?).trim

/-- Removes the entry for `r` if it is pending, and tells whether it was. -/
def abandon (s : State) (r : CommandRequest) : Bool × State :=
  match s.entry? r.correlation with
  | some (key, entry) => if entry.isPending then (true, s.remove key) else (false, s)
  | none => (false, s)

def isLive (s : State) (window : Window) (element : Nat × EntryKey) : Bool :=
  (s.entries.get? element.2).elim false (·.expiry == some (window, element.1))

def liveQueue (s : State) (window : Window) : List (Nat × EntryKey) :=
  (s.queue window).dropWhile (!s.isLive window ·)

/-- The live element that is due first, with its window and what follows it in the queue. -/
def nextDue? (s : State) : Option (Window × (Nat × EntryKey) × List (Nat × EntryKey)) :=
  match s.liveQueue .dedup, s.liveQueue .reuse with
  | dedup :: afterDedup, reuse :: afterReuse =>
    if reuse.1 < dedup.1 then some (.reuse, reuse, afterReuse) else some (.dedup, dedup, afterDedup)
  | dedup :: after, [] => some (.dedup, dedup, after)
  | [], reuse :: after => some (.reuse, reuse, after)
  | [], [] => none

def nextDeadline? (s : State) : Option Nat :=
  s.nextDue?.map fun (_, element, _) => element.1

/-- Processes the entry that is due first if its time has come: it goes on to its deferred window
if that lies ahead, and is removed otherwise. Tells whether there was one. -/
def expireOne (s : State) (now : Nat) : Bool × State :=
  match s.nextDue? with
  | none => (false, s)
  | some (window, (time, key), after) =>
    if now < time then (false, s)
    else
      let deferred := (s.entries.get? key).bind Entry.deferred
      let s := s.setQueue after window
      let s := { s with entries := s.entries.modify key ({ · with expiry := none, deferred := none }) }
      match deferred.filter (now < ·.endsAt) with
      | some next => (true, (s.schedule key next none).trim)
      | none => (true, s.remove key)

end State

end Cache

end CommandBus
