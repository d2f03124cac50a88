import CommandBus.Cache.State
import CommandBus.ProtocolError

namespace CommandBus

namespace Cache

inductive Error
  | notStarted
  | evicted
  deriving DecidableEq, Inhabited, Repr

def Error.message : Error → String
  | .notStarted => "the cache has not been started"
  | .evicted => "the entry was evicted before a response was stored"

end Cache

def ProtocolError.ofCache (e : Cache.Error) : ProtocolError :=
  (stateInvalid (some "CommandResponseCache")).withText e.message

namespace Cache

/-- An expiry loop looks for the next deadline, waits for it or a signal, and looks again. -/
inductive LoopPhase
  | looking
  | waiting (deadline : Nat)
  | exited
  deriving DecidableEq, Inhabited, Repr

structure ExpiryLoop where
  phase : LoopPhase := .looking
  isCancelled : Bool := false
  deriving Inhabited, Repr

end Cache

structure Cache where
  state : Cache.State := {}
  isStarted : Bool := false
  /-- A store has changed the deadlines since a loop last woke for one. -/
  isSignalled : Bool := false
  /-- Loops by their position, in the order in which they were started. -/
  loops : List Cache.ExpiryLoop := []
  /-- The loop that `stop` would stop. -/
  current : Option Nat := none
  /-- Some `start` is between its first and its last step. -/
  isLocked : Bool := false
  /-- Promises seen settled by a wait. -/
  observed : List Nat := []
  /-- Where those stand who wait for a promise, by promise. -/
  rooms : List (Nat × Cache.Places) := []
  deriving Inhabited, Repr

namespace Cache

def ofConfig (config : Config) : Cache :=
  { state := { config } }

def setConfig (c : Cache) (config : Config) : Cache :=
  { c with state := { c.state with config } }

def retrieve (c : Cache) (now : Nat) (r : CommandRequest) (cacheable acrossInvokers : Bool) :
    Option Nat × Cache :=
  let (promise, state) := c.state.retrieve now r cacheable acrossInvokers
  (promise, { c with state })

def store (c : Cache) (now : Nat) (r : CommandRequest) (response : Message) (o : StoreOptions) :
    Option (Except Error Unit) × Cache :=
  if c.isStarted then
    let halts := c.state.storeHalts now r o
    (if halts then none else some (.ok ()),
      { c with state := c.state.store now r response o, isSignalled := c.isSignalled || !halts })
  else (some (.error .notStarted), c)

def abandon (c : Cache) (r : CommandRequest) : Bool × Cache :=
  let (found, state) := c.state.abandon r
  (found, { c with state })

/-- Stores the response that an entry was reserved for. One that cannot be stored leaves no pending
entry behind. -/
def fill (c : Cache) (now : Nat) (r : CommandRequest) (response : Message) (o : StoreOptions) :
    Option (Except Error Unit) × Cache :=
  let (result, c) := c.store now r response o
  match result with
  | some (.ok ()) => (result, c)
  | _ => (result, (c.abandon r).2)

/-- What has become of a promise, and that it has been looked at. -/
def wait (c : Cache) (promise : Nat) : Promise × Cache :=
  let p := c.state.promise promise
  (p, if p = .pending then c else { c with observed := promise :: c.observed })

def setRoom (c : Cache) (promise : Nat) (places : Places) : Cache :=
  { c with rooms := (promise, places) :: c.rooms.filter (·.1 != promise) }

def room (c : Cache) (promise : Nat) : Places :=
  (c.rooms.lookup promise).getD {}

/-- Takes a place among those who wait for a promise. They are woken in the order of their places. -/
def enter (c : Cache) (promise : Nat) : Nat × Cache :=
  let (place, places) := (c.room promise).take
  (place, c.setRoom promise places)

def leave (c : Cache) (promise place : Nat) : Cache :=
  c.setRoom promise ((c.room promise).leave place)

def peek? (c : Cache) (promise : Nat) : Option Message :=
  match c.state.promise promise with
  | .stored response => if c.observed.contains promise then some response else none
  | _ => none

/-- An expiry loop waits no longer than this many milliseconds. -/
def longestWait : Nat := 60 * 60 * 1000

def modifyLoop (c : Cache) (id : Nat) (f : ExpiryLoop → ExpiryLoop) : Cache :=
  { c with loops := c.loops.modify id f }

/-- The next step of a loop; `none` while it waits and after it has exited. -/
def stepLoop? (c : Cache) (id now : Nat) : Option Cache := do
  let loop ← c.loops[id]?
  match loop.phase with
  | .looking =>
    let cap := now + longestWait
    let deadline := c.state.nextDeadline?.elim cap (min cap)
    return c.modifyLoop id ({ · with phase := .waiting deadline })
  | .waiting deadline =>
    if loop.isCancelled then return c.modifyLoop id ({ · with phase := .exited })
    else if c.isSignalled then
      return { c.modifyLoop id ({ · with phase := .looking }) with isSignalled := false }
    else if deadline ≤ now then
      let c := { c with state := (c.state.expireOne now).2 }
      return c.modifyLoop id ({ · with phase := .looking })
    else none
  | .exited => none

def loopDeadline? (c : Cache) (id : Nat) : Option Nat := do
  let loop ← c.loops[id]?
  match loop.phase with
  | .waiting deadline => if loop.isCancelled then none else some deadline
  | _ => none

def hasExited (c : Cache) (id : Nat) : Bool :=
  c.loops[id]?.elim true (·.phase == .exited)

/-- The steps of starting: to lock, to mark the cache started, to spawn the loop. -/
inductive Starting
  | locking
  | marking
  | spawning
  | done
  deriving DecidableEq, Inhabited, Repr

def stepStart? (c : Cache) : Starting → Option (Starting × Cache)
  | .locking =>
    if c.isLocked then none
    else if c.current.isSome then some (.done, c)
    else some (.marking, { c with isLocked := true })
  | .marking => some (.spawning, { c with isStarted := true })
  | .spawning =>
    some (.done,
      { c with
        loops := c.loops ++ [({} : ExpiryLoop)], current := some c.loops.length,
        isLocked := false })
  | .done => none

/-- The steps of stopping: to take the loop and cancel it, to wait for its exit, to mark the cache
stopped. -/
inductive Stopping
  | taking
  | joining (loop : Nat)
  | clearing
  | done
  deriving DecidableEq, Inhabited, Repr

def stepStop? (c : Cache) : Stopping → Option (Stopping × Cache)
  | .taking =>
    if c.isLocked then none
    else match c.current with
      | none => some (.done, c)
      | some id =>
        some (.joining id, { c.modifyLoop id ({ · with isCancelled := true }) with current := none })
  | .joining id => if c.hasExited id then some (.clearing, c) else none
  | .clearing => some (.done, { c with isStarted := false })
  | .done => none

def start (c : Cache) : Cache :=
  let step := fun (p : Starting × Cache) => (p.2.stepStart? p.1).getD p
  (step (step (step (.locking, c)))).2

end Cache

end CommandBus
