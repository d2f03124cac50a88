import CommandBus.World.Simulation

namespace CommandBus

namespace Caching

inductive Handle
  | response (promise : Nat)
  | reservation (request : CommandRequest)

inductive Step
  | start
  | stop
  | sleep (millis : Nat)
  /-- A miss leaves a handle only if the entry is reserved. -/
  | retrieve (name : String) (request : CommandRequest) (cacheable acrossInvokers reserves : Bool)
  | store (request : CommandRequest) (response : Message) (options : Cache.StoreOptions)
  | fill (name : String) (response : Message) (options : Cache.StoreOptions)
  | drop (name : String)
  | abandon (request : CommandRequest)
  | contains (request : CommandRequest)
  | wait (name : String)
  | peek (name : String)
  /-- Whether two handles wait for the same response. -/
  | compare (name other : String)
  | setConfig (config : Cache.Config)
  | config

inductive Answer
  | none
  | missing
  | done
  /-- The store has broken off. -/
  | halted
  | miss
  | hit (promise : Cache.Promise)
  | promise (promise : Cache.Promise)
  | flag (value : Bool)
  | error (error : Cache.Error)
  | config (config : Cache.Config)

end Caching

structure Caching where
  sim : Simulation Unit
  handles : List (String × Caching.Handle) := []

namespace Caching

def start (wall : Int) (config : Cache.Config) : Caching where
  sim := ((Simulation.start wall none).newCache config).2

def cache (s : Caching) : Cache :=
  s.sim.cache 0

def onCache {α : Type} (s : Caching) (f : Cache → α × Cache) : α × Caching :=
  let (a, sim) := s.sim.onCache 0 f
  (a, { s with sim })

def now (s : Caching) : Nat :=
  s.sim.world.now

def abandon (s : Caching) (r : CommandRequest) : Bool × Caching :=
  s.onCache (·.abandon r)

def drop (s : Caching) (name : String) : Caching :=
  let forgotten := { s with handles := s.handles.filter (·.1 != name) }
  match s.handles.lookup name with
  | some (.reservation r) => (forgotten.abandon r).2
  | _ => forgotten

def keep (s : Caching) (name : String) (h : Handle) : Caching :=
  let s := s.drop name
  { s with handles := (name, h) :: s.handles }

def Answer.ofStore : Option (Except Cache.Error Unit) → Answer
  | some (.ok ()) => .done
  | some (.error e) => .error e
  | .none => .halted

def response? (s : Caching) (name : String) : Option Nat :=
  match s.handles.lookup name with
  | some (.response promise) => some promise
  | _ => none

def act (s : Caching) : Step → Answer × Caching
  | .start => (.none, { s with sim := s.sim.startCache 0 })
  | .stop =>
    (.none, { s with sim := s.sim.shutDown [.stopCache 0 .taking] })
  | .sleep millis => (.none, { s with sim := s.sim.sleep millis })
  | .retrieve name request cacheable acrossInvokers reserves =>
    match s.onCache (·.retrieve s.now request cacheable acrossInvokers) with
    | (some promise, s) =>
      let (p, s) := s.onCache (·.wait promise)
      (.hit p, s.keep name (.response promise))
    | (none, s) => (.miss, if reserves then s.keep name (.reservation request) else s)
  | .store request response options =>
    let (result, s) := s.onCache (·.store s.now request response options)
    (.ofStore result, s)
  | .fill name response options =>
    let forgotten := { s with handles := s.handles.filter (·.1 != name) }
    match s.handles.lookup name with
    | some (.reservation r) =>
      let (result, s) := forgotten.onCache (·.fill s.now r response options)
      (.ofStore result, s)
    | _ => (.missing, forgotten)
  | .drop name => (.none, s.drop name)
  | .abandon request =>
    let (found, s) := s.abandon request
    (.flag found, s)
  | .contains request => (.flag (s.cache.state.contains request.correlation), s)
  | .wait name =>
    match s.response? name with
    | some promise =>
      let (p, s) := s.onCache (·.wait promise)
      (.promise p, s)
    | none => (.missing, s)
  | .peek name =>
    match s.response? name with
    | some promise => (.promise ((s.cache.peek? promise).elim .pending .stored), s)
    | none => (.missing, s)
  | .compare name other =>
    match s.response? name, s.response? other with
    | some a, some b => (.flag (a == b), s)
    | _, _ => (.missing, s)
  | .setConfig config => (.none, (s.onCache fun c => ((), c.setConfig config)).2)
  | .config => (.config s.cache.state.config, s)

def step (s : Caching) (t : Step) : Answer × Caching :=
  let (a, s) := s.act t
  (a, { s with sim := s.sim.settled })

end Caching

end CommandBus
