import CommandBus.Executor
import CommandBus.Scheduler
import CommandBus.Stream.Exchange

namespace CommandBus

structure RequestEntry (V : Type) where
  executor : Nat
  task : Request.Task V

structure Invoker (V : Type) where
  channel : Channel V
  /-- The number of its clock. -/
  clock : Nat
  router : Router := {}
  /-- Nobody holds the invoker any more, apart from its calls and streams. -/
  isReleased : Bool := false

structure CallEntry (V : Type) where
  invoker : Nat
  call : Call V
  isAborted : Bool := false

structure StreamEntry (V : Type) where
  invoker : Nat
  stream : Stream V

inductive Stage
  | cancelExecutor (id : Nat)
  | takeExecutor (id : Nat)
  | joinExecutor (id : Nat)
  | unsubscribe (client : Client) (filter : String)
  | stopRouter (invoker : Nat) (step : Router.Stopping)
  | cancelChunker (id : Nat)
  | joinChunker (id : Nat)
  | clearChunker (id : Nat)
  | disconnect (link : Nat)
  | stopCache (id : Nat) (step : Cache.Stopping)

structure World (V : Type) where
  now : Nat := 0
  /-- The reading of the wall clock, in nanoseconds since the epoch. -/
  wall : Int
  network : Network := {}
  clocks : List Clock := []
  caches : List Cache := []
  executors : List (Executor V) := []
  requests : List (RequestEntry V) := []
  /-- Requests that have dropped a reservation of a locked cache; a task of each is to give up the
  entry. -/
  leaving : List Nat := []
  invokers : List (Invoker V) := []
  calls : List (CallEntry V) := []
  streams : List (StreamEntry V) := []
  /-- Chunking clients that nobody holds any more, apart from executors and invokers. -/
  releasedChunkers : List Nat := []

/-- Tasks are named by the numbers of what they work on. -/
inductive WorldTask
  | expiry (cache loop : Nat)
  | collect (chunker : Nat)
  | sweep (chunker : Nat)
  | serve (executor : Nat)
  | request (id : Nat)
  /-- Gives up an entry whose reservation a request has dropped. -/
  | abandon (id : Nat)
  | route (invoker route : Nat)
  | call (id : Nat)
  | opening (stream : Nat)
  | send (stream : Nat)
  /-- Does nothing but wait for the deadline of a stream. -/
  | deadline (stream : Nat)
  deriving DecidableEq, Inhabited, Repr

namespace World

variable {V : Type}

def modifyCache (w : World V) (id : Nat) (f : Cache → Cache) : World V :=
  { w with caches := w.caches.modify id f }

def modifyExecutor (w : World V) (id : Nat) (f : Executor V → Executor V) : World V :=
  { w with executors := w.executors.modify id f }

def modifyInvoker (w : World V) (id : Nat) (f : Invoker V → Invoker V) : World V :=
  { w with invokers := w.invokers.modify id f }

def modifyStream (w : World V) (id : Nat) (f : Stream V → Stream V) : World V :=
  { w with streams := w.streams.modify id fun e => { e with stream := f e.stream } }

def modifyNetwork (w : World V) (f : Network → Network) : World V :=
  { w with network := f w.network }

/-- The part of the world that calls and streams of an invoker work with. -/
def invokerState? (w : World V) (id : Nat) : Option (Channel V × InvokerState) := do
  let invoker ← w.invokers[id]?
  let clock ← w.clocks[invoker.clock]?
  return (invoker.channel,
    { router := invoker.router, clock, network := w.network, now := w.now, wall := w.wall })

def putInvokerState (w : World V) (id : Nat) (s : InvokerState) : World V :=
  match w.invokers[id]? with
  | none => w
  | some invoker =>
    { w with
      network := s.network
      clocks := w.clocks.set invoker.clock s.clock
      invokers := w.invokers.set id { invoker with router := s.router } }

def isCallOver (e : CallEntry V) : Bool :=
  e.isAborted || e.call.result?.isSome

def isInvokerGone (w : World V) (id : Nat) : Bool :=
  w.invokers[id]?.elim true Invoker.isReleased &&
    w.calls.all (fun e => e.invoker != id || isCallOver e) &&
    w.streams.all (fun e => e.invoker != id || e.stream.isDropped)

def usesChunker (id : Nat) (c : Client) : Bool :=
  c == .chunking id

def isChunkerGone (w : World V) (id : Nat) : Bool :=
  w.releasedChunkers.contains id &&
    w.executors.all (fun e => !usesChunker id e.client || (e.isDropped && e.hasExited)) &&
    w.invokers.zipIdx.all fun (i, k) => !usesChunker id i.channel.client || w.isInvokerGone k

/-- The network with the chunking client cancelled if it is gone. -/
def networkFor (w : World V) (chunker : Nat) : Network :=
  if w.isChunkerGone chunker then w.network.modifyChunker chunker ({ · with isCancelled := true })
  else w.network

/-- One step of the loop of an executor: finished tasks come before new ones. -/
def stepServe? (w : World V) (id : Nat) : Option (World V × List WorldTask) := do
  let e ← w.executors[id]?
  let loop ← e.loop
  let put := fun (loop : ServeLoop) => w.modifyExecutor id ({ · with loop := some loop })
  let join := { loop with started := loop.started - 1, finished := loop.finished - 1 }
  match loop.phase with
  | .exited => none
  | .ending =>
    if 0 < loop.finished then return (put join, [])
    else if loop.started = 0 then
      return ((put { loop with phase := .exited }).modifyNetwork (·.dropReader loop.box), [])
    else none
  | .serving =>
    if e.isCancelled then return (put { loop with phase := .ending }, [])
    else if 0 < loop.finished then return (put join, [])
    else match w.network.take? loop.box with
      | some (d, network) =>
        let entry : RequestEntry V := ⟨id, Request.arrive d w.now⟩
        return ({ put { loop with started := loop.started + 1 } with
          network, requests := w.requests ++ [entry] }, [.request w.requests.length])
      | none =>
        if w.network.isClosed loop.box then return (put { loop with phase := .ending }, []) else none

/-- Tells the loop of an executor that one of its tasks has finished. -/
def noteFinished (w : World V) (executor : Nat) : World V :=
  w.modifyExecutor executor (·.modifyLoop fun loop => { loop with finished := loop.finished + 1 })

/-- What a step of a request does around it. `isLocked` says whether the cache is in use elsewhere
at that moment. -/
def perform (w : World V) (id executor : Nat) (e : Executor V) (isLocked : Bool) :
    Request.Effect V → World V
  | .none => w
  | .invoke request => w.modifyExecutor executor fun e => { e with runs := e.runs ++ [request] }
  | .publish m => w.modifyNetwork fun n => (n.publish e.client m).2
  | .acknowledge ack => w.modifyNetwork (·.acknowledge ack)
  | .release r =>
    if isLocked then { w with leaving := w.leaving ++ [id] }
    else w.modifyCache e.cache fun c => (c.abandon r).2

/-- Takes over what a step of a request has left of it, of its cache and of its clock. -/
def putTask (w : World V) (id : Nat) (entry : RequestEntry V) (e : Executor V)
    (task : Request.Task V) (s : Request.Surroundings) : World V :=
  { w with
    requests := w.requests.set id { entry with task }
    caches := w.caches.set e.cache s.cache
    clocks := w.clocks.set e.clock s.clock }

/-- The next step of a request. One whose executor is ending is aborted at its next turn. -/
def stepRequest? (w : World V) (id : Nat) (isLocked : Bool) : Option (World V) := do
  let entry ← w.requests[id]?
  let e ← w.executors[entry.executor]?
  let cache ← w.caches[e.cache]?
  let clock ← w.clocks[e.clock]?
  if entry.task.isFinished then none
  else
    let (task, s, effect) ← entry.task.proceed? e.command e.isEnding
      { cache, clock, now := w.now, wall := w.wall, runs := e.runs.length }
    let w := (w.putTask id entry e task s).perform id entry.executor e isLocked effect
    return if task.isFinished then w.noteFinished entry.executor else w

def stepAbandon? (w : World V) (id : Nat) : Option (World V) := do
  let entry ← w.requests[id]?
  let e ← w.executors[entry.executor]?
  let cache ← w.caches[e.cache]?
  if w.leaving.contains id then
    let r := Request.cacheRequest e.command entry.task.message
    return { w with
      caches := w.caches.set e.cache (cache.abandon r).2
      leaving := w.leaving.filter (· != id) }
  else none

/-- Aborted requests get their turn in the order in which they arrived. -/
def requestRank (w : World V) (id : Nat) : Nat :=
  match w.requests[id]? with
  | none => 0
  | some entry =>
    match w.executors[entry.executor]? with
    | none => 0
    | some e => if e.isEnding then id else w.caches[e.cache]?.elim 0 entry.task.rank

def stepRoute? (w : World V) (id route : Nat) : Option (World V) := do
  let invoker ← w.invokers[id]?
  let router := if w.isInvokerGone id then invoker.router.cancel else invoker.router
  let (router, network) ← router.stepRoute? route w.network
  return { w.modifyInvoker id ({ · with router }) with network }

def stepCall? (w : World V) (id : Nat) : Option (World V × List WorldTask) := do
  let entry ← w.calls[id]?
  if entry.isAborted then none
  let (channel, s) ← w.invokerState? entry.invoker
  let (call, s, route) ← entry.call.step? channel s
  return ({ w.putInvokerState entry.invoker s with calls := w.calls.set id { entry with call } },
    (route.map (WorldTask.route entry.invoker)).toList)

def stepOpening? (w : World V) (id : Nat) : Option (World V × List WorldTask) := do
  let entry ← w.streams[id]?
  let (channel, s) ← w.invokerState? entry.invoker
  let (stream, s, started) ← entry.stream.stepOpening? channel s
  let w := w.putInvokerState entry.invoker s
  return ({ w with streams := w.streams.set id { entry with stream } },
    match started with
    | none => []
    | some (.route route) => [.route entry.invoker route]
    | some .sender => [.send id, .deadline id])

def stepSend? (w : World V) (id : Nat) : Option (World V) := do
  let entry ← w.streams[id]?
  let (channel, s) ← w.invokerState? entry.invoker
  let (stream, s) ← entry.stream.stepSender? channel s
  let w := w.putInvokerState entry.invoker s
  return { w with streams := w.streams.set id { entry with stream } }

/-- One stage; what it leaves to be done comes first. `none` while it waits. A shutdown that comes
second waits for the loop that another has taken over. -/
def stepStage? (w : World V) : Stage → Option (List Stage × World V)
  | .cancelExecutor id => some ([], w.modifyExecutor id ({ · with isCancelled := true }))
  | .takeExecutor id =>
    match w.executors[id]? with
    | some e =>
      if e.hasLoop then
        some ([.joinExecutor id, .unsubscribe e.client e.command.requestFilter],
          w.modifyExecutor id ({ · with isTaken := true }))
      else some ([.joinExecutor id], w)
    | none => some ([], w)
  | .joinExecutor id => if w.executors[id]?.elim true Executor.hasExited then some ([], w) else none
  | .unsubscribe client filter =>
    some ([], w.modifyNetwork fun n => (n.unsubscribe client filter).2)
  | .stopRouter _ .done => some ([], w)
  | .stopRouter id step => do
    let invoker ← w.invokers[id]?
    let (step, router, network) ← invoker.router.stepStop? invoker.channel.client w.network step
    return ([.stopRouter id step], { w.modifyInvoker id ({ · with router }) with network })
  | .cancelChunker id =>
    some ([], w.modifyNetwork (·.modifyChunker id ({ · with isCancelled := true })))
  | .joinChunker id => if w.network.hasEnded id then some ([], w) else none
  | .clearChunker id => some ([], w.modifyNetwork (·.clear id))
  | .disconnect link => some ([], w.modifyNetwork (·.disconnect link))
  | .stopCache _ .done => some ([], w)
  | .stopCache id step => do
    let cache ← w.caches[id]?
    let (step, cache) ← cache.stepStop? step
    return ([.stopCache id step], { w with caches := w.caches.set id cache })

def step? (t : WorldTask) (w : World V) : Option (World V × List WorldTask) :=
  match t with
  | .expiry cache loop => do
    let c ← (← w.caches[cache]?).stepLoop? loop w.now
    return ({ w with caches := w.caches.set cache c }, [])
  | .collect id => (w.networkFor id).stepCollect? id w.now |>.map ({ w with network := · }, [])
  | .sweep id => (w.networkFor id).stepSweep? id w.now |>.map ({ w with network := · }, [])
  | .serve id => w.stepServe? id
  -- Tasks run one at a time here, so none of them finds a cache locked.
  | .request id => (w.stepRequest? id false).map (·, [])
  | .abandon id => (w.stepAbandon? id).map (·, [])
  | .route invoker route => (w.stepRoute? invoker route).map (·, [])
  | .call id => w.stepCall? id
  | .opening id => w.stepOpening? id
  | .send id => (w.stepSend? id).map (·, [])
  | .deadline _ => none

def deadline? (t : WorldTask) (w : World V) : Option Nat :=
  match t with
  | .expiry cache loop => w.caches[cache]?.bind (·.loopDeadline? loop)
  | .sweep id => w.network.sweepDeadline? id
  | .request id => w.requests[id]?.bind (·.task.deadline?)
  | .call id => w.calls[id]?.bind fun e => if e.isAborted then none else e.call.deadline?
  | .opening id => w.streams[id]?.bind (·.stream.openingDeadline?)
  | .deadline id => w.streams[id]?.bind fun e => if e.stream.isDone then none else some e.stream.deadline
  | _ => none

def isOver (t : WorldTask) (w : World V) : Bool :=
  match t with
  | .expiry cache loop => w.caches[cache]?.elim true (·.hasExited loop)
  | .collect id => w.network.chunkers[id]?.elim true (!·.isCollecting)
  | .sweep id => w.network.chunkers[id]?.elim true (·.nextSweep.isNone)
  | .serve id => w.executors[id]?.elim true Executor.hasExited
  | .request id => w.requests[id]?.elim true (·.task.isFinished)
  | .abandon id => !w.leaving.contains id
  | .route invoker route => w.invokers[invoker]?.elim true (·.router.isOver route)
  | .call id => w.calls[id]?.elim true isCallOver
  | .opening id => w.streams[id]?.elim true fun e =>
    match e.stream.opening with
    | .opened | .failed _ => true
    | _ => false
  | .send id => w.streams[id]?.elim true fun e => e.stream.isDropped || e.stream.isSenderFinished
  | .deadline id => w.streams[id]?.elim true fun e => e.stream.isDropped || e.stream.deadline ≤ w.now

/-- Readers of mailboxes get their turn in the order in which the first delivery came to each. -/
def rank (t : WorldTask) (w : World V) : Nat :=
  let since := w.network.broker.mailboxes.since
  match t with
  | .collect id => w.network.chunkers[id]?.elim 0 fun c => since c.box
  | .serve id => ((w.executors[id]?).bind Executor.loop).elim 0 fun loop => since loop.box
  | .route invoker route =>
    (w.invokers[invoker]?.bind (·.router.routes[route]?)).elim 0 fun r => since r.box
  | .request id => w.requestRank id
  | _ => 0

def tasks : TaskSystem (World V) WorldTask where
  step?
  deadline?
  isOver
  rank
  now := World.now
  setNow := fun w now => { w with now }

end World

end CommandBus
