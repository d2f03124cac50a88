import CommandBus.World

namespace CommandBus

abbrev Simulation (V : Type) := Schedule (World V) WorldTask

namespace Simulation

variable {V : Type}

def start (wall : Int) (maxPacketSize : Option Nat) : Simulation V :=
  { state := { wall, network := { broker := { maxPacketSize } } } }

def world (s : Simulation V) : World V := s.state
def network (s : Simulation V) : Network := s.state.network

def update (s : Simulation V) (f : World V → World V) : Simulation V := Schedule.modify s f
def launch (s : Simulation V) (tasks : List WorldTask) : Simulation V := Schedule.spawn s tasks

def settled (s : Simulation V) : Simulation V := s.settle World.tasks
def sleep (s : Simulation V) (span : Nat) : Simulation V := s.pass World.tasks span
def await (s : Simulation V) (isReached : World V → Bool) : Simulation V :=
  s.waitUntil World.tasks isReached

def onNetwork {α : Type} (s : Simulation V) (f : Network → α × Network) : α × Simulation V :=
  let (a, network) := f s.state.network
  (a, s.update ({ · with network }))

def modifyNetwork (s : Simulation V) (f : Network → Network) : Simulation V :=
  s.update (·.modifyNetwork f)

def connect (s : Simulation V) (clientId : String) : Nat × Simulation V :=
  s.onNetwork (·.connect clientId)

/-- Connects under an id of its own: letters and digits, different every time. -/
def connectGenerated (s : Simulation V) : Nat × Simulation V :=
  let (id, s) := s.onNetwork Network.freshId
  s.connect (String.ofList ((Bytes.hex id).drop 16))

/-- Makes a chunking client over a link, with its background tasks. -/
def chunk (s : Simulation V) (link : Nat) (o : ChunkingOptions) :
    Except ProtocolError Nat × Simulation V :=
  match s.onNetwork (·.chunk link s.state.now o) with
  | (.ok id, s) =>
    (.ok id, s.launch (.collect id :: if o.enabled then [.sweep id] else []))
  | (.error e, s) => (.error e, s)

def releaseChunker (s : Simulation V) (id : Nat) : Simulation V :=
  s.update fun w => { w with releasedChunkers := id :: w.releasedChunkers }

def drain (s : Simulation V) (box : Nat) : List Delivery × Simulation V :=
  s.onNetwork fun n =>
    (n.broker.mailboxes.boxes[box]?.elim [] Mailbox.waiting,
      n.modifyMailboxes (·.modify box ({ · with waiting := [] })))

def newClock (s : Simulation V) (maxDrift : Duration) : Nat × Simulation V :=
  let (id, s) := s.onNetwork Network.freshId
  (s.state.clocks.length,
    s.update fun w => { w with clocks := w.clocks ++ [Clock.start (Uuid.text id) w.wall maxDrift] })

def newCache (s : Simulation V) (config : Cache.Config) : Nat × Simulation V :=
  (s.state.caches.length, s.update fun w => { w with caches := w.caches ++ [Cache.ofConfig config] })

def cache (s : Simulation V) (id : Nat) : Cache :=
  s.state.caches[id]?.getD {}

def onCache {α : Type} (s : Simulation V) (id : Nat) (f : Cache → α × Cache) : α × Simulation V :=
  let (a, cache) := f (s.cache id)
  (a, s.update fun w => { w with caches := w.caches.set id cache })

/-- Starts the expiry loop of a cache, unless one is running. -/
def startCache (s : Simulation V) (id : Nat) : Simulation V :=
  let before := (s.cache id).loops.length
  let s := s.update (·.modifyCache id Cache.start)
  if before < (s.cache id).loops.length then s.launch [.expiry id before] else s

def newExecutor (s : Simulation V) (command : Command V) (client : Client) (shutdownClient : Bool)
    (cache clock : Nat) : Nat × Simulation V :=
  (s.state.executors.length,
    s.update fun w =>
      { w with executors := w.executors ++ [{ command, client, shutdownClient, cache, clock }] })

/-- Starts receiving requests: first the cache, then a mailbox, then the subscription. -/
def startExecutor (s : Simulation V) (id : Nat) : Except ProtocolError Unit × Simulation V :=
  match s.state.executors[id]? with
  | none => (.ok (), s)
  | some e =>
    let fail := fun (error : ProtocolError) => Except.error (error.withCommand e.command.name)
    if e.hasLoop then (.ok (), s)
    else if e.isCancelled then
      (fail (ProtocolError.cancellation.withText "executor has been shut down"), s)
    else
      let s := s.startCache e.cache
      match s.onNetwork (·.receiver e.client e.command.requestFilter) with
      | (.error error, s) => (fail (.ofClient error), s)
      | (.ok box, s) =>
        match s.onNetwork (·.subscribe e.client e.command.requestFilter .atLeastOnce) with
        | (.error error, s) => (fail (.ofClient error), s.modifyNetwork (·.dropReader box))
        | (.ok code, s) =>
          if code.isSuccess then
            (.ok (),
              (s.update (·.modifyExecutor id ({ · with loop := some { box } }))).launch [.serve id])
          else (fail (.ofClient (.rejected code)), s.modifyNetwork (·.dropReader box))

def dropExecutor (s : Simulation V) (id : Nat) : Simulation V :=
  s.update (·.modifyExecutor id ({ · with isCancelled := true, isDropped := true }))

def newInvoker (s : Simulation V) (channel : Channel V) (clock : Nat) : Nat × Simulation V :=
  (s.state.invokers.length,
    s.update fun w => { w with invokers := w.invokers ++ [{ channel, clock }] })

def releaseInvoker (s : Simulation V) (id : Nat) : Simulation V :=
  s.update (·.modifyInvoker id ({ · with isReleased := true }))

def invoke (s : Simulation V) (invoker : Nat) (request : InvokeRequest V) : Nat × Simulation V :=
  let id := s.state.calls.length
  (id, (s.update fun w => { w with calls := w.calls ++ [{ invoker, call := { request } }] }).launch
    [.call id])

def callResult? (w : World V) (id : Nat) : Option (Nat × Except ProtocolError (Response V)) :=
  w.calls[id]?.bind (·.call.result?)

def modifyCall (s : Simulation V) (id : Nat) (f : CallEntry V → CallEntry V) : Simulation V :=
  s.update fun w => { w with calls := w.calls.modify id f }

def cancelCall (s : Simulation V) (id : Nat) : Simulation V :=
  s.modifyCall id fun e => { e with call := { e.call with isCancelled := true } }

def dropCall (s : Simulation V) (id : Nat) : Simulation V :=
  match s.state.calls[id]? with
  | none => s
  | some entry =>
    let s := s.modifyCall id ({ · with isAborted := true })
    s.update fun w =>
      match w.invokerState? entry.invoker with
      | some (_, state) => w.putInvokerState entry.invoker (entry.call.leave state)
      | none => w

def openStream (s : Simulation V) (invoker : Nat) (request : StreamRequest V)
    (input : StreamInput V) (isCancelled : Bool) : Nat × Simulation V :=
  let id := s.state.streams.length
  (id, (s.update fun w =>
    { w with streams := w.streams ++ [⟨invoker, { request, input, isCancelled }⟩] }).launch
      [.opening id])

def opened? (w : World V) (id : Nat) : Option (Except ProtocolError Unit) :=
  w.streams[id]?.bind fun e =>
    match e.stream.opening with
    | .opened => some (.ok ())
    | .failed error => some (.error error)
    | _ => none

/-- Gives a payload to a stream, which takes it while its input is open and read. -/
def push (s : Simulation V) (id : Nat) (payload : V) : Bool × Simulation V :=
  match s.state.streams[id]? with
  | none => (false, s)
  | some e =>
    if e.stream.input.isRead && !e.stream.input.isClosed then
      (true, s.update (·.modifyStream id fun st =>
        { st with input := { st.input with payloads := st.input.payloads ++ [payload] } }))
    else (false, s)

def closeInput (s : Simulation V) (id : Nat) : Simulation V :=
  s.update (·.modifyStream id fun st => { st with input := { st.input with isClosed := true } })

def cancelStream (s : Simulation V) (id : Nat) : Simulation V :=
  s.update (·.modifyStream id ({ · with isCancelled := true }))

def nextItem? (w : World V) (id : Nat) : Option (Stream.Item V × World V) := do
  let entry ← w.streams[id]?
  let (channel, state) ← w.invokerState? entry.invoker
  let (item, stream, state) ← entry.stream.next? channel state
  return (item, (w.putInvokerState entry.invoker state).modifyStream id fun _ => stream)

def next? (s : Simulation V) (id : Nat) : Option (Stream.Item V × Simulation V) :=
  (nextItem? s.state id).map fun (item, w) => (item, { s with state := w })

def dropStream (s : Simulation V) (id : Nat) : Simulation V :=
  s.update fun w =>
    match w.streams[id]? with
    | none => w
    | some entry =>
      match w.invokerState? entry.invoker with
      | none => w
      | some (_, state) =>
        let (stream, state) := entry.stream.drop state
        (w.putInvokerState entry.invoker state).modifyStream id fun _ => stream

def clientStages : Client → Network → List Stage
  | .plain link, _ => [.disconnect link]
  | .chunking id, n =>
    [.cancelChunker id, .joinChunker id, .clearChunker id, .disconnect (n.linkOf (.chunking id))]

def executorStages (s : Simulation V) (id : Nat) : List Stage :=
  [.cancelExecutor id, .takeExecutor id] ++
    match s.state.executors[id]? with
    | some e => if e.shutdownClient then clientStages e.client s.network else []
    | none => []

def invokerStages (s : Simulation V) (id : Nat) : List Stage :=
  [.stopRouter id .cancelling] ++
    match s.state.invokers[id]? with
    | some i => if i.channel.shutdownClient then clientStages i.channel.client s.network else []
    | none => []

def shutDownFrom : Nat → List Stage → Simulation V → Simulation V
  | fuel + 1, stage :: rest, s =>
    let s := if (s.state.stepStage? stage).isSome then s
      else s.await fun w => (w.stepStage? stage).isSome
    match s.state.stepStage? stage with
    | some (first, state) => shutDownFrom fuel (first ++ rest) { s with state }
    | none => s
  | _, _, s => s

/-- Goes through the stages of a shutdown. Where one has to wait, everything else goes on first. -/
def shutDown (s : Simulation V) (stages : List Stage) : Simulation V :=
  shutDownFrom Schedule.stepLimit stages s

end Simulation

end CommandBus
