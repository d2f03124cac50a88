import CommandBus.Scenario.Step

namespace CommandBus

namespace Scenario

structure Receiver where
  box : Nat
  deliveries : List Delivery := []

structure ExecutorName where
  id : Nat
  /-- How many runs have been told of. -/
  told : Nat := 0

/-- An invoker or a stream with the way to read its payloads. -/
structure Reading (V : Type) where
  id : Nat
  read : Bytes → V

def bind {α : Type} (name : String) (a : α) (names : List (String × α)) : List (String × α) :=
  (name, a) :: names.filter (·.1 != name)

def unbind {α : Type} (name : String) (names : List (String × α)) : List (String × α) :=
  names.filter (·.1 != name)

end Scenario

open Scenario in
structure Scenario (V : Type) where
  sim : Simulation V
  clients : List (String × Client) := []
  receivers : List (String × Receiver) := []
  clocks : List (String × Nat) := []
  caches : List (String × Nat) := []
  executors : List (String × ExecutorName) := []
  invokers : List (String × Reading V) := []
  calls : List (String × Nat) := []
  streams : List (String × Reading V) := []

namespace Scenario

variable {V : Type}

def start (wall : Int) (maxPacketSize : Option Nat) : Scenario V where
  sim := Simulation.start wall maxPacketSize

abbrev Script (V : Type) := StateM (Scenario V)

def run {α : Type} (f : Simulation V → α × Simulation V) : Script V α :=
  modifyGet fun s =>
    let (a, sim) := f s.sim
    (a, { s with sim })

def update (f : Simulation V → Simulation V) : Script V Unit :=
  modify fun s => { s with sim := f s.sim }

def network : Script V Network :=
  return (← get).sim.network

def withClient (name : String) (f : Client → Script V (Answer V)) : Script V (Answer V) := do
  match (← get).clients.lookup name with
  | some c => f c
  | none => return .none

def onLink (name : String) (f : Link → Link) : Script V (Answer V) :=
  withClient name fun c => do
    let link := (← network).linkOf c
    update (·.modifyNetwork (·.modifyLink link f))
    return .none

def ofCode : Except ClientError ReasonCode → Answer V
  | .ok code => .code code
  | .error e => .clientError e

def ofProtocol : Except ProtocolError Unit → Answer V
  | .ok () => .done
  | .error e => .protocolError e

def shutDown (stages : Simulation V → List Stage) : Script V Unit :=
  update fun sim => sim.shutDown (stages sim)

def arrange (operation : Operation) (outages : List Outage) (l : Link) : Link :=
  { l with outages :=
    match operation with
    | .publish => { l.outages with publish := outages }
    | .subscribe => { l.outages with subscribe := outages }
    | .unsubscribe => { l.outages with unsubscribe := outages }
    | .receiver => { l.outages with receiver := outages } }

def dropReceiver (name : String) : Script V Unit := do
  match (← get).receivers.lookup name with
  | some r => update (·.modifyNetwork (·.dropReader r.box))
  | none => return

def dropExecutor (name : String) : Script V Unit := do
  match (← get).executors.lookup name with
  | some e => update (·.dropExecutor e.id)
  | none => return

def releaseInvoker (name : String) : Script V Unit := do
  match (← get).invokers.lookup name with
  | some i => update (·.releaseInvoker i.id)
  | none => return

def dropCall (name : String) : Script V Unit := do
  match (← get).calls.lookup name with
  | some id => update (·.dropCall id)
  | none => return

def dropStream (name : String) : Script V Unit := do
  match (← get).streams.lookup name with
  | some s => update (·.dropStream s.id)
  | none => return

def releaseClient (name : String) : Script V Unit := do
  match (← get).clients.lookup name with
  | some (.chunking id) => update (·.releaseChunker id)
  | _ => return

def bindClient (name : String) (c : Client) : Script V Unit := do
  releaseClient name
  modify fun s => { s with clients := bind name c s.clients }

/-- The clock of this name; it is made if there is none. -/
def clockNamed (name : String) : Script V Nat := do
  match (← get).clocks.lookup name with
  | some id => return id
  | none =>
    let id ← run (·.newClock Clock.defaultMaxDrift)
    modify fun s => { s with clocks := bind name id s.clocks }
    return id

def clockFor : Option String → Script V Nat
  | some name => clockNamed name
  | none => run (·.newClock Clock.defaultMaxDrift)

def cacheNamed (name : String) : Script V Nat := do
  match (← get).caches.lookup name with
  | some id => return id
  | none =>
    let id ← run (·.newCache {})
    modify fun s => { s with caches := bind name id s.caches }
    return id

def connect (name : String) : Option String → Script V (Answer V)
  | some id => do
    bindClient name (.plain (← run (·.connect id)))
    return .text id
  | none => do
    let link ← run Simulation.connectGenerated
    bindClient name (.plain link)
    return .generated ((← network).clientIdOf link)

def openReceiver (name filter : String) (c : Client) : Script V (Answer V) := do
  match ← run (·.onNetwork (·.receiver c filter)) with
  | .error e => return .clientError e
  | .ok box =>
    dropReceiver name
    modify fun s => { s with receivers := bind name { box } s.receivers }
    return .done

def receive (name : String) (acknowledges : Bool) : Script V (Answer V) := do
  match (← get).receivers.lookup name with
  | none => return .missing
  | some r =>
    let deliveries ← run (·.drain r.box)
    let r := { r with deliveries := r.deliveries ++ deliveries }
    modify fun s => { s with receivers := bind name r s.receivers }
    if acknowledges then
      for d in deliveries do update (·.modifyNetwork (·.acknowledge d.ack))
    return .received (deliveries.map Delivery.message) ((← network).isClosed r.box)

def acknowledge (name : String) (position : Nat) : Script V (Answer V) := do
  match ((← get).receivers.lookup name).bind (·.deliveries[position]?) with
  | none => return .missing
  | some d =>
    update (·.modifyNetwork (·.acknowledge d.ack))
    return .text ((← network).broker.acks.describe d.ack)

def inspect (c : Client) (n : Network) : ClientReport :=
  let id := n.clientId c
  { id
    maxPacketSize := n.maxPacketSize (n.linkOf c)
    isConnected := n.broker.isConnected id
    unacknowledged := n.broker.unackedCount id
    acknowledged := n.broker.acknowledgedCount id
    pending := match c with
      | .chunking k => some (n.chunkers[k]?.elim 0 ChunkingClient.pending)
      | .plain _ => none }

def executor (name cache : String) (clock : Option String) (kind : PayloadKind V)
    (handler : Handler V) (options : ExecutorOptions) (c : Client) : Script V (Answer V) := do
  let cache ← cacheNamed cache
  let clock ← clockFor clock
  match Executor.command? kind.request kind.response handler options with
  | .error e => return .protocolError e
  | .ok command =>
    let id ← run (·.newExecutor command c options.shutdownClient cache clock)
    dropExecutor name
    modify fun s => { s with executors := bind name { id } s.executors }
    return .command command.name

def runs (name : String) : Script V (Answer V) := do
  match (← get).executors.lookup name with
  | none => return .none
  | some e =>
    let all := ((← get).sim.world.executors[e.id]?).elim [] Executor.runs
    modify fun s => { s with executors := bind name { e with told := all.length } s.executors }
    return .runs (all.drop e.told)

def invoker (name : String) (clock : Option String) (kind : PayloadKind V)
    (options : InvokerOptions) (c : Client) : Script V (Answer V) := do
  let clock ← clockFor clock
  match Channel.create c ((← network).clientId c) kind.request kind.response options with
  | .error e => return .protocolError e
  | .ok channel =>
    let id ← run (·.newInvoker channel clock)
    releaseInvoker name
    modify fun s => { s with invokers := bind name { id, read := kind.read } s.invokers }
    return .command channel.commandName

def invoke (name invoker : String) (payload : Bytes) (timeout : Duration)
    (userData : UserProperties) (tokens : TokenMap) : Script V (Answer V) := do
  match (← get).invokers.lookup invoker with
  | none => return .none
  | some i =>
    let id ← run (·.invoke i.id { payload := i.read payload, timeout, userData, tokens })
    dropCall name
    modify fun s => { s with calls := bind name id s.calls }
    return .none

def result (name : String) (waits : Bool) : Script V (Answer V) := do
  match (← get).calls.lookup name with
  | none => return .missing
  | some id =>
    if waits then update (·.await fun w => (Simulation.callResult? w id).isSome)
    match Simulation.callResult? (← get).sim.world id with
    | none => return .pending
    | some (time, r) => return .result time r

def openStream (name invoker : String) (payloads : List Bytes) (isClosed isCancelled : Bool)
    (timeout : Duration) (userData : UserProperties) (tokens : TokenMap) : Script V (Answer V) := do
  match (← get).invokers.lookup invoker with
  | none => return .none
  | some i =>
    let id ← run (·.openStream i.id { timeout, userData, tokens }
      { payloads := payloads.map i.read, isClosed } isCancelled)
    update (·.await fun w => (Simulation.opened? w id).isSome)
    match Simulation.opened? (← get).sim.world id with
    | none => return .none
    | some (.error e) => return .protocolError e
    | some (.ok ()) =>
      dropStream name
      modify fun s => { s with streams := bind name { id, read := i.read } s.streams }
      return .done

def push (name : String) (payload : Bytes) : Script V (Answer V) := do
  match (← get).streams.lookup name with
  | none => return .flag false
  | some st => return .flag (← run (·.push st.id (st.read payload)))

def next (name : String) (waits : Bool) : Script V (Answer V) := do
  match (← get).streams.lookup name with
  | none => return .missing
  | some st =>
    if waits then update (·.await fun w => (Simulation.nextItem? w st.id).isSome)
    match (← get).sim.next? st.id with
    | none => return .pending
    | some (item, sim) =>
      modify ({ · with sim })
      return .item item

def cancel (name : String) : Script V Unit := do
  let s ← get
  match s.calls.lookup name, s.streams.lookup name with
  | some id, _ => update (·.cancelCall id)
  | none, some st => update (·.cancelStream st.id)
  | none, none => return

def shutDownNamed (name : String) : Script V Unit := do
  let s ← get
  match s.executors.lookup name, s.invokers.lookup name, s.clients.lookup name with
  | some e, _, _ => shutDown (·.executorStages e.id)
  | none, some i, _ => shutDown (·.invokerStages i.id)
  | none, none, some c => shutDown fun sim => Simulation.clientStages c sim.network
  | none, none, none => return

def drop (name : String) : Script V Unit := do
  dropExecutor name
  releaseInvoker name
  dropCall name
  dropStream name
  releaseClient name
  dropReceiver name
  modify fun s => { s with
    executors := unbind name s.executors
    invokers := unbind name s.invokers
    calls := unbind name s.calls
    streams := unbind name s.streams
    clients := unbind name s.clients
    receivers := unbind name s.receivers }

def act : Step V → Script V (Answer V)
  | .connect name id => connect name id
  | .arrange client operation outages => onLink client (arrange operation outages)
  | .limit client max => onLink client ({ · with maxPacketSize := some max })
  | .chunk name client options => withClient client fun c => do
    match ← run (·.chunk ((← network).linkOf c) options) with
    | .ok id =>
      bindClient name (.chunking id)
      return .done
    | .error e => return .protocolError e
  | .subscribe client filter qos => withClient client fun c =>
    return ofCode (← run (·.onNetwork (·.subscribe c filter qos)))
  | .unsubscribe client filter => withClient client fun c =>
    return ofCode (← run (·.onNetwork (·.unsubscribe c filter)))
  | .publish client message => withClient client fun c =>
    return ofCode (← run (·.onNetwork (·.publish c message)))
  | .openReceiver name client filter => withClient client (openReceiver name filter)
  | .receive name acknowledges => receive name acknowledges
  | .acknowledge name position => acknowledge name position
  | .inspectClient client => withClient client fun c => return .client (inspect c (← network))
  | .disconnect client => withClient client fun c => do
    update (·.modifyNetwork fun n => n.disconnect (n.linkOf c))
    return .none
  | .hold filter =>
    match Filter.parse filter with
    | .ok f => do
      update (·.modifyNetwork fun n => { n with broker := n.broker.hold f })
      return .none
    | .error _ => return .none
  | .release isReversed => do
    update (·.modifyNetwork fun n => { n with broker := n.broker.release isReversed })
    return .none
  | .dropHeld =>
    return .count (← run (·.onNetwork fun n =>
      let (k, broker) := n.broker.dropHeld
      (k, { n with broker })))
  | .sleep millis => do
    update (·.sleep millis)
    return .none
  | .clock name maxDrift => do
    let id ← run (·.newClock maxDrift)
    modify fun s => { s with clocks := bind name id s.clocks }
    return .none
  | .cache name config => do
    let id ← run (·.newCache config)
    modify fun s => { s with caches := bind name id s.caches }
    return .none
  | .inspectCache name => do
    let s ← get
    match s.caches.lookup name with
    | some id =>
      let state := (s.sim.cache id).state
      return .cache state.size state.totalSize
    | none => return .none
  | .stopCache name => do
    match (← get).caches.lookup name with
    | some id => shutDown fun _ => [.stopCache id .taking]
    | none => pure ()
    return .none
  | .executor name client cache clock kind handler options =>
    withClient client (executor name cache clock kind handler options)
  | .start name => do
    match (← get).executors.lookup name with
    | none => return .none
    | some e => return ofProtocol (← run (·.startExecutor e.id))
  | .runs name => runs name
  | .invoker name client clock kind options =>
    withClient client (invoker name clock kind options)
  | .invoke name invoker payload timeout userData tokens =>
    invoke name invoker payload timeout userData tokens
  | .result call waits => result call waits
  | .openStream name invoker payloads isClosed isCancelled timeout userData tokens =>
    openStream name invoker payloads isClosed isCancelled timeout userData tokens
  | .push stream payload => push stream payload
  | .close name => do
    match (← get).streams.lookup name with
    | some st => update (·.closeInput st.id)
    | none => pure ()
    return .none
  | .next stream waits => next stream waits
  | .cancel name => do
    cancel name
    return .none
  | .shutDown name => do
    shutDownNamed name
    return .none
  | .drop name => do
    drop name
    return .none

def step (s : Scenario V) (t : Step V) : Answer V × Scenario V :=
  let (a, s) := (act t).run s
  (a, { s with sim := s.sim.settled })

def now (s : Scenario V) : Nat :=
  s.sim.world.now

end Scenario

end CommandBus
