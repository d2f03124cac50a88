import CommandBus.Broker
import CommandBus.Chunk.Client
import CommandBus.Uuid

namespace CommandBus

inductive Outage
  | pass
  | answer (code : ReasonCode)
  | disconnected
  deriving DecidableEq, Inhabited, Repr

/-- The outages ahead, for each operation in the order of its calls. -/
structure Outages where
  publish : List Outage := []
  subscribe : List Outage := []
  unsubscribe : List Outage := []
  receiver : List Outage := []
  deriving Inhabited, Repr

structure Link where
  clientId : String
  outages : Outages := {}
  /-- Set if the link reports another limit on packets than the broker's. -/
  maxPacketSize : Option (Option Nat) := none
  deriving Inhabited, Repr

inductive Client
  | plain (link : Nat)
  | chunking (id : Nat)
  deriving DecidableEq, Inhabited, Repr

structure Network where
  broker : Broker := {}
  links : List Link := []
  chunkers : List ChunkingClient := []
  /-- How many identifiers have been given out. -/
  issuedIds : Nat := 0
  deriving Inhabited

namespace Network

def freshId (n : Network) : Bytes × Network :=
  (Uuid.ofIndex n.issuedIds, { n with issuedIds := n.issuedIds + 1 })

def modifyLink (n : Network) (link : Nat) (f : Link → Link) : Network :=
  { n with links := n.links.modify link f }

def modifyChunker (n : Network) (id : Nat) (f : ChunkingClient → ChunkingClient) : Network :=
  { n with chunkers := n.chunkers.modify id f }

def modifyMailboxes (n : Network) (f : Mailboxes → Mailboxes) : Network :=
  { n with broker := { n.broker with mailboxes := f n.broker.mailboxes } }

def clientIdOf (n : Network) (link : Nat) : String :=
  n.links[link]?.elim "" Link.clientId

def linkOf (n : Network) : Client → Nat
  | .plain link => link
  | .chunking id => n.chunkers[id]?.elim 0 ChunkingClient.link

def clientId (n : Network) (c : Client) : String :=
  n.clientIdOf (n.linkOf c)

def maxPacketSize (n : Network) (link : Nat) : Option Nat :=
  (n.links[link]?.bind Link.maxPacketSize).getD n.broker.maxPacketSize

def connect (n : Network) (clientId : String) : Nat × Network :=
  (n.links.length,
    { n with
      broker := n.broker.connect clientId
      links := n.links ++ [({ clientId } : Link)] })

def disconnect (n : Network) (link : Nat) : Network :=
  { n with broker := n.broker.disconnect (n.clientIdOf link) }

def acknowledge (n : Network) (token : AckToken) : Network :=
  { n with broker := n.broker.acknowledge token }

/-- An operation on a link, unless an outage stands in for it. -/
def onLink {α : Type} (n : Network) (link : Nat) (ahead : Outages → List Outage)
    (rest : List Outage → Outages → Outages) (answer : ReasonCode → Except ClientError α)
    (operation : Broker → Except ClientError α × Broker) : Except ClientError α × Network :=
  match n.links[link]?.elim [] fun l => ahead l.outages with
  | [] =>
    let (result, broker) := operation n.broker
    (result, { n with broker })
  | outage :: more =>
    let n := n.modifyLink link fun l => { l with outages := rest more l.outages }
    match outage with
    | .pass =>
      let (result, broker) := operation n.broker
      (result, { n with broker })
    | .answer code => (answer code, n)
    | .disconnected => (.error .disconnected, n)

def publishOn (n : Network) (link : Nat) (m : Message) : Except ClientError ReasonCode × Network :=
  n.onLink link Outages.publish (fun more o => { o with publish := more }) .ok
    (·.publish (n.clientIdOf link) m)

def subscribeOn (n : Network) (link : Nat) (filter : String) (qos : QoS) :
    Except ClientError ReasonCode × Network :=
  n.onLink link Outages.subscribe (fun more o => { o with subscribe := more }) .ok
    (·.subscribe (n.clientIdOf link) filter qos)

def unsubscribeOn (n : Network) (link : Nat) (filter : String) :
    Except ClientError ReasonCode × Network :=
  n.onLink link Outages.unsubscribe (fun more o => { o with unsubscribe := more }) .ok
    (·.unsubscribe (n.clientIdOf link) filter)

def receiverOn (n : Network) (link : Nat) (filter : String) : Except ClientError Nat × Network :=
  n.onLink link Outages.receiver (fun more o => { o with receiver := more })
    (fun _ => .error .disconnected) (·.receiver (n.clientIdOf link) filter)

/-- Publishes chunks in order, up to the first that is not accepted. -/
def publishAll (link : Nat) : List Message → ReasonCode → Network →
    Except ClientError ReasonCode × Network
  | [], code, n => (.ok code, n)
  | m :: rest, _, n =>
    match n.publishOn link m with
    | (.error e, n) => (.error e, n)
    | (.ok code, n) => if code.isSuccess then publishAll link rest code n else (.ok code, n)

def publish (n : Network) (c : Client) (m : Message) : Except ClientError ReasonCode × Network :=
  match c with
  | .plain link => n.publishOn link m
  | .chunking id =>
    match n.chunkers[id]?.filter (!·.isCancelled) with
    | none => (.error .disconnected, n)
    | some chunker =>
      let (messageId, n) := n.freshId
      match chunker.options.prepare (n.maxPacketSize chunker.link) (Uuid.text messageId) m with
      | .error e => (.error (.chunking e), n)
      | .ok messages => publishAll chunker.link messages .success n

def subscribe (n : Network) (c : Client) (filter : String) (qos : QoS) :
    Except ClientError ReasonCode × Network :=
  n.subscribeOn (n.linkOf c) filter qos

def unsubscribe (n : Network) (c : Client) (filter : String) :
    Except ClientError ReasonCode × Network :=
  n.unsubscribeOn (n.linkOf c) filter

def receiver (n : Network) (c : Client) (filter : String) : Except ClientError Nat × Network :=
  match c with
  | .plain link => n.receiverOn link filter
  | .chunking id =>
    if n.chunkers[id]?.elim true ChunkingClient.isCancelled then (.error .disconnected, n)
    else match Filter.parse filter with
      | .error e => (.error (.invalidFilter e), n)
      | .ok parsed =>
        let (box, mailboxes) := n.broker.mailboxes.create
        (.ok box,
          (n.modifyMailboxes fun _ => mailboxes).modifyChunker id fun chunker =>
            { chunker with receivers := chunker.receivers ++ [(parsed, box)] })

def chunk (n : Network) (link now : Nat) (o : ChunkingOptions) :
    Except ProtocolError Nat × Network :=
  match o.check (n.maxPacketSize link) with
  | .error e => (.error e, n)
  | .ok () =>
    match n.receiverOn link "#" with
    | (.error e, n) => (.error (.ofClient e), n)
    | (.ok box, n) =>
      (.ok n.chunkers.length,
        { n with chunkers := n.chunkers ++ [ChunkingClient.create link box now o] })

def take? (n : Network) (box : Nat) : Option (Delivery × Network) :=
  (n.broker.mailboxes.take? box).map fun (d, mailboxes) => (d, n.modifyMailboxes fun _ => mailboxes)

def isClosed (n : Network) (box : Nat) : Bool :=
  n.broker.mailboxes.isClosed box

def dropReader (n : Network) (box : Nat) : Network :=
  n.modifyMailboxes (·.dropReader box)

/-- Hands a delivery to the receivers of a chunking client, or acknowledges it if there is none. -/
def dispatch (n : Network) (id : Nat) (d : Delivery) : Network :=
  match n.chunkers[id]? with
  | none => n
  | some chunker =>
    let (reached, receivers, mailboxes) := n.broker.mailboxes.deliver chunker.receivers d
    let n := (n.modifyMailboxes fun _ => mailboxes).modifyChunker id ({ · with receivers })
    if reached then n else n.acknowledge d.ack

def collect (n : Network) (id now : Nat) (d : Delivery) : Network :=
  match n.chunkers[id]? with
  | none => n
  | some chunker =>
    let (action, inbound) := chunker.inbound.handle now d
    let n := n.modifyChunker id ({ · with inbound })
    match action with
    | .acknowledge ack => n.acknowledge ack
    | .dispatch d => n.dispatch id d

/-- Ends the collecting of a chunking client: its receivers are closed. -/
def endCollecting (n : Network) (id : Nat) : Network :=
  match n.chunkers[id]? with
  | none => n
  | some chunker =>
    (n.modifyMailboxes fun m => (m.dropReader chunker.box).dropSenders chunker.receivers).modifyChunker
      id ({ · with isCollecting := false, receivers := [] })

/-- The next step of collecting; `none` while nothing has arrived and after it has ended. -/
def stepCollect? (n : Network) (id now : Nat) : Option Network := do
  let chunker ← n.chunkers[id]?
  if !chunker.isCollecting then none
  else if chunker.isCancelled then return n.endCollecting id
  else match n.take? chunker.box with
    | some (d, n) => return n.collect id now d
    | none => if n.isClosed chunker.box then return n.endCollecting id else none

/-- The next step of sweeping; `none` until it is time and after it has ended. -/
def stepSweep? (n : Network) (id now : Nat) : Option Network := do
  let chunker ← n.chunkers[id]?
  let time ← chunker.nextSweep
  if chunker.isCancelled then return n.modifyChunker id ({ · with nextSweep := none })
  else if time ≤ now then return n.modifyChunker id (·.sweep now)
  else none

def sweepDeadline? (n : Network) (id : Nat) : Option Nat := do
  let chunker ← n.chunkers[id]?
  if chunker.isCancelled then none else chunker.nextSweep

/-- Whether the background work of a chunking client has ended. -/
def hasEnded (n : Network) (id : Nat) : Bool :=
  n.chunkers[id]?.elim true fun c => !c.isCollecting && c.nextSweep.isNone

/-- Discards what a chunking client has kept, once its background work has ended. -/
def clear (n : Network) (id : Nat) : Network :=
  match n.chunkers[id]? with
  | none => n
  | some chunker =>
    (n.modifyMailboxes (·.dropSenders chunker.receivers)).modifyChunker id fun c =>
      { c with receivers := [], inbound := { c.inbound with assemblers := [] } }

end Network

end CommandBus
