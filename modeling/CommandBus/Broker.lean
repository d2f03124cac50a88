import CommandBus.ClientError
import CommandBus.Mailbox

namespace CommandBus

structure Session where
  connected : Bool := true
  subscriptions : List (Filter × QoS) := []
  receivers : Receivers := []
  unacked : List Nat := []
  acknowledged : Nat := 0
  deriving Inhabited, Repr

structure Broker where
  maxPacketSize : Option Nat := none
  /-- By client id, in the order in which the clients first connected. -/
  sessions : List (String × Session) := []
  acks : AckLedger := {}
  mailboxes : Mailboxes := {}
  /-- Messages on topics of this filter are held back. -/
  holding : Option Filter := none
  held : List Message := []
  deriving Inhabited, Repr

namespace Session

/-- The quality of service at which a topic is subscribed to, if it is. -/
def qosFor? (s : Session) (topic : String) : Option QoS :=
  match s.subscriptions.filter fun (f, _) => f.accepts topic with
  | [] => none
  | (_, first) :: rest => some (rest.foldl (fun q (_, next) => q.greater next) first)

def settle (s : Session) (n : Nat) : Session :=
  if s.unacked.contains n then
    { s with unacked := s.unacked.erase n, acknowledged := s.acknowledged + 1 }
  else s

end Session

namespace Broker

def session? (b : Broker) (client : String) : Option Session :=
  b.sessions.lookup client

def connected? (b : Broker) (client : String) : Option Session :=
  (b.session? client).filter Session.connected

def isConnected (b : Broker) (client : String) : Bool :=
  (b.connected? client).isSome

def modifySession (b : Broker) (client : String) (f : Session → Session) : Broker :=
  { b with sessions := b.sessions.map fun (id, s) => (id, if id = client then f s else s) }

def connect (b : Broker) (client : String) : Broker :=
  match b.session? client with
  | some old =>
    { b.modifySession client fun _ => {} with
      mailboxes := b.mailboxes.dropSenders old.receivers }
  | none => { b with sessions := b.sessions ++ [(client, {})] }

/-- Closes the client's receivers and drops its subscriptions. -/
def disconnect (b : Broker) (client : String) : Broker :=
  match b.session? client with
  | some s =>
    { b.modifySession client ({ · with connected := false, subscriptions := [], receivers := [] })
      with mailboxes := b.mailboxes.dropSenders s.receivers }
  | none => b

/-- Each message is settled once, in the session it was routed to. -/
def acknowledge (b : Broker) (token : AckToken) : Broker :=
  let fresh := b.acks.fresh token
  { b with
    acks := b.acks.acknowledge token
    sessions := b.sessions.map fun (id, s) => (id, fresh.foldl Session.settle s) }

/-- What routing a message has done so far: the sessions passed, and the tokens of messages that
found no receiver. -/
structure Routing where
  acks : AckLedger
  mailboxes : Mailboxes
  sessions : List (String × Session) := []
  unclaimed : List AckToken := []
  isMatched : Bool := false

def routeTo (m : Message) (r : Routing) (client : String × Session) : Routing :=
  let (id, s) := client
  match if s.connected then s.qosFor? m.topic else none with
  | none => { r with sessions := r.sessions ++ [client] }
  | some subscribed =>
    let m := { m with qos := m.qos.lesser subscribed }
    let (ack, acks) := if m.qos = .atMostOnce then (AckToken.none, r.acks) else r.acks.issue
    let d : Delivery := ⟨m, ack⟩
    let (reached, receivers, mailboxes) := r.mailboxes.deliver s.receivers d
    { acks
      mailboxes
      sessions := r.sessions ++
        [(id, { s with receivers, unacked := s.unacked ++ ack.messages })]
      unclaimed := if reached then r.unclaimed else r.unclaimed ++ [ack]
      isMatched := true }

def route (b : Broker) (m : Message) : ReasonCode × Broker :=
  let r := b.sessions.foldl (routeTo m) { acks := b.acks, mailboxes := b.mailboxes }
  let b := { b with acks := r.acks, mailboxes := r.mailboxes, sessions := r.sessions }
  (if r.isMatched then .success else .noMatchingSubscribers,
    r.unclaimed.foldl acknowledge b)

def publish (b : Broker) (client : String) (m : Message) :
    Except ClientError ReasonCode × Broker :=
  if !b.isConnected client then (.error .disconnected, b)
  else
    let size := m.packetSize
    match b.maxPacketSize.filter (· < size) with
    | some max => (.error (.packetTooLarge size max), b)
    | none =>
      if b.holding.elim false (·.accepts m.topic) then
        (.ok .success, { b with held := b.held ++ [m] })
      else
        let (code, b) := b.route m
        (.ok code, b)

def hold (b : Broker) (filter : Filter) : Broker :=
  { b with holding := some filter }

/-- Routes what was held, in the order of publishing or the reverse. -/
def release (b : Broker) (reverse : Bool) : Broker :=
  let held := if reverse then b.held.reverse else b.held
  held.foldl (fun b m => (b.route m).2) { b with holding := none, held := [] }

def dropHeld (b : Broker) : Nat × Broker :=
  (b.held.length, { b with holding := none, held := [] })

def subscribe (b : Broker) (client filter : String) (qos : QoS) :
    Except ClientError ReasonCode × Broker :=
  match Filter.parse filter with
  | .error e => (.error (.invalidFilter e), b)
  | .ok parsed =>
    if b.isConnected client then
      (.ok ⟨qos.level.toUInt8⟩,
        b.modifySession client fun s =>
          { s with subscriptions := s.subscriptions.filter (·.1 != parsed) ++ [(parsed, qos)] })
    else (.error .disconnected, b)

def unsubscribe (b : Broker) (client filter : String) :
    Except ClientError ReasonCode × Broker :=
  match Filter.parse filter with
  | .error e => (.error (.invalidFilter e), b)
  | .ok parsed =>
    match b.connected? client with
    | none => (.error .disconnected, b)
    | some s =>
      (.ok (if s.subscriptions.any (·.1 == parsed) then .success else .noSubscriptionExisted),
        b.modifySession client fun s =>
          { s with subscriptions := s.subscriptions.filter (·.1 != parsed) })

/-- Opens a mailbox for messages on matching topics; this does not subscribe. -/
def receiver (b : Broker) (client filter : String) : Except ClientError Nat × Broker :=
  match Filter.parse filter with
  | .error e => (.error (.invalidFilter e), b)
  | .ok parsed =>
    if b.isConnected client then
      let (box, mailboxes) := b.mailboxes.create
      (.ok box,
        { b.modifySession client fun s => { s with receivers := s.receivers ++ [(parsed, box)] }
          with mailboxes })
    else (.error .disconnected, b)

def unackedCount (b : Broker) (client : String) : Nat :=
  (b.connected? client).elim 0 (·.unacked.length)

def acknowledgedCount (b : Broker) (client : String) : Nat :=
  (b.connected? client).elim 0 Session.acknowledged

end Broker

end CommandBus
