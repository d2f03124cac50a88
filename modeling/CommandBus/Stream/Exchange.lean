import CommandBus.Stream.Sender

namespace CommandBus

structure StreamRequest (V : Type) where
  /-- Covers the whole exchange. -/
  timeout : Duration
  userData : UserProperties := []
  tokens : TokenMap := []

structure StreamItem (V : Type) where
  response : Response V
  /-- The position of the response in the stream. -/
  index : UInt64
  isLast : Bool

namespace Stream

inductive Opening
  | checking
  /-- The arguments are accepted, and the input has shown nothing yet. -/
  | awaitingInput (route : StreamRoute)
  | subscribing (route : StreamRoute) (step : Router.Ensuring)
  | opened
  | failed (error : ProtocolError)

end Stream

structure Stream (V : Type) where
  request : StreamRequest V
  input : StreamInput V
  isCancelled : Bool := false
  opening : Stream.Opening := .checking
  deadline : Nat := 0
  sender : Option Sender := none
  /-- The end of the sender has not been noticed yet. -/
  isSending : Bool := true
  received : Nat := 0
  /-- The last item has been yielded. -/
  isDone : Bool := false
  /-- The end has been seen too, or the exchange was given up. -/
  isDropped : Bool := false

namespace Stream

variable {V : Type}

def prepare (c : Channel V) (r : StreamRequest V) (id : Bytes) : Except ProtocolError StreamRoute := do
  let expiry ← expiryInterval r.timeout
  r.userData.validate
  let (topic, responseTopic) ← c.topics r.tokens
  return { topic, responseTopic, correlationId := id, expiry }

def stopReading (st : Stream V) : Stream V :=
  { st with input := { st.input with isRead := false, payloads := [] } }

def fail (c : Channel V) (st : Stream V) (e : ProtocolError) : Stream V :=
  { st.stopReading with opening := .failed (e.withCommand c.commandName), isDropped := true }

def begin (c : Channel V) (st : Stream V) (s : InvokerState) : Stream V × InvokerState :=
  let (id, network) := s.network.freshId
  let s := { s with network }
  match prepare c st.request id with
  | .error e => (st.fail c e, s)
  | .ok route =>
    ({ st with opening := .awaitingInput route, deadline := s.now + 1000 * route.expiry.toNat }, s)

def awaitInput? (c : Channel V) (st : Stream V) (route : StreamRoute) (s : InvokerState) :
    Option (Stream V) :=
  if st.isCancelled then
    some (st.fail c (ProtocolError.cancellation.withText
      "stream cancelled before its first request"))
  else if !st.input.payloads.isEmpty then some { st with opening := .subscribing route .locking }
  else if st.input.isClosed then
    some (st.fail c ((ProtocolError.argumentInvalid "payloads" "[]").withText
      "a stream needs at least one request"))
  else if st.deadline ≤ s.now then
    some (st.fail c (.timeout "command" (some st.request.timeout)))
  else none

inductive Started
  | route (id : Nat)
  | sender

/-- The next step of opening; `none` while it waits and once it is over. -/
def stepOpening? (c : Channel V) (st : Stream V) (s : InvokerState) :
    Option (Stream V × InvokerState × Option Started) :=
  match st.opening with
  | .checking =>
    let (st, s) := st.begin c s
    some (st, s, none)
  | .awaitingInput route => (st.awaitInput? c route s).map (·, s, none)
  | .subscribing route (.done result) =>
    match result.bind fun _ => s.router.register route.correlationId route.responseTopic with
    | .error e => some (st.fail c e, s, none)
    | .ok router =>
      some ({ st with
          opening := .opened
          sender := some { route, userData := st.request.userData } },
        { s with router }, some .sender)
  | .subscribing route step =>
    match s.router.stepEnsure? c.client c.responseFilter s.network step with
    | some (step, router, network, started) =>
      some ({ st with opening := .subscribing route step }, { s with router, network },
        started.map .route)
    | none => none
  | .opened | .failed _ => none

def openingDeadline? (st : Stream V) : Option Nat :=
  match st.opening with
  | .awaitingInput _ => if st.isCancelled then none else some st.deadline
  | _ => none

def stepSender? (c : Channel V) (st : Stream V) (s : InvokerState) :
    Option (Stream V × InvokerState) := do
  let sender ← if st.isDropped then none else st.sender
  let (sender, input, s) ← sender.step? c st.isCancelled st.input s
  return ({ st with sender := some sender, input }, s)

def isSenderFinished (st : Stream V) : Bool :=
  st.sender.elim true Sender.isFinished

/-- Asks the executor to stop; whether that reaches it makes no difference. -/
def sendCancel (c : Channel V) (route : StreamRoute) (s : InvokerState) : InvokerState :=
  (s.send c (route.outgoing .empty [(Property.cancel.key, "true")])).2

/-- The next message of the exchange, or what ends it; `none` while there is neither. The failure of
the sender counts once. -/
def receive? (c : Channel V) (st : Stream V) (s : InvokerState) :
    Option (Except ProtocolError Message × Stream V × InvokerState) := do
  let sender ← st.sender
  let noticed := st.isSending && sender.isFinished
  let failure := if noticed then
    match sender.phase with
    | .finished (.error e) => some e
    | _ => none
  else none
  let st := if noticed then { st with isSending := false } else st
  match failure with
  | some e => return (.error e, st, s)
  | none =>
    match s.receive? sender.route.correlationId st.isCancelled with
    | some (.ok m, s) => return (.ok m, st, s)
    | some (.error e, s) =>
      if st.isCancelled then
        return (.error (e.withText "stream cancelled"), st, sendCancel c sender.route s)
      else return (.error e, st, s)
    | none =>
      if st.deadline ≤ s.now then
        return (.error (.timeout "command" (some st.request.timeout)), st, s)
      else none

def isMarkedLast (m : Message) : Bool :=
  (m.userProperty? Property.isLast.key).elim false (Checksum.equalIgnoringCase · "true")

/-- The index a response gives itself, or else its place among those received. -/
def indexOf (m : Message) (position : Nat) : Except ProtocolError UInt64 :=
  match m.userProperty? Property.streamIndex.key with
  | none => .ok position.toUInt64
  | some text =>
    match Text.readUInt64 text with
    | some index => .ok index
    | none => .error (.headerInvalid Property.streamIndex.key text)

/-- Whether a response is the last is read before anything else, so that an error can end the
stream too. -/
def readItem (c : Channel V) (st : Stream V) (s : InvokerState) (m : Message) :
    Except ProtocolError (StreamItem V) × Stream V × InvokerState :=
  let isLast := isMarkedLast m
  let position := st.received
  let st := { st with received := position + 1, isDone := st.isDone || isLast }
  match indexOf m position with
  | .error e => (.error e, st, s)
  | .ok index =>
    let (result, s) := s.read c m
    (result.map fun response => { response, index, isLast }, st, s)

inductive Item (V : Type)
  | item (result : Except ProtocolError (StreamItem V))
  | ended

/-- Gives up the exchange: its sender stops, and its place among the pending is free again. -/
def drop (st : Stream V) (s : InvokerState) : Stream V × InvokerState :=
  ({ st.stopReading with isDropped := true },
    match st.sender with
    | some sender => s.deregister sender.route.correlationId
    | none => s)

/-- The next item of the stream; `none` while there is nothing to yield. -/
def next? (c : Channel V) (st : Stream V) (s : InvokerState) :
    Option (Item V × Stream V × InvokerState) :=
  if st.isDropped then some (.ended, st, s)
  else if st.isDone then
    let (st, s) := st.drop s
    some (.ended, st, s)
  else match st.receive? c s with
    | none => none
    | some (.error e, st, s) =>
      some (.item (.error (e.withCommand c.commandName)), { st with isDone := true }, s)
    | some (.ok m, st, s) =>
      let (result, st, s) := st.readItem c s m
      some (.item (result.mapError (·.withCommand c.commandName)), st, s)

end Stream

end CommandBus
