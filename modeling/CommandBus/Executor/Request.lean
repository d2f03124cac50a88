import CommandBus.Acknowledgement
import CommandBus.Cache
import CommandBus.Executor.Reply

namespace CommandBus

structure Command (V : Type) where
  name : String
  requestFilter : String
  isIdempotent : Bool
  /-- How many milliseconds a response may be reused for equivalent requests. -/
  reusableFor : Nat
  acrossInvokers : Bool
  requestCodec : Codec V
  responseCodec : Codec V
  handler : Handler V

def Command.isCacheable {V : Type} (c : Command V) : Bool :=
  c.isIdempotent && c.reusableFor != 0

namespace Request

inductive Phase (V : Type)
  | received
  | lookingUp
  /-- A duplicate waits for the response that another task will store. -/
  | awaiting (promise place : Nat)
  | executing
  | handling (since endsAt : Nat) (outcome : Except ApplicationError (HandlerReply V))
  | storing (response : Message) (execution : Nat)
  | answering (response : Message)
  | acknowledging
  | finished
  /-- The task has broken off, and neither answers nor acknowledges. -/
  | halted

structure Task (V : Type) where
  delivery : Delivery
  expiresAt : Nat
  phase : Phase V := .received

/-- What requests share: the cache, the clock, the time, and the number of handler runs. -/
structure Surroundings where
  cache : Cache
  clock : Clock
  now : Nat
  wall : Int
  runs : Nat

inductive Effect (V : Type)
  | none
  | invoke (request : IncomingRequest V)
  | publish (response : Message)
  | acknowledge (ack : AckToken)
  /-- Drops a reservation whose entry is still pending. -/
  | release (request : CommandRequest)

def defaultExpirySecs : Nat := 10
def correlationSize : Nat := 16

def arrive {V : Type} (d : Delivery) (now : Nat) : Task V :=
  { delivery := d
    expiresAt := now + 1000 * (d.message.expiryInterval.elim defaultExpirySecs UInt32.toNat) }

def remainingSecs (deadline now : Nat) : UInt32 :=
  (min ((deadline - now + 999) / 1000) (UInt32.size - 1)).toUInt32

/-- Why a request is refused before it is looked up: its invoker could not use a response. -/
def refusal? (m : Message) : Option Reply :=
  match m.correlationData with
  | none => some ((Reply.failure .badRequest "correlation data missing").about "Correlation Data" none)
  | some data =>
    if data.length ≠ correlationSize then
      some ((Reply.failure .badRequest "correlation data bytes do not conform to a GUID").about
        "Correlation Data" (Bytes.text? data))
    else if m.expiryInterval.isNone then
      some ((Reply.failure .badRequest "message expiry interval missing").about
        "Message Expiry" none)
    else none

def cacheRequest {V : Type} (c : Command V) (m : Message) : CommandRequest where
  commandName := c.name
  invokerId := (m.userProperty? Property.sourceId.key).getD ""
  topic := m.responseTopic.getD ""
  correlationData := m.correlationData.getD []
  payload := m.payload

/-- Only versions that can be read and have a supported major are accepted. -/
def checkVersion (p : ProtocolProperties) : Except Reply Unit :=
  match p.get? .protocolVersion with
  | none => .ok ()
  | some text =>
    match ProtocolVersion.parse? text with
    | some v =>
      if v.isSupported ProtocolVersion.supportedMajors then .ok ()
      else .error (.unsupportedVersion text)
    | none => .error (.unsupportedVersion text)

/-- Reads the request's timestamp and moves the clock past it. -/
def observeTimestamp (p : ProtocolProperties) (s : Surroundings) :
    Except Reply (Option Timestamp) × Surroundings :=
  match p.get? .timestamp with
  | none => (.ok none, s)
  | some text =>
    match Timestamp.parse text with
    | .error e => (.error (.ofError (.ofClock e)), s)
    | .ok t =>
      let (result, clock) := s.clock.observe t s.wall
      (match result with
        | .ok () => .ok (some t)
        | .error e => .error (.ofError (.ofClock e)),
        { s with clock })

def decode {V : Type} (c : Command V) (m : Message) : Except Reply (V × FormatIndicator) :=
  match FormatIndicator.ofByte m.formatIndicator with
  | .error byte =>
    .error ((Reply.failure .badRequest "invalid payload format indicator").about
      "Payload Format Indicator" (some (toString byte.toNat)))
  | .ok format =>
    match c.requestCodec.decode m.payload m.contentType format with
    | .ok payload => .ok (payload, format)
    | .error (.unsupportedContentType detail) =>
      .error ((Reply.failure .unsupportedMediaType detail).about "Content Type" m.contentType)
    | .error (.invalid e) =>
      .error (.failure .badRequest s!"request payload could not be deserialized: {e.message}")

/-- The request for the handler, or the reply that refuses it. -/
def validate {V : Type} (c : Command V) (m : Message) (s : Surroundings) :
    Except Reply (IncomingRequest V) × Surroundings :=
  let p := ProtocolProperties.ofUser m.userProperties
  match checkVersion p with
  | .error r => (.error r, s)
  | .ok () =>
    match observeTimestamp p s with
    | (.error r, s) => (.error r, s)
    | (.ok timestamp, s) =>
      match decode c m with
      | .error r => (.error r, s)
      | .ok (payload, format) =>
        (.ok {
          payload
          topic := m.topic
          contentType := m.contentType
          format
          userData := m.userProperties.custom
          invokerId := p.get? .sourceId
          timestamp }, s)

def timedOut (expiresAt now : Nat) : Reply :=
  .ofError (.timeout "ExecutionTimeout" (some (.ofMillis (expiresAt - now))))

namespace Task

variable {V : Type}

def message (t : Task V) : Message := t.delivery.message

def respondWith (t : Task V) (r : Reply) (s : Surroundings) : Message × Surroundings :=
  let (stamp, clock) := s.clock.stamp s.wall
  (r.response (t.message.responseTopic.getD "") t.message.correlationData stamp.toOption
      (max 1 (remainingSecs t.expiresAt s.now)),
    { s with clock })

def receive (t : Task V) (s : Surroundings) : Task V × Surroundings × Effect V :=
  if t.message.responseTopic.isNone then
    ({ t with phase := .acknowledging }, s, .none)
  else match refusal? t.message with
    | some r =>
      let (response, s) := t.respondWith r s
      ({ t with phase := .answering response }, s, .none)
    | none => ({ t with phase := .lookingUp }, s, .none)

def lookUp (c : Command V) (t : Task V) (s : Surroundings) : Task V × Surroundings × Effect V :=
  let (found, cache) :=
    s.cache.retrieve s.now (cacheRequest c t.message) c.isCacheable c.acrossInvokers
  let s := { s with cache }
  match found with
  | some promise =>
    let (place, cache) := s.cache.enter promise
    ({ t with phase := .awaiting promise place }, { s with cache }, .none)
  | none => ({ t with phase := .executing }, s, .none)

/-- A stored response may be the one to another request, so it is addressed anew. -/
def address (t : Task V) (response : Message) : Message :=
  { response with
    topic := t.message.responseTopic.getD ""
    correlationData := t.message.correlationData }

def awaitStored? (t : Task V) (promise place : Nat) (s : Surroundings) :
    Option (Task V × Surroundings × Effect V) :=
  let (found, cache) := s.cache.wait promise
  match found with
  | .stored response =>
    some ({ t with phase := .answering (t.address response) }, { s with cache }, .none)
  | .evicted => some ({ t with phase := .lookingUp }, { s with cache }, .none)
  | .pending =>
    if t.expiresAt ≤ s.now then
      some ({ t with phase := .acknowledging }, { s with cache := cache.leave promise place }, .none)
    else none

def conclude (t : Task V) (r : Reply) (since : Nat) (s : Surroundings) :
    Task V × Surroundings × Effect V :=
  let execution := s.now - since
  let (response, s) := t.respondWith r s
  ({ t with phase := .storing response execution }, s, .none)

def execute (c : Command V) (t : Task V) (s : Surroundings) : Task V × Surroundings × Effect V :=
  match validate c t.message s with
  | (.error r, s) => t.conclude r s.now s
  | (.ok request, s) =>
    let run := c.handler s.runs request
    ({ t with phase := .handling s.now (s.now + run.span) run.outcome },
      { s with runs := s.runs + 1 }, .invoke request)

def handle? (c : Command V) (t : Task V) (since endsAt : Nat)
    (outcome : Except ApplicationError (HandlerReply V)) (s : Surroundings) :
    Option (Task V × Surroundings × Effect V) :=
  if endsAt ≤ s.now then some (t.conclude (.ofHandler c.responseCodec outcome) since s)
  else if t.expiresAt ≤ s.now then some (t.conclude (timedOut t.expiresAt s.now) since s)
  else none

def store (c : Command V) (t : Task V) (response : Message) (execution : Nat) (s : Surroundings) :
    Task V × Surroundings × Effect V :=
  let request := cacheRequest c t.message
  let (result, cache) := s.cache.store s.now request response
    { isIdempotent := c.isIdempotent
      expiresAt := t.expiresAt
      execution := .ofMillis execution
      reusableFor := c.reusableFor }
  let s := { s with cache }
  match result with
  | some (.ok ()) => ({ t with phase := .answering response }, s, .none)
  | some (.error _) => ({ t with phase := .answering response }, s, .release request)
  -- The entry is complete by then and never expires, so there is nothing to be given up.
  | none => ({ t with phase := .halted }, s, .none)

/-- Nothing is published for an invoker that has given up. -/
def answer (t : Task V) (response : Message) (s : Surroundings) :
    Task V × Surroundings × Effect V :=
  let remaining := remainingSecs t.expiresAt s.now
  let t := { t with phase := .acknowledging }
  if remaining = 0 then (t, s, .none)
  else (t, s, .publish { response with expiryInterval := some remaining })

/-- The next step; `none` while the task waits and after it has finished. -/
def step? (c : Command V) (t : Task V) (s : Surroundings) :
    Option (Task V × Surroundings × Effect V) :=
  match t.phase with
  | .received => some (t.receive s)
  | .lookingUp => some (t.lookUp c s)
  | .awaiting promise place => t.awaitStored? promise place s
  | .executing => some (t.execute c s)
  | .handling since endsAt outcome => t.handle? c since endsAt outcome s
  | .storing response execution => some (t.store c response execution s)
  | .answering response => some (t.answer response s)
  | .acknowledging => some ({ t with phase := .finished }, s, .acknowledge t.delivery.ack)
  | .finished | .halted => none

def deadline? (t : Task V) : Option Nat :=
  match t.phase with
  | .awaiting .. => some t.expiresAt
  | .handling _ endsAt _ => some (min endsAt t.expiresAt)
  | _ => none

def isFinished (t : Task V) : Bool :=
  match t.phase with
  | .finished | .halted => true
  | _ => false

def hasReservation (t : Task V) : Bool :=
  match t.phase with
  | .executing | .handling .. | .storing .. => true
  | _ => false

/-- Ends the task where it stands; a reservation that it has is dropped. -/
def abort (c : Command V) (t : Task V) (s : Surroundings) : Task V × Surroundings × Effect V :=
  let s := match t.phase with
    | .awaiting promise place => { s with cache := s.cache.leave promise place }
    | _ => s
  ({ t with phase := .finished }, s,
    if t.hasReservation then .release (cacheRequest c t.message) else .none)

/-- The next step of a task that may be about to be aborted. -/
def proceed? (c : Command V) (t : Task V) (isAborted : Bool) (s : Surroundings) :
    Option (Task V × Surroundings × Effect V) :=
  if isAborted then some (t.abort c s) else t.step? c s

/-- Among those who wait for the same promise and find it settled. -/
def rank (t : Task V) (cache : Cache) : Nat :=
  match t.phase with
  | .awaiting promise place => if cache.state.promise promise = .pending then 0 else place
  | _ => 0

end Task

end Request

end CommandBus
