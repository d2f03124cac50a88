import CommandBus.Invoker.Response
import CommandBus.Invoker.Router

namespace CommandBus

structure InvokeRequest (V : Type) where
  payload : V
  /-- Rounded up to whole seconds; at least one second. -/
  timeout : Duration
  userData : UserProperties := []
  tokens : TokenMap := []

/-- What an invoker works with: its router, its clock, the network and the time. -/
structure InvokerState where
  router : Router := {}
  clock : Clock
  network : Network
  now : Nat
  wall : Int

namespace InvokerState

variable {V : Type}

def send (s : InvokerState) (c : Channel V) (o : Outgoing) :
    Except ProtocolError Unit × InvokerState :=
  match s.clock.stamp s.wall with
  | (.error e, clock) => (.error (.ofClock e), { s with clock })
  | (.ok stamp, clock) =>
    let (result, network) := s.network.publish c.client (c.message o stamp)
    (Channel.published result, { s with clock, network })

def read (s : InvokerState) (c : Channel V) (m : Message) :
    Except ProtocolError (Response V) × InvokerState :=
  let (result, clock) := Response.read c.responseCodec m s.clock s.wall
  (result, { s with clock })

def deregister (s : InvokerState) (id : Bytes) : InvokerState :=
  { s with router := s.router.deregister id }

/-- Waits for the next response to an invocation: a response that is there wins over everything
else, then comes the shutdown of the invoker, then the cancellation of the call. -/
def receive? (s : InvokerState) (id : Bytes) (isCancelled : Bool) :
    Option (Except ProtocolError Message × InvokerState) :=
  match s.router.take? id with
  | some (m, router) => some (.ok m, { s with router })
  | none =>
    if s.router.isCancelled then
      some (.error (ProtocolError.cancellation.withText
        "invoker shut down while awaiting response"), s)
    else if isCancelled then some (.error .cancellation, s)
    else none

end InvokerState

namespace Call

inductive Phase (V : Type)
  | preparing
  | subscribing (outgoing : Outgoing) (step : Router.Ensuring)
  | sending (outgoing : Outgoing)
  | receiving (correlationId : Bytes)
  | finished (time : Nat) (result : Except ProtocolError (Response V))

end Call

structure Call (V : Type) where
  request : InvokeRequest V
  /-- When it times out; set once the arguments have been accepted. -/
  deadline : Option Nat := none
  isCancelled : Bool := false
  phase : Call.Phase V := .preparing

namespace Call

variable {V : Type}

/-- Checks the arguments in order: timeout, user data, topics, payload. -/
def prepare (c : Channel V) (r : InvokeRequest V) (id : Bytes) : Except ProtocolError Outgoing := do
  let expiry ← expiryInterval r.timeout
  r.userData.validate
  let (topic, responseTopic) ← c.topics r.tokens
  let body ← c.encode r.payload
  return { topic, responseTopic, correlationId := id, body, userProperties := r.userData, expiry }

def finish (c : Channel V) (call : Call V) (s : InvokerState)
    (result : Except ProtocolError (Response V)) : Call V :=
  { call with phase := .finished s.now (result.mapError (·.withCommand c.commandName)) }

/-- Leaves the invocation's place among those that await responses. -/
def leave (call : Call V) (s : InvokerState) : InvokerState :=
  match call.phase with
  | .sending o => s.deregister o.correlationId
  | .receiving id => s.deregister id
  | _ => s

def begin (c : Channel V) (call : Call V) (s : InvokerState) : Call V × InvokerState :=
  let (id, network) := s.network.freshId
  let s := { s with network }
  match prepare c call.request id with
  | .error e => (finish c call s (.error e), s)
  | .ok outgoing =>
    ({ call with
        phase := .subscribing outgoing .locking
        deadline := some (s.now + 1000 * outgoing.expiry.toNat) }, s)

def enroll (c : Channel V) (call : Call V) (s : InvokerState) (o : Outgoing)
    (result : Except ProtocolError Unit) : Call V × InvokerState :=
  match result.bind fun _ => s.router.register o.correlationId o.responseTopic with
  | .error e => (finish c call s (.error e), s)
  | .ok router => ({ call with phase := .sending o }, { s with router })

def transmit (c : Channel V) (call : Call V) (s : InvokerState) (o : Outgoing) :
    Call V × InvokerState :=
  match s.send c o with
  | (.error e, s) => (finish c call s (.error e), s.deregister o.correlationId)
  | (.ok (), s) => ({ call with phase := .receiving o.correlationId }, s)

def isDue (call : Call V) (s : InvokerState) : Bool :=
  call.deadline.elim false (· ≤ s.now)

def expire? (c : Channel V) (call : Call V) (s : InvokerState) : Option (Call V × InvokerState) :=
  if call.isDue s then
    some (finish c call s (.error (.timeout "command" (some call.request.timeout))), call.leave s)
  else none

/-- The next step with the number of the route it starts, if any; `none` while the call waits and
after it has finished. -/
def step? (c : Channel V) (call : Call V) (s : InvokerState) :
    Option (Call V × InvokerState × Option Nat) :=
  match call.phase with
  | .preparing =>
    let (call, s) := call.begin c s
    some (call, s, none)
  | .subscribing o (.done result) =>
    let (call, s) := call.enroll c s o result
    some (call, s, none)
  | .subscribing o step =>
    match s.router.stepEnsure? c.client c.responseFilter s.network step with
    | some (step, router, network, route) =>
      some ({ call with phase := .subscribing o step }, { s with router, network }, route)
    | none => (call.expire? c s).map fun (call, s) => (call, s, none)
  | .sending o =>
    let (call, s) := call.transmit c s o
    some (call, s, none)
  | .receiving id =>
    match s.receive? id call.isCancelled with
    | some (.ok m, s) =>
      let (result, s) := s.read c m
      some (finish c call s result, s.deregister id, none)
    | some (.error e, s) => some (finish c call s (.error e), s.deregister id, none)
    | none => (call.expire? c s).map fun (call, s) => (call, s, none)
  | .finished .. => none

def deadline? (call : Call V) : Option Nat :=
  match call.phase with
  | .subscribing .. | .receiving _ => call.deadline
  | _ => none

def result? (call : Call V) : Option (Nat × Except ProtocolError (Response V)) :=
  match call.phase with
  | .finished time result => some (time, result)
  | _ => none

end Call

end CommandBus
