import CommandBus.Invoker.Call

namespace CommandBus

structure StreamInput (V : Type) where
  payloads : List V := []
  /-- The producer has closed it. -/
  isClosed : Bool := false
  /-- Someone still reads it. -/
  isRead : Bool := true

structure StreamRoute where
  topic : String
  responseTopic : String
  correlationId : Bytes
  expiry : UInt32
  deriving Inhabited, Repr

def StreamRoute.outgoing (r : StreamRoute) (body : Serialized) (userProperties : UserProperties) :
    Outgoing :=
  { topic := r.topic, responseTopic := r.responseTopic, correlationId := r.correlationId, body,
    userProperties, expiry := r.expiry }

namespace Sender

inductive Phase
  /-- About to take payload number `index`. -/
  | taking (index : Nat)
  | sending (index : Nat) (body : Serialized) (isLast : Bool)
  | finished (result : Except ProtocolError Unit)

end Sender

structure Sender where
  route : StreamRoute
  userData : UserProperties
  phase : Sender.Phase := .taking 0

namespace Sender

variable {V : Type}

def properties (userData : UserProperties) (index : Nat) (isLast : Bool) : UserProperties :=
  userData ++ (Property.streamIndex.key, toString index) ::
    if isLast then [(Property.isLast.key, "true")] else []

/-- What is sent next, whether it is the last, and the input after it; `none` if the input has
nothing and is not closed. -/
def next? (c : Channel V) (input : StreamInput V) :
    Option (Except ProtocolError (Serialized × Bool) × StreamInput V) :=
  match input.payloads with
  | payload :: rest =>
    let input := { input with payloads := rest }
    let isLast := rest.isEmpty && input.isClosed
    some ((c.encode payload).map (·, isLast), input)
  | [] => if input.isClosed then some (.ok (.empty, true), input) else none

def finish (t : Sender) (result : Except ProtocolError Unit) (input : StreamInput V) :
    Sender × StreamInput V :=
  ({ t with phase := .finished result }, { input with isRead := false, payloads := [] })

/-- The next step; cancellation comes before any payload. -/
def step? (c : Channel V) (t : Sender) (isCancelled : Bool) (input : StreamInput V)
    (s : InvokerState) : Option (Sender × StreamInput V × InvokerState) :=
  match t.phase with
  | .taking index =>
    if isCancelled then
      let (t, input) := t.finish (.ok ()) input
      some (t, input, s)
    else match next? c input with
      | none => none
      | some (.error e, input) =>
        let (t, input) := t.finish (.error e) input
        some (t, input, s)
      | some (.ok (body, isLast), input) =>
        some ({ t with phase := .sending index body isLast }, input, s)
  | .sending index body isLast =>
    match s.send c (t.route.outgoing body (properties t.userData index isLast)) with
    | (.error e, s) =>
      let (t, input) := t.finish (.error e) input
      some (t, input, s)
    | (.ok (), s) =>
      if isLast then
        let (t, input) := t.finish (.ok ()) input
        some (t, input, s)
      else some ({ t with phase := .taking (index + 1) }, input, s)
  | .finished _ => none

def isFinished (t : Sender) : Bool :=
  match t.phase with
  | .finished _ => true
  | _ => false

end Sender

end CommandBus
