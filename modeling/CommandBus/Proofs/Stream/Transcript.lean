import CommandBus.Proofs.Invoker.Routing
import CommandBus.Proofs.Stream.Choices
import Mathlib

namespace CommandBus

structure Transcript (V : Type) where
  stream : Stream V
  state : InvokerState
  /-- All payloads that were put into the input. -/
  inputs : List V := []
  /-- The responses that came for the exchange. -/
  arrived : List Message := []
  items : List (Except ProtocolError (StreamItem V)) := []
  /-- The end has been yielded too. -/
  hasEnded : Bool := false
  steps : List InvokerState.Move := []

namespace Transcript

variable {V : Type} {c : Channel V} {r r' : Transcript V}

def start (request : StreamRequest V) (state : InvokerState) : Transcript V where
  stream := { request, input := {} }
  state

def act (r : Transcript V) (stream : Stream V) (state : InvokerState) (sent : Option Message) :
    Transcript V :=
  { r with stream, state, steps := r.steps ++ [⟨r.state, sent, state⟩] }

def yield (r : Transcript V) : Stream.Item V → Transcript V
  | .item result => { r with items := r.items ++ [result] }
  | .ended => { r with hasEnded := true }

/-- The message is one for the exchange, and that has not been given up. -/
def expects (r : Transcript V) (m : Message) : Bool :=
  !r.stream.isDropped && r.stream.sender.elim false fun t =>
    m.correlationData == some t.route.correlationId && m.topic == t.route.responseTopic

def route (r : Transcript V) (m : Message) : Transcript V :=
  { r with
    state := { r.state with router := r.state.router.deliver m }
    arrived := if r.expects m then r.arrived ++ [m] else r.arrived }

/-- What may happen to a stream. All else that its invoker works with may change at any time, apart
from the responses that wait for this exchange. -/
inductive Step (c : Channel V) (r : Transcript V) : Transcript V → Prop
  | push (payload : V) (hread : r.stream.input.isRead = true)
    (hopen : r.stream.input.isClosed = false) :
    Step c r { r with
      inputs := r.inputs ++ [payload]
      stream := { r.stream with
        input := { r.stream.input with payloads := r.stream.input.payloads ++ [payload] } } }
  | close : Step c r
    { r with stream := { r.stream with input := { r.stream.input with isClosed := true } } }
  | cancel : Step c r { r with stream := { r.stream with isCancelled := true } }
  | opening {stream : Stream V} {state : InvokerState}
    (h : Stream.Advances c r.stream r.state stream state) : Step c r (r.act stream state none)
  | sender {t : Sender} {stream : Stream V} {state : InvokerState}
    (ht : r.stream.sender = some t)
    (h : r.stream.stepSender? c r.state = some (stream, state)) :
    Step c r (r.act stream state (t.handed? c r.state))
  | poll {item : Stream.Item V} {stream : Stream V} {state : InvokerState} {sent : Option Message}
    (h : Stream.Polls c r.stream r.state item stream state sent) :
    Step c r ((r.act stream state sent).yield item)
  | route (m : Message) : Step c r (r.route m)
  | elsewhere (state : InvokerState)
    (h : r.stream.isDropped = false → ∀ t, r.stream.sender = some t →
      state.router.pending.lookup t.route.correlationId =
        r.state.router.pending.lookup t.route.correlationId) :
    Step c r { r with state }

def Run (c : Channel V) : Transcript V → Transcript V → Prop :=
  Relation.ReflTransGen (Step c)

end Transcript

end CommandBus
