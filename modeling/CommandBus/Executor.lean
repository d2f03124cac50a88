import CommandBus.Executor.Request
import CommandBus.Invoker.Channel

namespace CommandBus

structure ExecutorOptions where
  commandName : String
  requestPattern : String
  space : Option String := none
  tokens : TokenMap := []
  isIdempotent : Bool := false
  /-- In milliseconds. -/
  reusableFor : Nat := 0
  acrossInvokers : Bool := false
  shutdownClient : Bool := false
  deriving Inhabited, Repr

inductive ServePhase
  | serving
  /-- The tasks are aborted; each ends when its turn comes. -/
  | ending
  | exited
  deriving DecidableEq, Inhabited, Repr

structure ServeLoop where
  box : Nat
  phase : ServePhase := .serving
  /-- Tasks started and not yet taken note of. -/
  started : Nat := 0
  /-- Those of them that have finished. -/
  finished : Nat := 0
  deriving Inhabited, Repr

structure Executor (V : Type) where
  command : Command V
  client : Client
  shutdownClient : Bool
  /-- The numbers of its cache and its clock. -/
  cache : Nat
  clock : Nat
  loop : Option ServeLoop := none
  /-- A shutdown has taken over the loop. -/
  isTaken : Bool := false
  isCancelled : Bool := false
  /-- Nobody holds the executor any more. -/
  isDropped : Bool := false
  /-- The requests its handler was run for. -/
  runs : List (IncomingRequest V) := []

namespace Executor

variable {V : Type}

/-- A response can only be reused if executing the command again would make no difference. -/
def command? (requestCodec responseCodec : Codec V) (handler : Handler V) (o : ExecutorOptions) :
    Except ProtocolError (Command V) := do
  requireCommandName o.commandName
  if !o.isIdempotent && o.reusableFor != 0 then
    throw ((ProtocolError.configurationInvalid "cacheable_duration"
      (Duration.ofMillis o.reusableFor).text).withText
      "only idempotent commands may be cached for reuse")
  let topic ← TopicPattern.parse "request_topic_pattern" o.requestPattern o.space o.tokens
  return {
    name := o.commandName
    requestFilter := topic.subscribeFilter
    isIdempotent := o.isIdempotent
    reusableFor := o.reusableFor
    acrossInvokers := o.acrossInvokers
    requestCodec
    responseCodec
    handler }

def hasLoop (e : Executor V) : Bool :=
  e.loop.isSome && !e.isTaken

def hasExited (e : Executor V) : Bool :=
  e.loop.elim true (·.phase == .exited)

def isEnding (e : Executor V) : Bool :=
  e.loop.elim false (·.phase == .ending)

def modifyLoop (e : Executor V) (f : ServeLoop → ServeLoop) : Executor V :=
  { e with loop := e.loop.map f }

end Executor

end CommandBus
