import CommandBus.Clock
import CommandBus.Payload

namespace CommandBus

structure IncomingRequest (V : Type) where
  payload : V
  topic : String
  contentType : Option String
  format : FormatIndicator
  userData : UserProperties
  /-- The client id of the invoker, if it said. -/
  invokerId : Option String
  timestamp : Option Timestamp
  deriving Inhabited

structure HandlerReply (V : Type) where
  payload : V
  userData : UserProperties
  deriving Inhabited

/-- A failure reported by a handler, passed on to the invoker. -/
structure ApplicationError where
  message : String
  name : Option String := none
  value : Option String := none
  deriving DecidableEq, Inhabited, Repr

/-- One run of a handler: how many milliseconds it takes, and how it ends. -/
structure Execution (V : Type) where
  span : Nat
  outcome : Except ApplicationError (HandlerReply V)

abbrev Handler (V : Type) := Nat → IncomingRequest V → Execution V

end CommandBus
