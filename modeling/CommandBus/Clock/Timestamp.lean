import CommandBus.ProtocolError
import CommandBus.Protocol.Property
import CommandBus.Text.Pieces

namespace CommandBus

/-- A wall clock time, a counter that orders what happens at one time, and the node that set it. -/
structure Timestamp where
  /-- Nanoseconds since the epoch; negative before it. -/
  nanos : Int
  counter : UInt64
  node : String
  deriving DecidableEq, Inhabited, Repr

inductive ClockError
  | malformed (text : String)
  | drift (max : Duration)
  | overflow
  deriving DecidableEq, Inhabited, Repr

def ClockError.message : ClockError → String
  | .malformed text => s!"malformed timestamp {Text.quoted text}"
  | .drift max => s!"timestamp is more than {max.text} ahead of the local clock"
  | .overflow => "counter would overflow"

def ProtocolError.ofClock (e : ClockError) : ProtocolError :=
  (match e with
    | .malformed text => headerInvalid Property.timestamp.key text
    | .drift _ => stateInvalid (some "MaxClockDrift")
    | .overflow => internalLogicError (some "Counter")).withText e.message

namespace Timestamp

def ofMillis (millis : Int) (counter : UInt64) (node : String) : Timestamp :=
  ⟨millis * 1000000, counter, node⟩

def millis (t : Timestamp) : Nat :=
  t.nanos.toNat / 1000000

/-- Time and counter are padded to fixed widths, which larger values exceed; times before the
epoch are written as the epoch. -/
def text (t : Timestamp) : String :=
  String.ofList (Text.padded 15 t.millis ++ ':' :: Text.padded 5 t.counter.toNat ++ [':']) ++ t.node

/-- Two numerals, and everything after the second colon as the node. -/
def parse? (s : String) : Option Timestamp := do
  let (millis, rest) ← Text.splitOnce ':' s.toList
  let millis ← Text.readBelow UInt64.size millis
  let (counter, node) ← Text.splitOnce ':' rest
  let counter ← Text.readBelow UInt64.size counter
  return .ofMillis millis counter.toUInt64 (String.ofList node)

def parse (s : String) : Except ClockError Timestamp :=
  match parse? s with
  | some t => .ok t
  | none => .error (.malformed s)

end Timestamp

end CommandBus
