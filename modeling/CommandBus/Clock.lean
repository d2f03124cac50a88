import CommandBus.Clock.Timestamp

namespace CommandBus

/-- A hybrid logical clock. Every use of it takes the reading of the wall clock, in nanoseconds since
the epoch, as an argument. -/
structure Clock where
  time : Timestamp
  maxDrift : Duration
  deriving DecidableEq, Inhabited, Repr

namespace Timestamp

/-- The wall clock as clocks see it: in whole milliseconds, so that it survives being written, and
never before the epoch. -/
def now (wall : Int) : Int :=
  (wall.toNat / 1000000).toUInt64.toNat * 1000000

def increment (t : Timestamp) : Except ClockError Unit × Timestamp :=
  if t.counter.toNat + 1 < UInt64.size then (.ok (), { t with counter := t.counter + 1 })
  else (.error .overflow, t)

/-- A time may be ahead of the wall clock by `max` and no more. -/
def checkDrift (t : Timestamp) (now : Int) (max : Duration) : Except ClockError Unit :=
  if (max.nanos : Int) < t.nanos - now then .error (.drift max) else .ok ()

def settle (now : Int) (max : Duration) :
    Except ClockError Unit × Timestamp → Except ClockError Unit × Timestamp
  | (.ok (), t) => (t.checkDrift now max, t)
  | (.error e, t) => (.error e, t)

/-- Moves `t` past `other`, as on receiving a message stamped with it. What was changed before an
error stays changed. -/
def advancePast (t other : Timestamp) (wall : Int) (max : Duration) :
    Except ClockError Unit × Timestamp :=
  settle (now wall) max <|
    if t.nanos < now wall ∧ other.nanos < now wall then
      (.ok (), { t with nanos := now wall, counter := 0 })
    else if t.nanos = other.nanos then
      increment { t with counter := if t.counter < other.counter then other.counter else t.counter }
    else if other.nanos < t.nanos then increment t
    else increment { t with nanos := other.nanos, counter := other.counter }

/-- Moves `t` to the wall clock, as on sending a message. -/
def advance (t : Timestamp) (wall : Int) (max : Duration) : Except ClockError Unit × Timestamp :=
  settle (now wall) max <|
    if t.nanos < now wall then (.ok (), { t with nanos := now wall, counter := 0 }) else increment t

end Timestamp

namespace Clock

def defaultMaxDrift : Duration := .ofSecs 60

def start (node : String) (wall : Int) (maxDrift : Duration) : Clock :=
  ⟨⟨Timestamp.now wall, 0, node⟩, maxDrift⟩

def stamp (c : Clock) (wall : Int) : Except ClockError String × Clock :=
  let (result, time) := c.time.advance wall c.maxDrift
  (result.map fun _ => time.text, { c with time })

def observe (c : Clock) (other : Timestamp) (wall : Int) : Except ClockError Unit × Clock :=
  let (result, time) := c.time.advancePast other wall c.maxDrift
  (result, { c with time })

end Clock

end CommandBus
