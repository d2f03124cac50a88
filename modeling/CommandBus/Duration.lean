namespace CommandBus

structure Duration where
  nanos : Nat
  deriving DecidableEq, Inhabited, Repr

namespace Duration

def ofSecs (n : Nat) : Duration := ⟨n * 1000000000⟩
def ofMillis (n : Nat) : Duration := ⟨n * 1000000⟩
def ofMicros (n : Nat) : Duration := ⟨n * 1000⟩

def secs (d : Duration) : Nat := d.nanos / 1000000000
def subsecNanos (d : Duration) : Nat := d.nanos % 1000000000

def ceilSecs (d : Duration) : Nat := d.secs + if d.subsecNanos = 0 then 0 else 1

def isZero (d : Duration) : Bool := d.nanos == 0

def decimal (n places : Nat) : List Char :=
  let unit := Nat.pow 10 places
  let whole := Nat.toDigits 10 (n / unit)
  let digits := Nat.toDigits 10 (n % unit)
  let fraction := List.replicate (places - digits.length) '0' ++ digits
  match (fraction.reverse.dropWhile (· == '0')).reverse with
  | [] => whole
  | kept => whole ++ '.' :: kept

def text (d : Duration) : String :=
  if 1000000000 ≤ d.nanos then String.ofList (decimal d.nanos 9) ++ "s"
  else if 1000000 ≤ d.nanos then String.ofList (decimal d.nanos 6) ++ "ms"
  else if 1000 ≤ d.nanos then String.ofList (decimal d.nanos 3) ++ "µs"
  else toString d.nanos ++ "ns"

end Duration

end CommandBus
