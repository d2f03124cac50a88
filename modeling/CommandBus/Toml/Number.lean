import CommandBus.Text.Numeral
import CommandBus.Toml.Lexeme

namespace CommandBus.Toml

/-- Digits, of which any two may have one underscore between them. -/
def readDigits (isDigit : Char → Bool) : Input → List Char × Input
  | '_' :: c :: rest =>
    if isDigit c then
      let (more, s) := readDigits isDigit rest
      (c :: more, s)
    else ([], '_' :: c :: rest)
  | c :: rest =>
    if isDigit c then
      let (more, s) := readDigits isDigit rest
      (c :: more, s)
    else ([], c :: rest)
  | [] => ([], [])

def readNumeral (isDigit : Char → Bool) : Input → Option (List Char × Input)
  | c :: rest => if isDigit c then some (readDigits isDigit (c :: rest)) else none
  | [] => none

def integerBound : Nat := 1 <<< 63

def readInBase (base : Nat) (s : Input) : Option (Int × Input) := do
  let isDigit := fun c => (hexValue? c).any (· < base)
  let (digits, s) ← readNumeral isDigit s
  let n := digits.foldl (fun n c => base * n + (hexValue? c).getD 0) 0
  if n < integerBound then some (n, s) else none

def readSign : Input → Bool × Input
  | '+' :: rest => (false, rest)
  | '-' :: rest => (true, rest)
  | s => (false, s)

def readWhole : Input → Option (List Char × Input)
  | '0' :: rest => some (['0'], rest)
  | s => readNumeral Text.isDecimal s

def readFraction : Input → Option (List Char × Input)
  | '.' :: rest => readNumeral Text.isDecimal rest
  | s => some ([], s)

def readExponent : Input → Option (Int × Input)
  | c :: rest =>
    if c == 'e' || c == 'E' then do
      let (isNegative, s) := readSign rest
      let (digits, s) ← readNumeral Text.isDecimal s
      let n : Int := Text.decimalValue digits
      return (if isNegative then -n else n, s)
    else some (0, c :: rest)
  | [] => some (0, [])

/-- The least value that is too large for a floating-point number of 64 bits. -/
def tooLarge : Nat := (1 <<< 1024) - (1 <<< 970)

/-- Whether `m` times ten to the power of `exponent` is too large for a floating-point number. The
power is computed only if the number of digits leaves the answer open. -/
def isTooLarge (m : Nat) (exponent : Int) : Bool :=
  let digits : Int := (Nat.toDigits 10 m).length + exponent
  if m = 0 || digits < 300 then false
  else if 320 < digits then true
  else if 0 ≤ exponent then tooLarge ≤ m * Nat.pow 10 exponent.toNat
  else tooLarge * Nat.pow 10 (-exponent).toNat ≤ m

inductive Number
  | integer (value : Int)
  | float

def readDecimal (isNegative : Bool) (s : Input) : Option (Number × Input) := do
  let (whole, s) ← readWhole s
  let n : Int := Text.decimalValue whole
  let isFloat := match s with
    | c :: _ => c == '.' || c == 'e' || c == 'E'
    | [] => false
  if isFloat then
    let (fraction, s) ← readFraction s
    let (exponent, s) ← readExponent s
    if !isNegative && isTooLarge (Text.decimalValue (whole ++ fraction)) (exponent - fraction.length)
    then none
    else return (.float, s)
  else
    let value := if isNegative then -n else n
    if -(integerBound : Int) ≤ value ∧ value < integerBound then return (.integer value, s)
    else none

def readNumber : Input → Option (Number × Input)
  | '0' :: 'x' :: rest => (readInBase 16 rest).map fun (n, s) => (.integer n, s)
  | '0' :: 'o' :: rest => (readInBase 8 rest).map fun (n, s) => (.integer n, s)
  | '0' :: 'b' :: rest => (readInBase 2 rest).map fun (n, s) => (.integer n, s)
  | s =>
    match readSign s with
    | (_, 'i' :: 'n' :: 'f' :: rest) => some (.float, rest)
    | (_, 'n' :: 'a' :: 'n' :: rest) => some (.float, rest)
    | (isNegative, s) => readDecimal isNegative s

def fixed? (width : Nat) (s : Input) : Option (Nat × Input) :=
  let digits := s.take width
  if digits.length = width ∧ digits.all Text.isDecimal then
    some (Text.decimalValue digits, s.drop width)
  else none

def after? (c : Char) : Input → Option Input
  | d :: rest => if c == d then some rest else none
  | [] => none

def isLeap (year : Nat) : Bool :=
  year % 4 == 0 && (year % 100 != 0 || year % 400 == 0)

def daysIn (year month : Nat) : Nat :=
  if month = 2 then if isLeap year then 29 else 28
  else if month = 4 ∨ month = 6 ∨ month = 9 ∨ month = 11 then 30
  else 31

def afterDate? (s : Input) : Option Input := do
  let (year, s) ← fixed? 4 s
  let (month, s) ← fixed? 2 (← after? '-' s)
  let (day, s) ← fixed? 2 (← after? '-' s)
  if 1 ≤ month ∧ month ≤ 12 ∧ 1 ≤ day ∧ day ≤ daysIn year month then some s else none

def afterFraction : Input → Input
  | '.' :: rest =>
    match rest.takeWhile Text.isDecimal with
    | [] => '.' :: rest
    | digits => rest.drop digits.length
  | s => s

/-- What follows a time of day, which may hold a leap second. -/
def afterTime? (s : Input) : Option Input := do
  let (hour, s) ← fixed? 2 s
  let (minute, s) ← fixed? 2 (← after? ':' s)
  let (second, s) ← fixed? 2 (← after? ':' s)
  if hour ≤ 23 ∧ minute ≤ 59 ∧ second ≤ 60 then some (afterFraction s) else none

def afterOffset? : Input → Option Input
  | [] => none
  | c :: rest =>
    if c == 'Z' || c == 'z' then some rest
    else if c == '+' || c == '-' then do
      let (hour, s) ← fixed? 2 rest
      let (minute, s) ← fixed? 2 (← after? ':' s)
      if hour ≤ 23 ∧ minute ≤ 59 then some s else none
    else none

/-- What follows a date, a time, or both with an offset. -/
def afterDateTime? (s : Input) : Option Input :=
  match afterDate? s with
  | none => afterTime? s
  | some s =>
    match s with
    | c :: rest =>
      if c == 'T' || c == 't' || c == ' ' then
        match afterTime? rest with
        | some s => some ((afterOffset? s).getD s)
        | none => some (c :: rest)
      else some (c :: rest)
    | [] => some []

end CommandBus.Toml
