namespace CommandBus.Text

def isDecimal (c : Char) : Bool :=
  '0' ≤ c && c ≤ '9'

def decimalValue (digits : List Char) : Nat :=
  digits.foldl (fun n c => 10 * n + (c.toNat - '0'.toNat)) 0

def dropPlus : List Char → List Char
  | '+' :: rest => rest
  | s => s

/-- One optional plus sign, then digits, with a value below `bound`. -/
def readBelow (bound : Nat) (s : List Char) : Option Nat :=
  let digits := dropPlus s
  if !digits.isEmpty && digits.all isDecimal && decimalValue digits < bound then
    some (decimalValue digits)
  else none

def readUInt16 (s : String) : Option UInt16 :=
  (readBelow UInt16.size s.toList).map Nat.toUInt16

def readUInt64 (s : String) : Option UInt64 :=
  (readBelow UInt64.size s.toList).map Nat.toUInt64

/-- The decimal digits of `n`, with zeros before them up to `width`. -/
def padded (width n : Nat) : List Char :=
  let digits := Nat.toDigits 10 n
  List.replicate (width - digits.length) '0' ++ digits

def upperHex (n : Nat) : List Char :=
  (Nat.toDigits 16 n).map Char.toUpper

end CommandBus.Text
