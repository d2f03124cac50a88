import CommandBus.Json

namespace CommandBus.Json

abbrev Input := List (Option Char)

def isSpace (c : Char) : Bool :=
  c == ' ' || c == '\n' || c == '\t' || c == '\r'

def skipSpace : Input → Input
  | some c :: rest => if isSpace c then skipSpace rest else some c :: rest
  | s => s

/-- A character of a text, a code unit given by its number, or a byte that is no character. -/
inductive TextUnit
  | char (c : Char)
  | code (n : Nat)
  | broken

def hexValue? (c : Char) : Option Nat :=
  if '0' ≤ c ∧ c ≤ '9' then some (c.toNat - '0'.toNat)
  else if 'a' ≤ c ∧ c ≤ 'f' then some (c.toNat - 'a'.toNat + 10)
  else if 'A' ≤ c ∧ c ≤ 'F' then some (c.toNat - 'A'.toNat + 10)
  else none

def code? (a b c d : Char) : Option Nat :=
  match hexValue? a, hexValue? b, hexValue? c, hexValue? d with
  | some a, some b, some c, some d => some (a * 4096 + b * 256 + c * 16 + d)
  | _, _, _, _ => none

def shortEscape? : Char → Option Char
  | '"' => some '"'
  | '\\' => some '\\'
  | '/' => some '/'
  | 'b' => some '\x08'
  | 'f' => some '\x0c'
  | 'n' => some '\n'
  | 'r' => some '\r'
  | 't' => some '\t'
  | _ => none

/-- The units up to the closing quote, and what follows it. -/
def textUnits : Input → Option (List TextUnit × Input)
  | [] => none
  | none :: rest => (textUnits rest).map fun (units, s) => (.broken :: units, s)
  | some '"' :: rest => some ([], rest)
  | some '\\' :: some 'u' :: some a :: some b :: some c :: some d :: rest => do
    let n ← code? a b c d
    let (units, s) ← textUnits rest
    return (.code n :: units, s)
  | some '\\' :: some e :: rest => do
    let c ← shortEscape? e
    let (units, s) ← textUnits rest
    return (.char c :: units, s)
  | some c :: rest =>
    if c.toNat < 0x20 || c == '\\' then none
    else (textUnits rest).map fun (units, s) => (.char c :: units, s)

def isHigh (n : Nat) : Bool := 0xd800 ≤ n && n < 0xdc00
def isLow (n : Nat) : Bool := 0xdc00 ≤ n && n < 0xe000

/-- The string that the units denote; a high and a low surrogate make one character. -/
def unitsText? : List TextUnit → Option (List Char)
  | [] => some []
  | .char c :: rest => (unitsText? rest).map (c :: ·)
  | .broken :: _ => none
  | .code n :: .code m :: rest =>
    if isHigh n then
      if isLow m then
        (unitsText? rest).map (Char.ofNat (0x10000 + (n - 0xd800) * 0x400 + (m - 0xdc00)) :: ·)
      else none
    else if isLow n then none
    else (unitsText? (.code m :: rest)).map (Char.ofNat n :: ·)
  | .code n :: rest =>
    if isHigh n || isLow n then none else (unitsText? rest).map (Char.ofNat n :: ·)

def readText (s : Input) : Option (Json × Input) :=
  (textUnits s).map fun (units, rest) =>
    ((unitsText? units).elim .brokenText .text, rest)

def digits : Input → List Char × Input
  | some c :: rest =>
    if c.isDigit then
      let (more, s) := digits rest
      (c :: more, s)
    else ([], some c :: rest)
  | s => ([], s)

def readWhole (s : Input) : Option (List Char × Input) :=
  match digits s with
  | ([], _) => none
  | ('0' :: _ :: _, _) => none
  | found => some found

def readFraction : Input → Option (List Char × Input)
  | some '.' :: rest =>
    match digits rest with
    | ([], _) => none
    | (found, s) => some ('.' :: found, s)
  | s => some ([], s)

def readExponent : Input → Option (List Char × Input)
  | some e :: rest =>
    if e == 'e' || e == 'E' then
      let (sign, rest) := match rest with
        | some '+' :: more => (['+'], more)
        | some '-' :: more => (['-'], more)
        | _ => ([], rest)
      match digits rest with
      | ([], _) => none
      | (found, s) => some (e :: sign ++ found, s)
    else some ([], some e :: rest)
  | s => some ([], s)

def readNumber (s : Input) : Option (Json × Input) := do
  let (sign, s) := match s with
    | some '-' :: rest => (['-'], rest)
    | _ => ([], s)
  let (whole, s) ← readWhole s
  let (fraction, s) ← readFraction s
  let (exponent, s) ← readExponent s
  return (.number (sign ++ whole ++ fraction ++ exponent), s)

def afterWord (word : String) (s : Input) : Option Input :=
  if (word.toList.map some).isPrefixOf s then some (s.drop word.length) else none

mutual

/-- One value with space before it. Every call takes at least one character or less `fuel`. -/
def readValue : Nat → Input → Option (Json × Input)
  | 0, _ => none
  | fuel + 1, s =>
    match skipSpace s with
    | some '"' :: rest => readText rest
    | some '[' :: rest =>
      match skipSpace rest with
      | some ']' :: rest => some (.array [], rest)
      | rest => (readElements fuel rest).map fun (elements, s) => (.array elements, s)
    | some '\x7b' :: rest =>
      match skipSpace rest with
      | some '\x7d' :: rest => some (.object [], rest)
      | rest => (readMembers fuel rest).map fun (members, s) => (.object members, s)
    | some 't' :: rest => (afterWord "rue" rest).map (.bool true, ·)
    | some 'f' :: rest => (afterWord "alse" rest).map (.bool false, ·)
    | some 'n' :: rest => (afterWord "ull" rest).map (.null, ·)
    | s => readNumber s

def readElements : Nat → Input → Option (List Json × Input)
  | 0, _ => none
  | fuel + 1, s => do
    let (first, s) ← readValue fuel s
    match skipSpace s with
    | some ',' :: rest =>
      let (more, s) ← readElements fuel rest
      return (first :: more, s)
    | some ']' :: rest => return ([first], rest)
    | _ => none

def readMembers : Nat → Input → Option (List (Json × Json) × Input)
  | 0, _ => none
  | fuel + 1, s =>
    match skipSpace s with
    | some '"' :: rest => do
      let (key, s) ← readText rest
      match skipSpace s with
      | some ':' :: rest =>
        let (value, s) ← readValue fuel rest
        match skipSpace s with
        | some ',' :: rest =>
          let (more, s) ← readMembers fuel rest
          return ((key, value) :: more, s)
        | some '\x7d' :: rest => return ([(key, value)], rest)
        | _ => none
      | _ => none
    | _ => none

end

/-- A whole document: one value, and nothing but space after it. -/
def parse? (s : Input) : Option Json :=
  match readValue (2 * s.length + 2) s with
  | some (value, rest) => if (skipSpace rest).isEmpty then some value else none
  | none => none

def ofString? (s : String) : Option Json :=
  parse? (s.toList.map some)

end CommandBus.Json
