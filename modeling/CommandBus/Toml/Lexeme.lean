namespace CommandBus.Toml

abbrev Input := List Char

def isSpace (c : Char) : Bool :=
  c == ' ' || c == '\t'

/-- What may stand in a comment or a string as it is: no control character but the tab. -/
def isPlain (c : Char) : Bool :=
  c == '\t' || (0x20 ≤ c.toNat && c.toNat != 0x7f)

def skipSpace (s : Input) : Input :=
  s.dropWhile isSpace

/-- Turns a carriage return before a line feed into nothing. -/
def unifyBreaks : List Char → Input
  | '\r' :: '\n' :: rest => '\n' :: unifyBreaks rest
  | c :: rest => c :: unifyBreaks rest
  | [] => []

def skipComment : Input → Input
  | '#' :: rest => rest.dropWhile isPlain
  | s => s

/-- What follows the end of a line, before which there may be space and a comment. -/
def endLine? (s : Input) : Option Input :=
  match skipComment (skipSpace s) with
  | [] => some []
  | '\n' :: rest => some rest
  | _ => none

/-- Skips space, line breaks and comments; the flag tells whether a comment is being read. -/
def skipLines : Bool → Input → Input
  | _, [] => []
  | inComment, c :: rest =>
    if c == '\n' then skipLines false rest
    else if inComment then if isPlain c then skipLines true rest else c :: rest
    else if isSpace c then skipLines false rest
    else if c == '#' then skipLines true rest
    else c :: rest

def hexValue? (c : Char) : Option Nat :=
  if '0' ≤ c ∧ c ≤ '9' then some (c.toNat - '0'.toNat)
  else if 'a' ≤ c ∧ c ≤ 'f' then some (c.toNat - 'a'.toNat + 10)
  else if 'A' ≤ c ∧ c ≤ 'F' then some (c.toNat - 'A'.toNat + 10)
  else none

def charOfHex? (digits : List Char) : Option Char := do
  let n := (← digits.mapM hexValue?).foldl (16 * · + ·) 0
  if n.isValidChar then some (Char.ofNat n) else none

def shortEscape? : Char → Option Char
  | 'b' => some '\x08'
  | 't' => some '\t'
  | 'n' => some '\n'
  | 'f' => some '\x0c'
  | 'r' => some '\r'
  | '"' => some '"'
  | '\\' => some '\\'
  | _ => none

/-- The character that an escape stands for, and how many characters the escape has after its
backslash. -/
def escape? : Input → Option (Char × Nat)
  | 'u' :: rest =>
    if 4 ≤ rest.length then (charOfHex? (rest.take 4)).map (·, 5) else none
  | 'U' :: rest =>
    if 8 ≤ rest.length then (charOfHex? (rest.take 8)).map (·, 9) else none
  | c :: _ => (shortEscape? c).map (·, 1)
  | [] => none

def prepend (c : Char) : Option (List Char × Input) → Option (List Char × Input) :=
  Option.map fun (cs, rest) => (c :: cs, rest)

/-- A string with escapes up to its closing quote; `skip` counts the characters that an escape still
owns. -/
def readBasic : Nat → Input → Option (List Char × Input)
  | _, [] => none
  | skip + 1, _ :: rest => readBasic skip rest
  | 0, '"' :: rest => some ([], rest)
  | 0, '\\' :: rest => do
    let (c, length) ← escape? rest
    prepend c (readBasic length rest)
  | 0, c :: rest => if isPlain c then prepend c (readBasic 0 rest) else none

def readLiteral : Input → Option (List Char × Input)
  | [] => none
  | '\'' :: rest => some ([], rest)
  | c :: rest => if isPlain c then prepend c (readLiteral rest) else none

/-- The end of a string between triple quotes: one or two quotes before the last three belong to it. -/
def closing? (quote : Char) (s : Input) : Option (List Char × Input) :=
  let quotes := (s.takeWhile (· == quote)).length
  if quotes < 3 then none
  else
    let inner := min (quotes - 3) 2
    some (List.replicate inner quote, s.drop (inner + 3))

/-- A string with escapes over several lines, up to its closing quotes. A backslash at the end of a
line takes all space and line breaks after it along. -/
def readBasicLines : Nat → Input → Option (List Char × Input)
  | _, [] => none
  | skip + 1, _ :: rest => readBasicLines skip rest
  | 0, '\\' :: rest =>
    let gap := rest.takeWhile fun c => isSpace c || c == '\n'
    if gap.contains '\n' then readBasicLines gap.length rest
    else do
      let (c, length) ← escape? rest
      prepend c (readBasicLines length rest)
  | 0, c :: rest =>
    match closing? '"' (c :: rest) with
    | some found => some found
    | none => if isPlain c || c == '\n' then prepend c (readBasicLines 0 rest) else none

/-- A string without escapes over several lines, up to its closing quotes. -/
def readLiteralLines : Input → Option (List Char × Input)
  | [] => none
  | c :: rest =>
    match closing? '\'' (c :: rest) with
    | some found => some found
    | none => if isPlain c || c == '\n' then prepend c (readLiteralLines rest) else none

/-- A line break right after the opening quotes is no part of a string. -/
def skipFirstBreak : Input → Input
  | '\n' :: rest => rest
  | s => s

def readText : Input → Option (String × Input)
  | '"' :: '"' :: '"' :: rest => ofList (readBasicLines 0 (skipFirstBreak rest))
  | '\'' :: '\'' :: '\'' :: rest => ofList (readLiteralLines (skipFirstBreak rest))
  | '"' :: rest => ofList (readBasic 0 rest)
  | '\'' :: rest => ofList (readLiteral rest)
  | _ => none
where
  ofList := Option.map fun (cs, rest) => (String.ofList cs, rest)

def isBare (c : Char) : Bool :=
  c.isAlphanum || c == '-' || c == '_'

def readSimpleKey : Input → Option (String × Input)
  | '"' :: rest => (readBasic 0 rest).map fun (cs, rest) => (String.ofList cs, rest)
  | '\'' :: rest => (readLiteral rest).map fun (cs, rest) => (String.ofList cs, rest)
  | s =>
    let key := s.takeWhile isBare
    if key.isEmpty then none else some (String.ofList key, s.dropWhile isBare)

def partLimit : Nat := 79

/-- The parts of a key with dots, each with space around it; at most so many of them. -/
def readParts : Nat → Input → Option (List String × Input)
  | 0, _ => none
  | limit + 1, s => do
    let (part, s) ← readSimpleKey (skipSpace s)
    match skipSpace s with
    | '.' :: rest =>
      let (parts, s) ← readParts limit rest
      return (part :: parts, s)
    | s => return ([part], s)

/-- A key: the path that its dots make, and its last part. -/
def readKey (s : Input) : Option (List String × String × Input) := do
  let (parts, s) ← readParts partLimit s
  return (parts.dropLast, ← parts.getLast?, s)

end CommandBus.Toml
