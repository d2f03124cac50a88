import CommandBus.Text.Alphanumeric

namespace CommandBus.Text.Assignments

abbrev Input := List Char

inductive Part
  | text (c : Char)
  | variable (name : List Char)
  deriving DecidableEq, Inhabited, Repr

abbrev Value := List Part

inductive Place
  | plain
  /-- After a backslash, in quotes or not. -/
  | escape (isQuoted : Bool)
  | single
  | double
  /-- In a name after a dollar sign. -/
  | variable (isQuoted : Bool) (name : List Char)
  /-- In a name between braces. -/
  | braced (isQuoted : Bool) (name : List Char)
  /-- After the value. -/
  | after
  | comment
  deriving DecidableEq, Inhabited, Repr

def unquoted (isQuoted : Bool) : Place :=
  if isQuoted then .double else .plain

def unescape? : Char → Option Char
  | 'n' => some '\n'
  | c => if c ∈ ['\\', '\'', '"', '$', ' '] then some c else none

/-- The place after a character, and what the value gains there. The character that ends a name
without braces stands for itself, even a quote. -/
def next? (place : Place) (c : Char) : Option (Place × Value) :=
  match place with
  | .plain =>
    some (match c with
      | '$' => (.variable false [], [])
      | '\'' => (.single, [])
      | '"' => (.double, [])
      | '\\' => (.escape false, [])
      | ' ' | '\t' => (.after, [])
      | c => (.plain, [.text c]))
  | .double =>
    some (match c with
      | '$' => (.variable true [], [])
      | '"' => (.plain, [])
      | '\\' => (.escape true, [])
      | c => (.double, [.text c]))
  | .single => some (if c = '\'' then (.plain, []) else (.single, [.text c]))
  | .escape isQuoted => (unescape? c).map fun c => (unquoted isQuoted, [.text c])
  | .variable isQuoted name =>
    some (if isAlphanumeric c then (.variable isQuoted (name ++ [c]), [])
      else if c = '\x7b' ∧ name = [] then (.braced isQuoted [], [])
      else if c = '$' then (.variable isQuoted [], [.variable name])
      else (unquoted isQuoted, [.variable name, .text c]))
  | .braced isQuoted name =>
    some (if c = '\x7d' then (unquoted isQuoted, [.variable name])
      else (.braced isQuoted (name ++ [c]), []))
  | .after =>
    if c = ' ' ∨ c = '\t' then some (.after, [])
    else if c = '#' then some (.comment, [])
    else none
  | .comment => some (.comment, [])

/-- What the value gains at its end. Quotes and braces have to be closed. -/
def last? : Place → Option Value
  | .single | .double | .braced .. | .escape true | .variable true _ => none
  | .variable false name => some [.variable name]
  | .plain | .escape false | .after | .comment => some []

def valueFrom? : Place → Input → Option Value
  | place, [] => last? place
  | place, c :: rest => do
    let (place, gain) ← next? place c
    return gain ++ (← valueFrom? place rest)

def value? (s : Input) : Option Value :=
  valueFrom? .plain s

end CommandBus.Text.Assignments
