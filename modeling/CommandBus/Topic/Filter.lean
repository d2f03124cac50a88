import CommandBus.Text.Pieces

namespace CommandBus

inductive FilterLevel
  | literal (text : String)
  | any
  deriving DecidableEq, Inhabited, Repr

structure Filter where
  levels : List FilterLevel
  /-- Further levels may follow, none included. -/
  isOpen : Bool
  deriving DecidableEq, Inhabited, Repr

inductive FilterError
  | empty
  /-- A character that may only stand alone, or nowhere, at a byte position of a level. -/
  | invalidToken (token : String) (position : Nat) (character : Char)
  | wildcardNotLast
  deriving DecidableEq, Inhabited, Repr

def FilterError.message : FilterError → String
  | .empty => "filter must not be empty"
  | .invalidToken token position character =>
    token ++ " contains an invalid character starting at " ++ toString position ++
      " (`" ++ character.toString ++ "`)"
  | .wildcardNotLast => "filter contains a `#` wildcard that isn't trailing"

namespace FilterLevel

def accepts : FilterLevel → String → Bool
  | .literal text, level => text == level
  | .any, _ => true

def text : FilterLevel → String
  | .literal text => text
  | .any => "+"

def isReserved (c : Char) : Bool :=
  c == '#' || c == '+' || c == Char.ofNat 0

def firstReserved : Nat → List Char → Option (Nat × Char)
  | _, [] => none
  | position, c :: rest =>
    if isReserved c then some (position, c) else firstReserved (position + c.utf8Size) rest

def parse (level : String) : Except FilterError FilterLevel :=
  if level = "+" then .ok .any
  else match firstReserved 0 level.toList with
    | some (position, c) => .error (.invalidToken level position c)
    | none => .ok (.literal level)

end FilterLevel

namespace Filter

/-- Nothing may follow the open end, so what follows it is not looked at any more. -/
def ofLevels : List String → Except FilterError Filter
  | [] => .ok ⟨[], false⟩
  | level :: rest =>
    if level = "#" then
      if rest.isEmpty then .ok ⟨[], true⟩ else .error .wildcardNotLast
    else do
      let first ← FilterLevel.parse level
      let more ← ofLevels rest
      return ⟨first :: more.levels, more.isOpen⟩

def parse (s : String) : Except FilterError Filter :=
  if s = "" then .error .empty else ofLevels (Text.levels s)

def text (f : Filter) : String :=
  Text.joinLevels (f.levels.map FilterLevel.text ++ if f.isOpen then ["#"] else [])

def hasWildcards (f : Filter) : Bool :=
  f.isOpen || f.levels.contains .any

def acceptsLevels (isOpen : Bool) : List FilterLevel → List String → Bool
  | [], rest => isOpen || rest.isEmpty
  | level :: levels, part :: rest => level.accepts part && acceptsLevels isOpen levels rest
  | _ :: _, [] => false

def startsLiteral (f : Filter) : Bool :=
  match f.levels with
  | .literal _ :: _ => true
  | _ => false

/-- A topic whose text starts with a dollar sign is not reached by a wildcard in its place. -/
def isReservedTopic (topic : String) : Bool :=
  topic.toList.head? == some '$'

def accepts (f : Filter) (topic : String) : Bool :=
  (f.startsLiteral || !isReservedTopic topic) &&
    acceptsLevels f.isOpen f.levels (Text.levels topic)

end Filter

end CommandBus
