import CommandBus.ProtocolError
import CommandBus.Text.Blank

namespace CommandBus

/-- Values for placeholders; of a name given more than once, the last value counts. -/
abbrev TokenMap := List (String × String)

def TokenMap.get? (tokens : TokenMap) (name : String) : Option String :=
  tokens.reverse.lookup name

inductive PatternLevel
  | literal (text : String)
  | token (name : String)
  deriving DecidableEq, Inhabited, Repr

structure TopicPattern where
  levels : List PatternLevel
  deriving DecidableEq, Inhabited, Repr

namespace TopicPattern

def isTokenChar (c : Char) : Bool :=
  c.isAlphanum || c == '_' || c == '-'

def isTokenName (name : List Char) : Bool :=
  !name.isEmpty && name.all isTokenChar

def isLevelChar (c : Char) : Bool :=
  !(c == '/' || c == '+' || c == '#' || c == '\x7b' || c == '\x7d' || c == Char.ofNat 0 ||
    Text.isBlank c)

/-- One level that is not empty and holds no wildcard, placeholder or white space. -/
def isLevel (level : String) : Bool :=
  !level.toList.isEmpty && level.toList.all isLevelChar

/-- What stands between the braces of a level that is a placeholder. -/
def placeholder? (level : String) : Option (List Char) :=
  match level.toList with
  | '\x7b' :: rest => if rest.getLast? = some '\x7d' then some rest.dropLast else none
  | _ => none

def invalidValue : String := "token value is not a valid topic level"

def parseLevel (invalid : ProtocolError) (tokens : TokenMap) (level : String) :
    Except ProtocolError PatternLevel :=
  match placeholder? level with
  | some chars =>
    let name := String.ofList chars
    if !isTokenName chars then
      .error (invalid.withText s!"invalid token name {Text.quoted name}")
    else match tokens.get? name with
      | none => .ok (.token name)
      | some value =>
        if isLevel value then .ok (.literal value)
        else .error ((ProtocolError.configurationInvalid name value).withText invalidValue)
  | none =>
    if isLevel level then .ok (.literal level)
    else .error (invalid.withText s!"invalid topic level {Text.quoted level}")

/-- Reads `pattern` under `namespace?`; `property` names the setting it comes from in errors. -/
def parse (property pattern : String) (namespace? : Option String) (tokens : TokenMap) :
    Except ProtocolError TopicPattern := do
  let invalid := ProtocolError.configurationInvalid property pattern
  if let some space := namespace? then
    unless (Text.levels space).all isLevel do
      throw ((ProtocolError.configurationInvalid "namespace" space).withText
        "namespace must be a valid topic without wildcards")
  let full := namespace?.elim pattern (· ++ "/" ++ pattern)
  if pattern.isEmpty || full.toList.head? == some '$' then
    throw (invalid.withText "pattern must not be empty or start with `$`")
  let levels ← (Text.levels full).mapM (parseLevel invalid tokens)
  return ⟨levels⟩

def fillLevel (tokens : TokenMap) : PatternLevel → Except ProtocolError String
  | .literal text => .ok text
  | .token name =>
    match tokens.get? name with
    | some value =>
      if isLevel value then .ok value
      else .error ((ProtocolError.argumentInvalid name value).withText invalidValue)
    | none =>
      .error ((ProtocolError.argumentInvalid name "none").withText
        "no value supplied for topic token")

/-- The topic with every remaining placeholder filled from `tokens`. -/
def publishTopic (p : TopicPattern) (tokens : TokenMap) : Except ProtocolError String :=
  return Text.joinLevels (← p.levels.mapM (fillLevel tokens))

def subscribeLevel : PatternLevel → String
  | .literal text => text
  | .token _ => "+"

/-- A filter for every topic that the pattern can produce. -/
def subscribeFilter (p : TopicPattern) : String :=
  Text.joinLevels (p.levels.map subscribeLevel)

def levelText : PatternLevel → String
  | .literal text => text
  | .token name => "\x7b" ++ name ++ "\x7d"

def text (p : TopicPattern) : String :=
  Text.joinLevels (p.levels.map levelText)

end TopicPattern

end CommandBus
