import CommandBus.Text.Numeral

namespace CommandBus.CommandLine

inductive LogFormat
  | full
  | compact
  | pretty
  | json
  deriving DecidableEq, Inhabited, Repr

structure DemoOptions where
  log : LogFormat := .full
  /-- The path of a config; `-` stands for standard input. -/
  config : Option String := none
  maxPacketSize : Nat := 4096
  largePayloadSize : Nat := 65536
  deriving DecidableEq, Inhabited, Repr

/-- The size of the large payload, if there can be room for it: a process can address less than
`2 ^ 47` bytes. -/
def DemoOptions.payloadSize? (o : DemoOptions) : Option Nat :=
  if o.largePayloadSize < 1 <<< 47 then some o.largePayloadSize else none

inductive Refusal
  | displayHelp
  | displayHelpOnMissingArgumentOrSubcommand
  | unknownArgument
  | invalidSubcommand
  | invalidValue
  | valueValidation
  | argumentConflict
  | tooManyValues
  deriving DecidableEq, Inhabited, Repr

def Refusal.exitCode : Refusal → UInt8
  | .displayHelp => 0
  | _ => 2

inductive Flag
  | log
  | config
  | maxPacketSize
  | largePayloadSize
  deriving DecidableEq, Inhabited, Repr

namespace Flag

def ofLong? : String → Option Flag
  | "log" => some .log
  | "config" => some .config
  | "max-packet-size" => some .maxPacketSize
  | "large-payload-size" => some .largePayloadSize
  | _ => none

def ofShort? : Char → Option Flag
  | 'l' => some .log
  | 'c' => some .config
  | _ => none

end Flag

inductive Shape
  | plain
  /-- Two dashes alone. -/
  | separator
  | long (name : String) (value : Option String)
  | short (name : Char) (value : Option String)
  deriving DecidableEq, Inhabited, Repr

/-- The value that follows a one-letter name at once, perhaps after an equals sign. -/
def attached : List Char → Option String
  | [] => none
  | '=' :: value => some (String.ofList value)
  | value => some (String.ofList value)

def shape (argument : String) : Shape :=
  match argument.toList with
  | ['-', '-'] => .separator
  | '-' :: '-' :: rest =>
    .long (String.ofList (rest.takeWhile (· != '=')))
      (match rest.dropWhile (· != '=') with
        | _ :: value => some (String.ofList value)
        | [] => none)
  | '-' :: name :: rest => .short name (attached rest)
  | _ => .plain

structure State where
  given : List Flag := []
  options : DemoOptions := {}
  /-- An option whose value, if there is one yet, is still to be checked. -/
  pending : Option (Flag × Option String) := none
  deriving Inhabited, Repr

def logFormat? : String → Option LogFormat
  | "full" => some .full
  | "compact" => some .compact
  | "pretty" => some .pretty
  | "json" => some .json
  | _ => none

/-- A number below `bound`, of at most 63 bits, that may have a sign. -/
def signed? (bound : Nat) (s : String) : Option Nat :=
  match s.toList with
  | '-' :: digits =>
    if digits.head? = some '+' then none
    else (Text.readBelow (UInt64.size / 2 + 1) digits).filter (· = 0)
  | digits => (Text.readBelow (UInt64.size / 2) digits).filter (· < bound)

def setValue (o : DemoOptions) (value : String) : Flag → Except Refusal DemoOptions
  | .log =>
    match logFormat? value with
    | some log => .ok { o with log }
    | none => .error .invalidValue
  | .config => if value.isEmpty then .error .invalidValue else .ok { o with config := some value }
  | .maxPacketSize =>
    match signed? UInt32.size value with
    | some maxPacketSize => .ok { o with maxPacketSize }
    | none => .error .valueValidation
  | .largePayloadSize =>
    match Text.readBelow UInt64.size value.toList with
    | some largePayloadSize => .ok { o with largePayloadSize }
    | none => .error .valueValidation

def give (s : State) (flag : Flag) (value : String) : Except Refusal State :=
  if s.given.contains flag then .error .argumentConflict
  else do return { s with given := flag :: s.given, options := ← setValue s.options value flag }

def settle (s : State) : Except Refusal State :=
  match s.pending with
  | none => .ok s
  | some (_, none) => .error .invalidValue
  | some (flag, some value) => give { s with pending := none } flag value

def takeFlag (s : State) (flag : Flag) (value : Option String) : Except Refusal State := do
  let s ← settle s
  match value with
  | some value => give s flag value
  | none => return { s with pending := some (flag, none) }

def takePlain (s : State) (argument : String) : Except Refusal State :=
  match s.pending with
  | some (flag, none) => .ok { s with pending := some (flag, some argument) }
  | _ => .error .unknownArgument

def help (s : State) : Except Refusal State := do
  let _ ← settle s
  throw .displayHelp

def takeArgument (s : State) (argument : String) : Except Refusal State :=
  match shape argument with
  | .long name value =>
    match Flag.ofLong? name, value with
    | some flag, value => takeFlag s flag value
    | none, some _ => .error (if name = "help" then .tooManyValues else .unknownArgument)
    | none, none => if name = "help" then help s else .error .unknownArgument
  | .short name value =>
    match Flag.ofShort? name with
    | some flag => takeFlag s flag value
    | none => if name = 'h' then help s else .error .unknownArgument
  | .plain | .separator => takePlain s argument

/-- Reads the arguments of `demo`; none may follow a separator. -/
def readArguments : List String → State → Except Refusal State
  | [], s => settle s
  | argument :: rest, s =>
    if shape argument = .separator then
      if rest.isEmpty then settle s else .error .unknownArgument
    else do readArguments rest (← takeArgument s argument)

def demo (environment : Option String) (arguments : List String) : Except Refusal DemoOptions := do
  let s ← readArguments arguments {}
  match environment with
  | some path => if s.given.contains .config then return s.options else setValue s.options path .config
  | none => return s.options

def isCommand (argument : String) : Bool :=
  argument = "demo" || argument = "help"

/-- What help is asked for: that of a command, or of none. -/
def helpFor : List String → Refusal
  | [] => .displayHelp
  | [command] => if isCommand command then .displayHelp else .invalidSubcommand
  | _ => .invalidSubcommand

/-- Reads a command line without the name of the program. -/
def parse (environment : Option String) : List String → Except Refusal DemoOptions
  | [] => .error .displayHelpOnMissingArgumentOrSubcommand
  | argument :: rest =>
    if argument = "demo" then demo environment rest
    else if argument = "help" then .error (helpFor rest)
    else match shape argument with
      | .separator =>
        match rest with
        | [] => .error .displayHelpOnMissingArgumentOrSubcommand
        | next :: _ => .error (if isCommand next then .unknownArgument else .invalidSubcommand)
      | .long "help" none | .short 'h' _ => .error .displayHelp
      | .long "help" (some _) => .error .tooManyValues
      | .long .. | .short .. => .error .unknownArgument
      | .plain => .error .invalidSubcommand

end CommandBus.CommandLine
