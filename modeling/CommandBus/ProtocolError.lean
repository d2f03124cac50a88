import CommandBus.ClientError
import CommandBus.Duration
import CommandBus.Text.Quoted

namespace CommandBus

inductive ErrorKind
  | headerMissing (name : String)
  | headerInvalid (name value : String)
  | payloadInvalid
  | timeout (name : String) (value : Option Duration)
  /-- The client rejected or failed an operation. -/
  | clientError
  | configurationInvalid (name value : String)
  /-- An argument of a call, rejected before anything was sent. -/
  | argumentInvalid (name value : String)
  | stateInvalid (name : Option String)
  | internalLogicError (name : Option String)
  | unknownError
  /-- The remote application reported a failure. -/
  | executionException (name value : Option String)
  | cancellation
  | unsupportedVersion (version : String) (supported : List UInt16)
  deriving DecidableEq, Inhabited, Repr

inductive PayloadError
  | json
  | other (message : String)
  deriving DecidableEq, Inhabited, Repr

def PayloadError.message : PayloadError → String
  | .json => "invalid JSON"
  | .other message => message

inductive Cause
  | client (error : ClientError)
  | split (error : SplitError)
  | payload (error : PayloadError)
  | other (message : String)
  deriving DecidableEq, Inhabited, Repr

namespace Cause

def message : Cause → String
  | .client error => error.message
  | .split error => error.message
  | .payload error => error.message
  | .other message => message

def chain : Cause → List String
  | .client error => error.message :: error.cause?.toList
  | cause => [cause.message]

end Cause

structure ProtocolError where
  kind : ErrorKind
  text : Option String := none
  /-- The other side of the exchange reported it. -/
  isRemote : Bool := false
  commandName : Option String := none
  cause : Option Cause := none
  deriving DecidableEq, Inhabited, Repr

def versionList (versions : List UInt16) : String :=
  "[" ++ ", ".intercalate (versions.map fun v => toString v.toNat) ++ "]"

def withName (what : String) : Option String → String
  | some name => what ++ " (" ++ name ++ ")"
  | none => what

def ErrorKind.message : ErrorKind → String
  | .headerMissing name => s!"header {Text.quoted name} missing"
  | .headerInvalid name value => s!"header {Text.quoted name} has invalid value {Text.quoted value}"
  | .payloadInvalid => "payload invalid"
  | .timeout name (some value) => s!"{name} timed out after {value.text}"
  | .timeout name none => s!"{name} timed out"
  | .clientError => "MQTT client error"
  | .configurationInvalid name value =>
    s!"configuration {Text.quoted name} has invalid value {Text.quoted value}"
  | .argumentInvalid name value =>
    s!"argument {Text.quoted name} has invalid value {Text.quoted value}"
  | .stateInvalid name => withName "invalid state" name
  | .internalLogicError name => withName "internal logic error" name
  | .unknownError => "unknown error"
  | .executionException name _ => withName "execution error" name
  | .cancellation => "cancelled"
  | .unsupportedVersion version supported =>
    s!"protocol version {version} is not supported (supported major versions: {versionList supported})"

namespace ProtocolError

def message (e : ProtocolError) : String :=
  e.commandName.elim "" (fun name => "[" ++ name ++ "] ") ++ e.kind.message ++
    e.text.elim "" (": " ++ ·) ++ if e.isRemote then " (reported by remote)" else ""

def withText (text : String) (e : ProtocolError) : ProtocolError := { e with text := some text }
def withCause (cause : Cause) (e : ProtocolError) : ProtocolError := { e with cause := some cause }
def withCommand (name : String) (e : ProtocolError) : ProtocolError :=
  { e with commandName := some name }
def remote (e : ProtocolError) : ProtocolError := { e with isRemote := true }

def ofKind (kind : ErrorKind) : ProtocolError := { kind }

def headerMissing (name : String) : ProtocolError := ofKind (.headerMissing name)
def headerInvalid (name value : String) : ProtocolError := ofKind (.headerInvalid name value)
def payloadInvalid : ProtocolError := ofKind .payloadInvalid
def timeout (name : String) (value : Option Duration) : ProtocolError := ofKind (.timeout name value)
def configurationInvalid (name value : String) : ProtocolError :=
  ofKind (.configurationInvalid name value)
def argumentInvalid (name value : String) : ProtocolError := ofKind (.argumentInvalid name value)
def stateInvalid (name : Option String) : ProtocolError := ofKind (.stateInvalid name)
def internalLogicError (name : Option String) : ProtocolError := ofKind (.internalLogicError name)
def cancellation : ProtocolError := ofKind .cancellation
def unsupportedVersion (version : String) (supported : List UInt16) : ProtocolError :=
  ofKind (.unsupportedVersion version supported)

def ofClient (e : ClientError) : ProtocolError :=
  (ofKind .clientError).withCause (.client e)

end ProtocolError

end CommandBus
