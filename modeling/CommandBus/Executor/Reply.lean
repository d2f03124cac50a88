import CommandBus.Executor.Handler
import CommandBus.Protocol.Status
import CommandBus.Protocol.Version

namespace CommandBus

structure Reply where
  status : Status
  text : Option String := none
  isApplicationError : Bool := false
  propertyName : Option String := none
  propertyValue : Option String := none
  supportedMajors : Option (List UInt16) := none
  requestVersion : Option String := none
  body : Serialized := .empty
  userData : UserProperties := []
  deriving DecidableEq, Inhabited, Repr

namespace Reply

def failure (status : Status) (text : String) : Reply :=
  { status, text := some text }

def about (name : String) (value : Option String) (r : Reply) : Reply :=
  { r with propertyName := some name, propertyValue := value }

def unsupportedVersion (requested : String) : Reply :=
  { failure .versionNotSupported
      s!"only major protocol versions {versionList ProtocolVersion.supportedMajors} are supported, but the request has version {requested}" with
    supportedMajors := some ProtocolVersion.supportedMajors
    requestVersion := some requested }

def ofError (e : ProtocolError) : Reply :=
  let text := e.message
  match e.kind with
  | .headerMissing name => (failure .badRequest text).about name none
  | .headerInvalid name value => (failure .badRequest text).about name (some value)
  | .payloadInvalid => failure .badRequest text
  | .timeout name value =>
    (failure .requestTimeout text).about name (value.map fun d => toString d.secs)
  | .stateInvalid name => { failure .serviceUnavailable text with propertyName := name }
  | .internalLogicError name => { failure .internalServerError text with propertyName := name }
  | .unsupportedVersion version _ => unsupportedVersion version
  | _ => failure .internalServerError text

def ofApplicationError (e : ApplicationError) : Reply :=
  { failure .internalServerError e.message with
    isApplicationError := true
    propertyName := e.name
    propertyValue := e.value }

def success (body : Serialized) (userData : UserProperties) : Reply :=
  { status := if body.payload.isEmpty then .noContent else .ok, body, userData }

/-- The reply for what a handler returned, unless it used a key of the protocol or its payload
cannot be written. -/
def ofHandler {V : Type} (codec : Codec V) : Except ApplicationError (HandlerReply V) → Reply
  | .error e => ofApplicationError e
  | .ok r =>
    match UserProperties.validate r.userData with
    | .error e =>
      ofError ((ProtocolError.internalLogicError (some "custom_user_data")).withCause
        (.other e.message))
    | .ok () =>
      match codec.encode r.payload with
      | .ok body => success body r.userData
      | .error e =>
        failure .internalServerError s!"response payload could not be serialized: {e.message}"

def properties (r : Reply) (stamp : Option String) : List (Property × String) :=
  [(.status, r.status.text), (.protocolVersion, ProtocolVersion.current.text)] ++
    (stamp.map (Property.timestamp, ·)).toList ++
    (r.text.map (Property.statusMessage, ·)).toList ++
    (if r.isApplicationError then [(.isApplicationError, "true")] else []) ++
    (r.propertyName.map (Property.invalidPropertyName, ·)).toList ++
    (r.propertyValue.map (Property.invalidPropertyValue, ·)).toList ++
    (r.supportedMajors.map fun v => (Property.supportedMajorVersions, majorsText v)).toList ++
    (r.requestVersion.map (Property.requestProtocolVersion, ·)).toList

/-- The response that carries the reply; custom properties come before the protocol's. -/
def response (r : Reply) (topic : String) (correlationData : Option Bytes) (stamp : Option String)
    (expiry : UInt32) : Message where
  topic
  qos := .atLeastOnce
  payload := r.body.payload
  formatIndicator := some r.body.format.byte
  expiryInterval := some expiry
  correlationData
  userProperties := r.userData ++ (r.properties stamp).map fun (p, value) => (p.key, value)
  contentType := r.body.contentType?

end Reply

end CommandBus
