import CommandBus.Clock
import CommandBus.Invoker.Channel
import CommandBus.Protocol.Status

namespace CommandBus

structure Response (V : Type) where
  payload : V
  contentType : Option String
  format : FormatIndicator
  userData : UserProperties
  /-- When the executor made the response. -/
  timestamp : Option Timestamp
  deriving Inhabited

namespace Response

/-- The error that a response with a failure status reports, but for its text. -/
def reportedError (status : Status) (p : ProtocolProperties) : ProtocolError :=
  let name := p.get? .invalidPropertyName
  let value := p.get? .invalidPropertyValue
  let isApplicationError :=
    (p.get? .isApplicationError).elim false (Checksum.equalIgnoringCase · "true")
  match status with
  | .badRequest =>
    match name, value with
    | some name, some value => .headerInvalid name value
    | some name, none => .headerMissing name
    | none, _ => .payloadInvalid
  | .requestTimeout =>
    .timeout (name.getD "")
      ((value.bind Text.readUInt64).map fun secs => .ofSecs secs.toNat)
  | .unsupportedMediaType => .headerInvalid (name.getD "content_type") (value.getD "")
  | .internalServerError =>
    if isApplicationError then .ofKind (.executionException name value)
    else if name.isSome then .internalLogicError name
    else .ofKind .unknownError
  | .serviceUnavailable => .stateInvalid name
  | .versionNotSupported =>
    .unsupportedVersion ((p.get? .requestProtocolVersion).getD "")
      ((p.get? .supportedMajorVersions).elim [] parseMajors)
  | .ok | .noContent => .ofKind .unknownError

def statusError (status : Status) (p : ProtocolProperties) : ProtocolError :=
  ((reportedError status p).withText
    ((p.get? .statusMessage).getD s!"executor responded with status {status.text}")).remote

def checkVersion (p : ProtocolProperties) : Except ProtocolError Unit := do
  let version ← match p.get? .protocolVersion with
    | none => pure ProtocolVersion.current
    | some text =>
      match ProtocolVersion.parse? text with
      | some v => pure v
      | none =>
        throw ((ProtocolError.unsupportedVersion text ProtocolVersion.supportedMajors).withText
          "response protocol version could not be parsed")
  unless version.isSupported ProtocolVersion.supportedMajors do
    throw ((ProtocolError.unsupportedVersion version.text ProtocolVersion.supportedMajors).withText
      "response protocol version is not supported")

def readStatus (p : ProtocolProperties) : Except ProtocolError Status :=
  match p.get? .status with
  | none =>
    .error ((ProtocolError.headerMissing Property.status.key).withText "response has no status")
  | some text =>
    match Status.parse text with
    | .ok status => if status.isSuccess then .ok status else .error (statusError status p)
    | .error (.notANumber text) => .error (.headerInvalid Property.status.key text)
    | .error (.unknown code) =>
      .error ((ProtocolError.ofKind .unknownError).withText
        (StatusError.unknown code).message).remote

/-- Reads the response's timestamp and moves the clock past it. -/
def observeTimestamp (p : ProtocolProperties) (clock : Clock) (wall : Int) :
    Except ProtocolError (Option Timestamp) × Clock :=
  match p.get? .timestamp with
  | none => (.ok none, clock)
  | some text =>
    match Timestamp.parse text with
    | .error e => (.error (.ofClock e), clock)
    | .ok t =>
      let (result, clock) := clock.observe t wall
      (match result with
        | .ok () => .ok (some t)
        | .error e => .error (.ofClock e),
        clock)

def decode {V : Type} (codec : Codec V) (status : Status) (m : Message) :
    Except ProtocolError (V × FormatIndicator) := do
  if status = .noContent ∧ ¬ m.payload.isEmpty then
    throw (ProtocolError.payloadInvalid.withText "response with status 204 has a payload")
  match FormatIndicator.ofByte m.formatIndicator with
  | .error byte => throw (.headerInvalid "payload_format_indicator" (toString byte.toNat))
  | .ok format =>
    match codec.decode m.payload m.contentType format with
    | .ok payload => return (payload, format)
    | .error (.unsupportedContentType detail) =>
      throw ((ProtocolError.headerInvalid "content_type" (m.contentType.getD "")).withText detail)
    | .error (.invalid e) =>
      throw ((ProtocolError.payloadInvalid.withText
        "response payload could not be deserialized").withCause (.payload e))

/-- Checks a response and reads its payload; an acceptable timestamp moves the clock even if the
payload turns out bad. -/
def read {V : Type} (codec : Codec V) (m : Message) (clock : Clock) (wall : Int) :
    Except ProtocolError (Response V) × Clock :=
  let p := ProtocolProperties.ofUser m.userProperties
  match checkVersion p, readStatus p with
  | .error e, _ => (.error e, clock)
  | .ok (), .error e => (.error e, clock)
  | .ok (), .ok status =>
    match observeTimestamp p clock wall with
    | (.error e, clock) => (.error e, clock)
    | (.ok timestamp, clock) =>
      ((decode codec status m).map fun (payload, format) =>
          { payload, contentType := m.contentType, format
            userData := m.userProperties.custom, timestamp },
        clock)

end Response

end CommandBus
