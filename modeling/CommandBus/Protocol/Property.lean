import CommandBus.ProtocolError

namespace CommandBus

inductive Property
  | protocolVersion
  | sourceId
  | timestamp
  | status
  | statusMessage
  | isApplicationError
  | invalidPropertyName
  | invalidPropertyValue
  | supportedMajorVersions
  | requestProtocolVersion
  /-- Marks the last message of a stream. -/
  | isLast
  /-- The position of a message in a stream. -/
  | streamIndex
  /-- Asks the other side of a stream to stop. -/
  | cancel
  deriving DecidableEq, Inhabited, Repr

namespace Property

def all : List Property :=
  [.protocolVersion, .sourceId, .timestamp, .status, .statusMessage, .isApplicationError,
    .invalidPropertyName, .invalidPropertyValue, .supportedMajorVersions, .requestProtocolVersion,
    .isLast, .streamIndex, .cancel]

def key : Property → String
  | .protocolVersion => "__protVer"
  | .sourceId => "__srcId"
  | .timestamp => "__ts"
  | .status => "__stat"
  | .statusMessage => "__stMsg"
  | .isApplicationError => "__apErr"
  | .invalidPropertyName => "__propName"
  | .invalidPropertyValue => "__propVal"
  | .supportedMajorVersions => "__supProtMajVer"
  | .requestProtocolVersion => "__requestProtVer"
  | .isLast => "__isLast"
  | .streamIndex => "__idx"
  | .cancel => "__cancel"

def ofKey? (key : String) : Option Property :=
  all.find? (·.key == key)

end Property

/-- The protocol's part of a message's user properties, in their order. -/
structure ProtocolProperties where
  entries : List (Property × String)
  deriving DecidableEq, Inhabited, Repr

namespace ProtocolProperties

def ofUser (properties : UserProperties) : ProtocolProperties :=
  ⟨properties.filterMap fun (key, value) => (Property.ofKey? key).map (·, value)⟩

/-- Of a property given more than once, the last value counts. -/
def get? (p : ProtocolProperties) (property : Property) : Option String :=
  p.entries.reverse.lookup property

end ProtocolProperties

namespace UserProperties

def custom (properties : UserProperties) : UserProperties :=
  properties.filter fun (key, _) => (Property.ofKey? key).isNone

def reservedStart : String := "__"

def isReserved (key : String) : Bool :=
  reservedStart.toList.isPrefixOf key.toList

/-- Custom keys must not be mistaken for the protocol's. -/
def validate (properties : UserProperties) : Except ProtocolError Unit :=
  match properties.find? fun (key, _) => isReserved key with
  | none => .ok ()
  | some (key, value) =>
    .error ((ProtocolError.argumentInvalid key value).withText
      s!"custom user data keys must not start with {Text.quoted reservedStart}")

end UserProperties

end CommandBus
