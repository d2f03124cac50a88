import CommandBus.Network
import CommandBus.Payload
import CommandBus.Protocol.Property
import CommandBus.Protocol.Version
import CommandBus.Topic.Pattern

namespace CommandBus

structure InvokerOptions where
  commandName : String
  requestPattern : String
  responsePattern : Option String := none
  responseLeading : Option String := none
  responseTrailing : Option String := none
  space : Option String := none
  tokens : TokenMap := []
  shutdownClient : Bool := false
  deriving Inhabited, Repr

/-- The channel on which requests of one command are sent. -/
structure Channel (V : Type) where
  commandName : String
  requestTopic : TopicPattern
  responseTopic : TopicPattern
  responseFilter : String
  client : Client
  clientId : String
  shutdownClient : Bool
  requestCodec : Codec V
  responseCodec : Codec V

/-- A request to be sent, before the protocol's properties are added. -/
structure Outgoing where
  topic : String
  responseTopic : String
  correlationId : Bytes
  body : Serialized
  userProperties : UserProperties
  expiry : UInt32
  deriving Inhabited, Repr

namespace InvokerOptions

def requireText (name : String) : Option String → Except ProtocolError Unit
  | some value =>
    if Text.isAllBlank value then
      .error ((ProtocolError.configurationInvalid name value).withText "must not be empty if set")
    else .ok ()
  | none => .ok ()

/-- The pattern of response topics: as set, or made from the one of requests. -/
def effectiveResponsePattern (o : InvokerOptions) (clientId : String) : String :=
  match o.responsePattern with
  | some pattern => pattern
  | none =>
    if o.responseLeading.isNone && o.responseTrailing.isNone then
      s!"clients/{clientId}/{o.requestPattern}"
    else "/".intercalate
      (o.responseLeading.toList ++ o.requestPattern :: o.responseTrailing.toList)

end InvokerOptions

def requireCommandName (name : String) : Except ProtocolError Unit :=
  if Text.isAllBlank name then
    .error ((ProtocolError.configurationInvalid "command_name" name).withText
      "command name must not be empty")
  else .ok ()

namespace Channel

variable {V : Type}

def create (client : Client) (clientId : String) (requestCodec responseCodec : Codec V)
    (o : InvokerOptions) : Except ProtocolError (Channel V) := do
  requireCommandName o.commandName
  InvokerOptions.requireText "response_topic_prefix" o.responseLeading
  InvokerOptions.requireText "response_topic_suffix" o.responseTrailing
  InvokerOptions.requireText "response_topic_pattern" o.responsePattern
  let requestTopic ←
    TopicPattern.parse "request_topic_pattern" o.requestPattern o.space o.tokens
  let responseTopic ←
    TopicPattern.parse "response_topic_pattern" (o.effectiveResponsePattern clientId) o.space
      o.tokens
  return {
    commandName := o.commandName
    requestTopic
    responseTopic
    responseFilter := responseTopic.subscribeFilter
    client
    clientId
    shutdownClient := o.shutdownClient
    requestCodec
    responseCodec }

def topics (c : Channel V) (tokens : TokenMap) : Except ProtocolError (String × String) := do
  return (← c.requestTopic.publishTopic tokens, ← c.responseTopic.publishTopic tokens)

def message (c : Channel V) (o : Outgoing) (stamp : String) : Message where
  topic := o.topic
  qos := .atLeastOnce
  payload := o.body.payload
  formatIndicator := some o.body.format.byte
  expiryInterval := some o.expiry
  responseTopic := some o.responseTopic
  correlationData := some o.correlationId
  userProperties := o.userProperties ++
    [(Property.sourceId.key, c.clientId), (Property.timestamp.key, stamp),
      (Property.protocolVersion.key, ProtocolVersion.current.text)]
  contentType := o.body.contentType?

/-- What the client makes of a request it was given to publish. -/
def published : Except ClientError ReasonCode → Except ProtocolError Unit
  | .error e => .error (.ofClient e)
  | .ok code =>
    if code.isSuccess then .ok ()
    else .error ((ProtocolError.ofClient (.rejected code)).withText "request publish rejected")

def encode (c : Channel V) (payload : V) : Except ProtocolError Serialized :=
  match c.requestCodec.encode payload with
  | .ok body => .ok body
  | .error e =>
    .error ((ProtocolError.payloadInvalid.withText
      "request payload could not be serialized").withCause (.payload e))

end Channel

/-- The expiry interval of a request with this timeout, which is rounded up to whole seconds. -/
def expiryInterval (timeout : Duration) : Except ProtocolError UInt32 :=
  let secs := timeout.ceilSecs
  if secs = 0 then
    .error ((ProtocolError.argumentInvalid "timeout" timeout.text).withText
      "timeout must be at least one second")
  else if secs < UInt32.size then .ok secs.toUInt32
  else
    .error ((ProtocolError.argumentInvalid "timeout" timeout.text).withText
      "timeout in seconds must fit in a message expiry interval")

end CommandBus
