import CommandBus.Bytes

namespace CommandBus

inductive QoS
  | atMostOnce
  | atLeastOnce
  | exactlyOnce
  deriving DecidableEq, Inhabited, Repr

namespace QoS

def level : QoS → Nat
  | .atMostOnce => 0
  | .atLeastOnce => 1
  | .exactlyOnce => 2

def lesser (a b : QoS) : QoS := if a.level ≤ b.level then a else b
def greater (a b : QoS) : QoS := if a.level ≤ b.level then b else a

end QoS

abbrev UserProperties := List (String × String)

def UserProperties.get? (properties : UserProperties) (key : String) : Option String :=
  properties.lookup key

structure Message where
  topic : String
  qos : QoS := .atLeastOnce
  retain : Bool := false
  payload : Bytes := []
  formatIndicator : Option UInt8 := none
  /-- Seconds until the message is of no use any more. -/
  expiryInterval : Option UInt32 := none
  topicAlias : Option UInt16 := none
  responseTopic : Option String := none
  correlationData : Option Bytes := none
  userProperties : UserProperties := []
  subscriptionIds : List Nat := []
  contentType : Option String := none
  deriving DecidableEq, Inhabited, Repr

namespace Message

def userProperty? (m : Message) (key : String) : Option String :=
  m.userProperties.get? key

def textSize (s : Option String) : Nat :=
  s.elim 0 fun s => 3 + s.utf8ByteSize

def propertySize (p : String × String) : Nat :=
  5 + p.1.utf8ByteSize + p.2.utf8ByteSize

/-- An upper bound of the encoded size in bytes: variable byte integers count at full width. -/
def packetSize (m : Message) : Nat :=
  5 + 2 + m.topic.utf8ByteSize + 2 + 4
    + (if m.formatIndicator.isSome then 2 else 0)
    + (if m.expiryInterval.isSome then 5 else 0)
    + (if m.topicAlias.isSome then 3 else 0)
    + textSize m.responseTopic
    + m.correlationData.elim 0 (fun data => 3 + data.length)
    + textSize m.contentType
    + 5 * m.subscriptionIds.length
    + m.userProperties.foldl (fun size p => size + propertySize p) 0
    + m.payload.length

end Message

/-- What the receiving side of an operation answers; below 0x80 it succeeded. -/
structure ReasonCode where
  code : UInt8
  deriving DecidableEq, Inhabited, Repr

namespace ReasonCode

def success : ReasonCode := ⟨0x00⟩
def noMatchingSubscribers : ReasonCode := ⟨0x10⟩
def noSubscriptionExisted : ReasonCode := ⟨0x11⟩

def isSuccess (r : ReasonCode) : Bool := r.code < 0x80

end ReasonCode

end CommandBus
