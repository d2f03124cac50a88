import CommandBus.Json.Reader
import CommandBus.Json.Writer
import CommandBus.Message

namespace CommandBus

structure ChunkMetadata where
  messageId : String
  index : UInt32
  total : Option UInt32
  checksum : Option String
  deriving DecidableEq, Inhabited, Repr

inductive ChunkMetadataError
  | json
  | missingTotal (messageId : String)
  | indexOutOfRange (messageId : String) (index total : UInt32)
  deriving DecidableEq, Inhabited, Repr

def ChunkMetadataError.message : ChunkMetadataError → String
  | .json => "chunk metadata is not valid JSON"
  | .missingTotal id => s!"chunk 0 of message {id} is missing the total chunk count"
  | .indexOutOfRange id index total =>
    s!"chunk {index.toNat} of message {id} is outside of {total.toNat} chunks"

namespace ChunkMetadata

/-- The key of the user property that holds the metadata. -/
def key : String := "__chunk"

def keys : List String := ["messageId", "chunkIndex", "totalChunks", "checksum"]

def readString (value : Json) : Option String :=
  value.text?.map String.ofList

def readUInt32 (value : Json) : Option UInt32 :=
  (value.natural? UInt32.size).map Nat.toUInt32

/-- The first chunk has to carry the total, and no chunk may lie beyond it. -/
def check (m : ChunkMetadata) : Except ChunkMetadataError ChunkMetadata :=
  match m.total with
  | none => if m.index = 0 then .error (.missingTotal m.messageId) else .ok m
  | some total =>
    if m.index = 0 ∧ total = 0 then .error (.missingTotal m.messageId)
    else if total ≤ m.index then .error (.indexOutOfRange m.messageId m.index total)
    else .ok m

def ofJson? (value : Json) : Option ChunkMetadata := do
  match ← value.fields? keys with
  | [some id, some index, total, checksum] =>
    return {
      messageId := ← readString id
      index := ← readUInt32 index
      total := ← Json.optional? readUInt32 total
      checksum := ← Json.optional? readString checksum }
  | _ => none

def parse (s : String) : Except ChunkMetadataError ChunkMetadata :=
  match (Json.ofString? s).bind ofJson? with
  | some m => m.check
  | none => .error .json

def text (m : ChunkMetadata) : String :=
  String.ofList <| Json.writeObject <|
    [("messageId", Json.writeText m.messageId), ("chunkIndex", Json.writeNatural m.index.toNat)] ++
    (m.total.map fun n => ("totalChunks", Json.writeNatural n.toNat)).toList ++
    (m.checksum.map fun s => ("checksum", Json.writeText s)).toList

def ofMessage (m : Message) : Option (Except ChunkMetadataError ChunkMetadata) :=
  (m.userProperty? key).map parse

end ChunkMetadata

/-- The user properties less those that hold chunk metadata. -/
def UserProperties.withoutChunk (properties : UserProperties) : UserProperties :=
  properties.filter fun (key, _) => key != ChunkMetadata.key

end CommandBus
