import CommandBus.Json.Reader
import CommandBus.ProtocolError

namespace CommandBus

inductive FormatIndicator
  | unspecifiedBytes
  | utf8Text
  deriving DecidableEq, Inhabited, Repr

namespace FormatIndicator

def byte : FormatIndicator → UInt8
  | .unspecifiedBytes => 0
  | .utf8Text => 1

/-- An absent indicator says nothing about the bytes; an unknown one is an error. -/
def ofByte : Option UInt8 → Except UInt8 FormatIndicator
  | none => .ok .unspecifiedBytes
  | some b => if b = 0 then .ok .unspecifiedBytes else if b = 1 then .ok .utf8Text else .error b

end FormatIndicator

structure Serialized where
  payload : Bytes
  /-- Empty if the payload has none. -/
  contentType : String
  format : FormatIndicator
  deriving DecidableEq, Inhabited, Repr

def Serialized.empty : Serialized := ⟨[], "", .unspecifiedBytes⟩

def Serialized.contentType? (s : Serialized) : Option String :=
  if s.contentType.isEmpty then none else some s.contentType

inductive DecodeError
  | invalid (error : PayloadError)
  | unsupportedContentType (detail : String)
  deriving DecidableEq, Inhabited, Repr

def DecodeError.message : DecodeError → String
  | .invalid _ => "invalid payload"
  | .unsupportedContentType detail => "unsupported content type: " ++ detail

structure Codec (α : Type) where
  encode : α → Except PayloadError Serialized
  decode : Bytes → Option String → FormatIndicator → Except DecodeError α

namespace Codec

def raw : Codec Bytes where
  encode bs := .ok ⟨bs, "application/octet-stream", .unspecifiedBytes⟩
  decode bs _ _ := .ok bs

def jsonType : String := "application/json"

def json {α : Type} (write : α → List Char) (read : Json → Option α) : Codec α where
  encode a := .ok ⟨Bytes.ofString (String.ofList (write a)), jsonType, .utf8Text⟩
  decode bs contentType _ :=
    match contentType.filter (· != jsonType) with
    | some other =>
      .error (.unsupportedContentType s!"expected application/json, got {other}")
    | none =>
      match (Json.parse? (Bytes.chars bs)).bind read with
      | some a => .ok a
      | none => .error (.invalid .json)

/-- The same codec on a part of another type; values outside that part cannot be written. -/
def embed {α β : Type} (codec : Codec α) (inject : α → β) (project : β → Option α) : Codec β where
  encode b :=
    match project b with
    | some a => codec.encode a
    | none => .error (.other "value of another kind")
  decode bs contentType format := (codec.decode bs contentType format).map inject

end Codec

end CommandBus
