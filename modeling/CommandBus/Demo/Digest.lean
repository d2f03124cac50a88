import CommandBus.Checksum
import CommandBus.Json.Writer
import CommandBus.Payload

namespace CommandBus.Demo

structure Digest where
  length : Nat
  sha256 : String
  deriving DecidableEq, Inhabited, Repr

namespace Digest

def ofBytes (payload : Bytes) : Digest where
  length := payload.length
  sha256 := Checksum.compute .sha256 payload

def write (d : Digest) : List Char :=
  Json.writeObject [("len", Json.writeNatural d.length), ("sha256", Json.writeText d.sha256)]

def read? (j : Json) : Option Digest := do
  match ← j.fields? ["len", "sha256"] with
  | [some length, some sha256] =>
    return { length := ← length.natural? UInt64.size, sha256 := String.ofList (← sha256.text?) }
  | _ => none

def codec : Codec Digest :=
  Codec.json write read?

end Digest

inductive Content
  | data (payload : Bytes)
  | digest (digest : Digest)
  deriving DecidableEq, Inhabited, Repr

namespace Content

def data? : Content → Option Bytes
  | .data payload => some payload
  | .digest _ => none

def digest? : Content → Option Digest
  | .digest d => some d
  | .data _ => none

def requests : Codec Content :=
  Codec.raw.embed .data data?

def responses : Codec Content :=
  Digest.codec.embed .digest digest?

end Content

end CommandBus.Demo
