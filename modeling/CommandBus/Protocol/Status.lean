import CommandBus.Text.Numeral
import CommandBus.Text.Quoted

namespace CommandBus

inductive Status
  | ok
  | noContent
  | badRequest
  | requestTimeout
  | unsupportedMediaType
  | internalServerError
  | serviceUnavailable
  | versionNotSupported
  deriving DecidableEq, Inhabited, Repr

inductive StatusError
  | notANumber (text : String)
  | unknown (code : UInt16)
  deriving DecidableEq, Inhabited, Repr

def StatusError.message : StatusError → String
  | .notANumber text => s!"status {Text.quoted text} is not an integer"
  | .unknown code => s!"unknown status code {code.toNat}"

namespace Status

def all : List Status :=
  [.ok, .noContent, .badRequest, .requestTimeout, .unsupportedMediaType, .internalServerError,
    .serviceUnavailable, .versionNotSupported]

def code : Status → UInt16
  | .ok => 200
  | .noContent => 204
  | .badRequest => 400
  | .requestTimeout => 408
  | .unsupportedMediaType => 415
  | .internalServerError => 500
  | .serviceUnavailable => 503
  | .versionNotSupported => 505

def text (s : Status) : String := toString s.code.toNat

def isSuccess : Status → Bool
  | .ok | .noContent => true
  | _ => false

def parse (s : String) : Except StatusError Status :=
  match Text.readUInt16 s with
  | none => .error (.notANumber s)
  | some code =>
    match all.find? (·.code == code) with
    | some status => .ok status
    | none => .error (.unknown code)

end Status

end CommandBus
