import CommandBus.Chunk.Size
import CommandBus.Message
import CommandBus.Text.Numeral
import CommandBus.Topic.Filter

namespace CommandBus

inductive ClientError
  | disconnected
  | rejected (code : ReasonCode)
  | packetTooLarge (size max : Nat)
  | invalidFilter (error : FilterError)
  | chunking (error : SplitError)
  deriving DecidableEq, Inhabited, Repr

def ReasonCode.text (r : ReasonCode) : String :=
  let digits := Text.upperHex r.code.toNat
  "0x" ++ String.ofList (List.replicate (2 - digits.length) '0' ++ digits)

namespace ClientError

def message : ClientError → String
  | .disconnected => "client is disconnected"
  | .rejected code => "operation rejected with reason code " ++ code.text
  | .packetTooLarge size max =>
    s!"packet of {size} bytes exceeds the maximum packet size of {max} bytes"
  | .invalidFilter _ => "invalid topic filter"
  | .chunking _ => "error splitting message into chunks"

def cause? : ClientError → Option String
  | .invalidFilter error => some error.message
  | .chunking error => some error.message
  | _ => none

end ClientError

end CommandBus
