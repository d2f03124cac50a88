namespace CommandBus

inductive SplitError
  | packetSizeTooSmall (maxPacketSize : Nat)
  | overheadTooLarge (overhead maxPacketSize : Nat)
  | payloadFits (payloadSize maxChunkSize : Nat)
  deriving DecidableEq, Inhabited, Repr

namespace Chunk

def minPacketSize : Nat := 128

def maxSize (overhead maxPacketSize : Nat) : Except SplitError Nat :=
  if maxPacketSize < minPacketSize then .error (.packetSizeTooSmall maxPacketSize)
  else if maxPacketSize ≤ overhead then .error (.overheadTooLarge overhead maxPacketSize)
  else .ok (maxPacketSize - overhead)

end Chunk

def SplitError.message : SplitError → String
  | .packetSizeTooSmall max =>
    s!"maximum packet size of {max} bytes is below the minimum of {Chunk.minPacketSize}"
  | .overheadTooLarge overhead max =>
    s!"static overhead of {overhead} bytes leaves no room for a payload in {max} byte packets"
  | .payloadFits size max =>
    s!"payload of {size} bytes fits in a single chunk of {max} bytes"

end CommandBus
