import CommandBus.Bytes

namespace CommandBus.Digest

def rotateLeft (w n : UInt32) : UInt32 :=
  (w <<< n) ||| (w >>> (32 - n))

def rotateRight (w n : UInt32) : UInt32 :=
  (w >>> n) ||| (w <<< (32 - n))

/-- `n` in `width` bytes, most significant first; higher bytes are lost. -/
def bigEndianBytes : Nat → Nat → Bytes
  | 0, _ => []
  | width + 1, n => bigEndianBytes width (n / 256) ++ [n.toUInt8]

def bigEndian (bs : Bytes) : UInt32 :=
  bs.foldl (fun w b => (w <<< 8) ||| b.toUInt32) 0

def littleEndian (bs : Bytes) : UInt32 :=
  bigEndian bs.reverse

def firstGroups (size : Nat) : Nat → Bytes → List Bytes
  | 0, _ => []
  | count + 1, bs => bs.take size :: firstGroups size count (bs.drop size)

/-- Consecutive groups of `size` bytes; what is left over at the end is dropped. -/
def groups (size : Nat) (bs : Bytes) : List Bytes :=
  firstGroups size (bs.length / size) bs

/-- One set bit, zeros, and the length in bits as eight bytes end a message of `length` bytes on a
block of 64. -/
def padding (length : Nat) (lengthBytes : Nat → Bytes) : Bytes :=
  let zeros := (119 - length % 64) % 64
  0x80 :: List.replicate zeros 0 ++ lengthBytes (8 * length)

end CommandBus.Digest
