namespace CommandBus.Cache

structure Benefit where
  bits : UInt64
  deriving DecidableEq, Inhabited, Repr

namespace Benefit

def ofFloat (x : Float) : Benefit := ⟨x.toBits⟩

def signBit : Nat := 0x8000000000000000

/-- The position in total order: negative patterns come first, the largest magnitude first. -/
def rank (b : Benefit) : Int :=
  let n := b.bits.toNat
  if n < signBit then n else -(n - signBit : Int) - 1

def magnitude (b : Benefit) : Nat :=
  b.bits.toNat % signBit

def isNaN (b : Benefit) : Bool :=
  0x7ff0000000000000 < b.magnitude

/-- Equality of the numbers: zeros are equal whatever their sign, and a NaN equals nothing. -/
def equals (a b : Benefit) : Bool :=
  !a.isNaN && (a.bits == b.bits || (a.magnitude == 0 && b.magnitude == 0))

end Benefit

end CommandBus.Cache
