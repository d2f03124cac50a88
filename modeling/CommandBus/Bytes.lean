namespace CommandBus

abbrev Bytes := List UInt8

namespace Bytes

def ofString (s : String) : Bytes :=
  s.toUTF8.toList

def hexDigit (n : Nat) : Char :=
  if n < 10 then Char.ofNat ('0'.toNat + n) else Char.ofNat ('a'.toNat + (n - 10))

def hex (bs : Bytes) : List Char :=
  bs.flatMap fun b => [hexDigit (b.toNat / 16), hexDigit (b.toNat % 16)]

def isTail (b : UInt8) : Bool :=
  0x80 ≤ b && b ≤ 0xbf

/-- The character a byte string starts with and the number of bytes after its first one; a
second byte is bounded so that no character has two spellings and none is a surrogate. -/
def firstChar? : Bytes → Option (Char × Nat)
  | [] => none
  | a :: rest =>
    let x := a.toNat
    if x < 0x80 then some (Char.ofNat x, 0)
    else match rest with
      | b :: c :: d :: _ =>
        if 0xc2 ≤ x && x ≤ 0xdf && isTail b then some (two x b, 1)
        else if 0xe0 ≤ x && x ≤ 0xef && inSecond x b && isTail c then some (three x b c, 2)
        else if 0xf0 ≤ x && x ≤ 0xf4 && inSecond x b && isTail c && isTail d then
          some (four x b c d, 3)
        else none
      | [b, c] =>
        if 0xc2 ≤ x && x ≤ 0xdf && isTail b then some (two x b, 1)
        else if 0xe0 ≤ x && x ≤ 0xef && inSecond x b && isTail c then some (three x b c, 2)
        else none
      | [b] => if 0xc2 ≤ x && x ≤ 0xdf && isTail b then some (two x b, 1) else none
      | [] => none
where
  low (b : UInt8) : Nat := b.toNat % 64
  two (x : Nat) (b : UInt8) : Char := Char.ofNat (x % 32 * 64 + low b)
  three (x : Nat) (b c : UInt8) : Char := Char.ofNat (x % 16 * 4096 + low b * 64 + low c)
  four (x : Nat) (b c d : UInt8) : Char :=
    Char.ofNat (x % 8 * 262144 + low b * 4096 + low c * 64 + low d)
  inSecond (x : Nat) (b : UInt8) : Bool :=
    isTail b && (x != 0xe0 || 0xa0 ≤ b) && (x != 0xed || b ≤ 0x9f) &&
      (x != 0xf0 || 0x90 ≤ b) && (x != 0xf4 || b ≤ 0x8f)

/-- The characters of a byte string; `skip` counts the bytes still owned by the last one. -/
def charsFrom : Nat → Bytes → List (Option Char)
  | _, [] => []
  | skip + 1, _ :: rest => charsFrom skip rest
  | 0, b :: rest =>
    match firstChar? (b :: rest) with
    | some (c, more) => some c :: charsFrom more rest
    | none => none :: charsFrom 0 rest

def chars (bs : Bytes) : List (Option Char) :=
  charsFrom 0 bs

def text? (bs : Bytes) : Option String :=
  String.fromUTF8? ⟨bs.toArray⟩

end Bytes

end CommandBus
