import CommandBus.Bytes

namespace CommandBus.Json

def escape (c : Char) : List Char :=
  match c with
  | '"' => ['\\', '"']
  | '\\' => ['\\', '\\']
  | '\x08' => ['\\', 'b']
  | '\x0c' => ['\\', 'f']
  | '\n' => ['\\', 'n']
  | '\r' => ['\\', 'r']
  | '\t' => ['\\', 't']
  | c =>
    if c.toNat < 0x20 then
      ['\\', 'u', '0', '0', Bytes.hexDigit (c.toNat / 16), Bytes.hexDigit (c.toNat % 16)]
    else [c]

def writeText (s : String) : List Char :=
  '"' :: s.toList.flatMap escape ++ ['"']

def writeNatural (n : Nat) : List Char :=
  Nat.toDigits 10 n

def separated : List (List Char) → List Char
  | [] => []
  | [piece] => piece
  | piece :: more => piece ++ ',' :: separated more

def writeArray (elements : List (List Char)) : List Char :=
  '[' :: separated elements ++ [']']

/-- An object with these members, whose values are already written. -/
def writeObject (members : List (String × List Char)) : List Char :=
  '\x7b' :: separated (members.map fun (key, value) => writeText key ++ ':' :: value) ++ ['\x7d']

end CommandBus.Json
