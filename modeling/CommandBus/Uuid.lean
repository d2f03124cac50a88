import CommandBus.Bytes

namespace CommandBus.Uuid

/-- The identifier of number `n`: different for every `n` below 2 ^ 96, and with the bits that mark
version 4. -/
def ofIndex (n : Nat) : Bytes :=
  (List.range 16).map fun i =>
    if i = 6 then 0x40
    else if i = 8 then 0x80
    else if 10 ≤ i then (n >>> (8 * (15 - i))).toUInt8
    else if i < 6 then (n >>> (8 * (11 - i))).toUInt8
    else 0

def text (id : Bytes) : String :=
  let group := fun (start size : Nat) => Bytes.hex ((id.drop start).take size)
  String.ofList <| group 0 4 ++ '-' :: group 4 2 ++ '-' :: group 6 2 ++ '-' :: group 8 2 ++
    '-' :: group 10 6

end CommandBus.Uuid
