import CommandBus.Text.Pieces

namespace CommandBus.Text

def isBlank (c : Char) : Bool :=
  let n := c.toNat
  (9 ≤ n && n ≤ 13) || n == 0x20 || n == 0x85 || n == 0xa0 || n == 0x1680 ||
    (0x2000 ≤ n && n ≤ 0x200a) || n == 0x2028 || n == 0x2029 || n == 0x202f || n == 0x205f ||
    n == 0x3000

/-- The longest runs of characters that are not white space. -/
def words (s : List Char) : List (List Char) :=
  (pieces isBlank s).filter (!·.isEmpty)

/-- Nothing is left of `s` once white space around it is trimmed. -/
def isAllBlank (s : String) : Bool :=
  s.toList.all isBlank

end CommandBus.Text
