import CommandBus.Text.Blank
import CommandBus.Text.Numeral

namespace CommandBus

structure ProtocolVersion where
  major : UInt16
  minor : UInt16
  deriving DecidableEq, Inhabited, Repr

namespace ProtocolVersion

/-- The version spoken here, which a message without a version is taken to have. -/
def current : ProtocolVersion := ⟨1, 0⟩

def supportedMajors : List UInt16 := [1]

def parse? (s : String) : Option ProtocolVersion := do
  let (major, minor) ← Text.splitOnce '.' s.toList
  let major ← Text.readUInt16 (String.ofList major)
  let minor ← Text.readUInt16 (String.ofList minor)
  return ⟨major, minor⟩

def text (v : ProtocolVersion) : String :=
  toString v.major.toNat ++ "." ++ toString v.minor.toNat

def isSupported (v : ProtocolVersion) (majors : List UInt16) : Bool :=
  majors.contains v.major

end ProtocolVersion

/-- The words that are numerals; other words are skipped. -/
def parseMajors (s : String) : List UInt16 :=
  (Text.words s.toList).filterMap fun word => Text.readUInt16 (String.ofList word)

def majorsText (majors : List UInt16) : String :=
  " ".intercalate (majors.map fun v => toString v.toNat)

end CommandBus
