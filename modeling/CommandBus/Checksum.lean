import CommandBus.Digest.Md5
import CommandBus.Digest.Sha256

namespace CommandBus

inductive ChecksumAlgorithm
  | md5
  | sha256
  deriving DecidableEq, Inhabited, Repr

namespace Checksum

def compute (algorithm : ChecksumAlgorithm) (data : Bytes) : String :=
  String.ofList <| Bytes.hex <| match algorithm with
    | .md5 => Digest.Md5.scheme.digest data
    | .sha256 => Digest.Sha256.scheme.digest data

def computeSegments (algorithm : ChecksumAlgorithm) (segments : List Bytes) : String :=
  String.ofList <| Bytes.hex <| match algorithm with
    | .md5 => Digest.Md5.scheme.digestSegments segments
    | .sha256 => Digest.Sha256.scheme.digestSegments segments

def equalIgnoringCase (s t : String) : Bool :=
  s.toList.map Char.toLower == t.toList.map Char.toLower

def matchesHex (algorithm : ChecksumAlgorithm) (data : Bytes) (expected : String) : Bool :=
  equalIgnoringCase (compute algorithm data) expected

def segmentsMatchHex (algorithm : ChecksumAlgorithm) (segments : List Bytes) (expected : String) :
    Bool :=
  equalIgnoringCase (computeSegments algorithm segments) expected

end Checksum

end CommandBus
