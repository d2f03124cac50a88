import CommandBus.Digest.Blocks

namespace CommandBus.Digest

structure Scheme (σ : Type) where
  start : σ
  compress : σ → Bytes → σ
  lengthBytes : Nat → Bytes
  output : σ → Bytes

/-- A digest under way: each block has been compressed as soon as it was whole. -/
structure Hasher (σ : Type) where
  state : σ
  /-- Less than a block. -/
  waiting : Bytes := []
  /-- The number of bytes so far. -/
  length : Nat := 0

namespace Scheme

variable {σ : Type}

def digest (d : Scheme σ) (data : Bytes) : Bytes :=
  d.output <| (groups 64 (data ++ padding data.length d.lengthBytes)).foldl d.compress d.start

def update (d : Scheme σ) (h : Hasher σ) (segment : Bytes) : Hasher σ :=
  let bytes := h.waiting ++ segment
  { state := (groups 64 bytes).foldl d.compress h.state
    waiting := bytes.drop (64 * (bytes.length / 64))
    length := h.length + segment.length }

def finish (d : Scheme σ) (h : Hasher σ) : Bytes :=
  d.output <| (groups 64 (h.waiting ++ padding h.length d.lengthBytes)).foldl d.compress h.state

def digestSegments (d : Scheme σ) (segments : List Bytes) : Bytes :=
  d.finish (segments.foldl d.update { state := d.start })

end Scheme

end CommandBus.Digest
