namespace CommandBus.Cache

/-- Numbered places. A place that was left is taken again, the one left last first. -/
structure Places where
  count : Nat := 0
  free : List Nat := []
  deriving Inhabited, Repr

namespace Places

def take (p : Places) : Nat × Places :=
  match p.free with
  | place :: free => (place, { p with free })
  | [] => (p.count, { p with count := p.count + 1 })

def leave (p : Places) (place : Nat) : Places :=
  { p with free := place :: p.free }

end Places

structure EntryKey where
  slot : Nat
  serial : Nat
  deriving DecidableEq, Inhabited, Repr

def EntryKey.le (a b : EntryKey) : Bool :=
  a.slot < b.slot || (a.slot == b.slot && a.serial ≤ b.serial)

structure Slots (α : Type) where
  entries : List (EntryKey × α) := []
  places : Places := {}
  /-- The serial number of the next entry. -/
  next : Nat := 0
  deriving Inhabited, Repr

namespace Slots

variable {α : Type}

def get? (s : Slots α) (key : EntryKey) : Option α :=
  s.entries.lookup key

def size (s : Slots α) : Nat :=
  s.entries.length

def insert (s : Slots α) (a : α) : EntryKey × Slots α :=
  let (slot, places) := s.places.take
  let key := ⟨slot, s.next⟩
  (key, { entries := s.entries ++ [(key, a)], places, next := s.next + 1 })

def modify (s : Slots α) (key : EntryKey) (f : α → α) : Slots α :=
  { s with entries := s.entries.map fun (k, a) => (k, if k = key then f a else a) }

def remove (s : Slots α) (key : EntryKey) : Slots α :=
  { s with entries := s.entries.filter (·.1 != key), places := s.places.leave key.slot }

end Slots

end CommandBus.Cache
