import CommandBus.Proofs.Cache.Bounds
import CommandBus.Proofs.Cache.Deadlines
import Mathlib

namespace CommandBus.Cache

def Entry.isDue (entry : Entry) (now : Nat) : Bool :=
  entry.expiry.elim false (·.2 ≤ now)

namespace State

variable {s : State} {key : EntryKey} {entry : Entry} {now : Nat}

def expired (s : State) (now calls : Nat) : State :=
  s.run (List.replicate calls (.expireOne now))

end State

end CommandBus.Cache
