namespace CommandBus

structure TaskSystem (σ τ : Type) where
  /-- The next step of a task with the tasks it spawns; `none` if it waits or is over. -/
  step? : τ → σ → Option (σ × List τ)
  /-- The time at which a waiting task will be able to go on, if it waits for one. -/
  deadline? : τ → σ → Option Nat
  isOver : τ → σ → Bool
  /-- Of tasks that become able to go on at once, those of lower rank get their turn first. -/
  rank : τ → σ → Nat := fun _ _ => 0
  now : σ → Nat
  setNow : σ → Nat → σ

structure Schedule (σ τ : Type) where
  state : σ
  /-- Waiting tasks, in the order in which they began to wait. -/
  waiting : List τ := []
  /-- Tasks that are able to go on, in the order in which they became so. -/
  ready : List τ := []

namespace Schedule

variable {σ τ : Type} (sys : TaskSystem σ τ)

def spawn (s : Schedule σ τ) (tasks : List τ) : Schedule σ τ :=
  { s with ready := s.ready ++ tasks }

def modify (s : Schedule σ τ) (f : σ → σ) : Schedule σ τ :=
  { s with state := f s.state }

def byRank (state : σ) (tasks : List τ) : List τ :=
  tasks.mergeSort fun a b => sys.rank a state ≤ sys.rank b state

def wake (s : Schedule σ τ) : Schedule σ τ :=
  let (woken, waiting) := s.waiting.partition fun t => (sys.step? t s.state).isSome
  { s with waiting, ready := s.ready ++ byRank sys s.state woken }

/-- Runs the current task as far as it goes, then the ready ones in turn; at most `fuel` steps. -/
def runFrom : Nat → Option τ → Schedule σ τ → Schedule σ τ
  | 0, _, s => s
  | fuel + 1, some t, s =>
    match sys.step? t s.state with
    | some (state, spawned) => runFrom fuel (some t) (wake sys (({ s with state }).spawn spawned))
    | none =>
      runFrom fuel none
        (if sys.isOver t s.state then s else { s with waiting := s.waiting ++ [t] })
  | fuel + 1, none, s =>
    match s.ready with
    | [] => s
    | t :: ready => runFrom fuel (some t) { s with ready }

def stepLimit : Nat := 1000000

/-- Everything that can go on without time passing does. -/
def settle (s : Schedule σ τ) : Schedule σ τ :=
  runFrom sys stepLimit none (wake sys s)

/-- The earliest time still to come for which a task waits. -/
def nextDeadline? (s : Schedule σ τ) : Option Nat :=
  ((s.waiting.filterMap fun t => sys.deadline? t s.state).filter (sys.now s.state < ·)).min?

def moveTo (s : Schedule σ τ) (time : Nat) : Schedule σ τ :=
  settle sys (s.modify fun state => sys.setNow state (max time (sys.now state)))

/-- Time passes up to `target`, and stops at every deadline on the way. -/
def passFrom : Nat → Nat → Schedule σ τ → Schedule σ τ
  | 0, target, s => moveTo sys s target
  | fuel + 1, target, s =>
    match (nextDeadline? sys s).filter (· ≤ target) with
    | some time => passFrom fuel target (moveTo sys s time)
    | none => moveTo sys s target

def pass (s : Schedule σ τ) (span : Nat) : Schedule σ τ :=
  passFrom sys (span + stepLimit) (sys.now s.state + span) (settle sys s)

def waitFrom (isReached : σ → Bool) : Nat → Schedule σ τ → Schedule σ τ
  | 0, s => s
  | fuel + 1, s =>
    if isReached s.state then s
    else match nextDeadline? sys s with
      | some time => waitFrom isReached fuel (moveTo sys s time)
      | none => s

/-- Lets time pass until the state is as wanted, or nothing is left to wait for. -/
def waitUntil (s : Schedule σ τ) (isReached : σ → Bool) : Schedule σ τ :=
  waitFrom sys isReached stepLimit (settle sys s)

end Schedule

end CommandBus
