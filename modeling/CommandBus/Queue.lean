import CommandBus.Scheduler

namespace CommandBus

namespace Queue

inductive Outcome (α : Type)
  | item (a : α)
  /-- Woken without an item to take. -/
  | woken
  | cancelled
  deriving Inhabited, Repr

def cancelledText : String := "wait for queue item was cancelled"

inductive Phase
  /-- About to look for an item. -/
  | looking
  | waiting
  | notified
  /-- About to take what the wake-up was for. -/
  | taking
  | finished
  deriving DecidableEq, Inhabited, Repr

structure Consumer where
  /-- The token that cancels its waits. -/
  token : Nat
  /-- Whether a wake-up without an item ends the wait. -/
  takesSignals : Bool
  phase : Phase := .looking
  deriving Inhabited, Repr

end Queue

structure Queue (α : Type) where
  items : List α := []
  hasPermit : Bool := false
  /-- Waiting consumers, the one that has waited longest first. -/
  waiters : List Nat := []
  /-- Consumers by their position. -/
  consumers : List Queue.Consumer := []
  cancelled : List Nat := []
  /-- Finished consumers with their outcomes, in the order in which they finished. -/
  finished : List (Nat × Queue.Outcome α) := []
  now : Nat := 0
  deriving Inhabited, Repr

namespace Queue

variable {α : Type}

def setPhase (q : Queue α) (id : Nat) (phase : Phase) : Queue α :=
  { q with consumers := q.consumers.modify id ({ · with phase }) }

def finish (q : Queue α) (id : Nat) (outcome : Outcome α) : Queue α :=
  { q.setPhase id .finished with finished := q.finished ++ [(id, outcome)] }

def notify (q : Queue α) : Queue α :=
  match q.waiters with
  | id :: waiters => { q.setPhase id .notified with waiters }
  | [] => { q with hasPermit := true }

def enqueue (q : Queue α) (a : α) : Queue α :=
  ({ q with items := q.items ++ [a] }).notify

def signal (q : Queue α) : Queue α :=
  q.notify

def cancel (q : Queue α) (token : Nat) : Queue α :=
  { q with cancelled := token :: q.cancelled }

def consume (q : Queue α) (token : Nat) (takesSignals : Bool) : Nat × Queue α :=
  (q.consumers.length, { q with consumers := q.consumers ++ [{ token, takesSignals }] })

def await (q : Queue α) (id : Nat) : Queue α :=
  if q.hasPermit then { q.setPhase id .taking with hasPermit := false }
  else { q.setPhase id .waiting with waiters := q.waiters ++ [id] }

/-- The next step of a consumer; `none` while it waits and after it has finished. -/
def stepConsumer? (q : Queue α) (id : Nat) : Option (Queue α) := do
  let consumer ← q.consumers[id]?
  match consumer.phase with
  | .looking =>
    match q.items with
    | a :: items => return ({ q with items }).finish id (.item a)
    | [] =>
      if q.cancelled.contains consumer.token then return q.finish id .cancelled
      else return q.await id
  | .waiting =>
    if q.cancelled.contains consumer.token then
      return ({ q with waiters := q.waiters.erase id }).finish id .cancelled
    else none
  | .notified => return q.setPhase id .taking
  | .taking =>
    match q.items with
    | a :: items => return ({ q with items }).finish id (.item a)
    | [] => return if consumer.takesSignals then q.finish id .woken else q.setPhase id .looking
  | .finished => none

/-- A consumer that is notified and cancelled at once may give up; then the next one is notified. -/
def giveUp? (q : Queue α) (id : Nat) : Option (Queue α) := do
  let consumer ← q.consumers[id]?
  if consumer.phase = .notified ∧ q.cancelled.contains consumer.token then
    return (q.finish id .cancelled).notify
  else none

def tasks : TaskSystem (Queue α) Nat where
  step? id q := (q.stepConsumer? id).map (·, [])
  deadline? _ _ := none
  isOver id q := q.consumers[id]?.elim true (·.phase == .finished)
  now := Queue.now
  setNow q now := { q with now }

end Queue

end CommandBus
