import CommandBus.Acknowledgement
import CommandBus.Topic.Filter

namespace CommandBus

structure Mailbox where
  waiting : List Delivery := []
  hasSender : Bool := true
  hasReader : Bool := true
  /-- The number of the event that gave the reader something to do, if there is something. -/
  since : Nat := 0
  deriving Inhabited, Repr

structure Mailboxes where
  boxes : List Mailbox := []
  /-- How many events there were: deliveries put into a mailbox, and senders dropped. -/
  events : Nat := 0
  deriving Inhabited, Repr

abbrev Receivers := List (Filter × Nat)

namespace Mailboxes

def create (m : Mailboxes) : Nat × Mailboxes :=
  (m.boxes.length, { m with boxes := m.boxes ++ [({} : Mailbox)] })

def modify (m : Mailboxes) (id : Nat) (f : Mailbox → Mailbox) : Mailboxes :=
  { m with boxes := m.boxes.modify id f }

/-- Something happens to a mailbox. If its reader had nothing to do, this is what it waited for. -/
def happen (m : Mailboxes) (id : Nat) (f : Mailbox → Mailbox) : Mailboxes :=
  { m.modify id fun box =>
      if box.waiting.isEmpty && box.hasSender then { f box with since := m.events } else f box
    with events := m.events + 1 }

def dropSender (m : Mailboxes) (id : Nat) : Mailboxes :=
  m.happen id ({ · with hasSender := false })

def dropReader (m : Mailboxes) (id : Nat) : Mailboxes :=
  m.modify id ({ · with hasReader := false, waiting := [] })

def dropSenders (m : Mailboxes) (receivers : Receivers) : Mailboxes :=
  receivers.foldl (fun m (_, id) => m.dropSender id) m

def hasReader (m : Mailboxes) (id : Nat) : Bool :=
  m.boxes[id]?.elim false Mailbox.hasReader

def put (m : Mailboxes) (id : Nat) (d : Delivery) : Mailboxes :=
  m.happen id fun box => { box with waiting := box.waiting ++ [d] }

def take? (m : Mailboxes) (id : Nat) : Option (Delivery × Mailboxes) :=
  match m.boxes[id]? with
  | some { waiting := d :: rest, .. } => some (d, m.modify id ({ · with waiting := rest }))
  | _ => none

def isClosed (m : Mailboxes) (id : Nat) : Bool :=
  m.boxes[id]?.elim true fun box => box.waiting.isEmpty && !box.hasSender

def since (m : Mailboxes) (id : Nat) : Nat :=
  m.boxes[id]?.elim 0 Mailbox.since

/-- Puts `d` into every matching mailbox that still has a reader, and drops the matching receivers
whose mailbox has none. Tells whether anyone got it. -/
def deliver (m : Mailboxes) (receivers : Receivers) (d : Delivery) :
    Bool × Receivers × Mailboxes :=
  let matching := receivers.filter fun (f, _) => f.accepts d.message.topic
  let live := matching.filter fun (_, id) => m.hasReader id
  let gone := matching.filter fun (_, id) => !m.hasReader id
  (!live.isEmpty,
    receivers.filter fun (f, id) => !f.accepts d.message.topic || m.hasReader id,
    (live.foldl (fun m (_, id) => m.put id d) m).dropSenders gone)

end Mailboxes

end CommandBus
