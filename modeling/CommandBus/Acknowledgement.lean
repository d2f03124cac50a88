import CommandBus.Message

namespace CommandBus

/-- Messages are known by the number under which the ledger issued them. -/
structure AckToken where
  messages : List Nat
  deriving DecidableEq, Inhabited, Repr

namespace AckToken

/-- A token for a message that needs no acknowledgement. -/
def none : AckToken := ⟨[]⟩

def join (tokens : List AckToken) : AckToken :=
  ⟨tokens.flatMap AckToken.messages⟩

end AckToken

structure AckLedger where
  issued : Nat := 0
  /-- Acknowledged messages, in the order in which they were. -/
  acknowledged : List Nat := []
  deriving Inhabited, Repr

namespace AckLedger

def issue (l : AckLedger) : AckToken × AckLedger :=
  (⟨[l.issued]⟩, { l with issued := l.issued + 1 })

/-- Messages not acknowledged before, in order and once each. -/
def fresh (l : AckLedger) (token : AckToken) : List Nat :=
  token.messages.foldl
    (fun taken n => if l.acknowledged.contains n || taken.contains n then taken else taken ++ [n]) []

def acknowledge (l : AckLedger) (token : AckToken) : AckLedger :=
  { l with acknowledged := l.acknowledged ++ l.fresh token }

def isAcknowledged (l : AckLedger) (token : AckToken) : Bool :=
  token.messages.all l.acknowledged.contains

def describe (l : AckLedger) (token : AckToken) : String :=
  "AckToken \x7b messages: " ++ toString token.messages.length ++ ", acked: " ++
    toString (l.isAcknowledged token) ++ " \x7d"

end AckLedger

structure Delivery where
  message : Message
  ack : AckToken
  deriving Inhabited, Repr

end CommandBus
