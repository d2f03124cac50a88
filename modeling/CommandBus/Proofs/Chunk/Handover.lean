import CommandBus.Network
import Mathlib

namespace CommandBus

namespace AckLedger

variable {l l' : AckLedger} {token : AckToken} {n : Nat}

theorem mem_fresh : n ∈ l.fresh token ↔ n ∈ token.messages ∧ n ∉ l.acknowledged := by
  have hfold : ∀ (messages taken : List Nat),
      n ∈ messages.foldl (fun taken n =>
          if l.acknowledged.contains n || taken.contains n then taken else taken ++ [n]) taken ↔
        n ∈ taken ∨ n ∈ messages ∧ n ∉ l.acknowledged := by
    intro messages
    induction messages with
    | nil => simp
    | cons first rest ih =>
      intro taken
      rw [List.foldl_cons, ih, List.mem_cons]
      split
      next h =>
        -- `first` changes nothing: it was acknowledged before, or has been taken.
        rw [Bool.or_eq_true, List.contains_iff_mem, List.contains_iff_mem] at h
        by_cases hn : n = first
        · subst hn
          tauto
        · tauto
      next h =>
        rw [Bool.or_eq_true, List.contains_iff_mem, List.contains_iff_mem, not_or] at h
        rw [List.mem_append, List.mem_singleton]
        by_cases hn : n = first
        · subst hn
          tauto
        · tauto
  rw [fresh, hfold]
  simp

theorem mem_acknowledge :
    n ∈ (l.acknowledge token).acknowledged ↔ n ∈ l.acknowledged ∨ n ∈ token.messages := by
  rw [acknowledge, List.mem_append, mem_fresh]
  tauto

theorem isAcknowledged_iff :
    l.isAcknowledged token = true ↔ token.messages ⊆ l.acknowledged := by
  simp [isAcknowledged, List.subset_def]

theorem isAcknowledged_mono (h : l.acknowledged ⊆ l'.acknowledged)
    (ht : l.isAcknowledged token = true) : l'.isAcknowledged token = true :=
  isAcknowledged_iff.mpr (List.Subset.trans (isAcknowledged_iff.mp ht) h)

end AckLedger

namespace AckToken

/-- Whoever acknowledges the first token has acknowledged the second. -/
def Covers (token part : AckToken) : Prop :=
  ∀ l : AckLedger, (l.acknowledge token).isAcknowledged part = true

variable {token part : AckToken}

theorem covers_iff : token.Covers part ↔ part.messages ⊆ token.messages := by
  constructor
  · intro h n hn
    have hm := AckLedger.isAcknowledged_iff.mp (h {}) hn
    simpa using AckLedger.mem_acknowledge.mp hm
  · intro h l
    exact AckLedger.isAcknowledged_iff.mpr fun n hn =>
      AckLedger.mem_acknowledge.mpr (.inr (h hn))

theorem covers_self (token : AckToken) : token.Covers token :=
  covers_iff.mpr (List.Subset.refl _)

theorem join_covers {tokens : List AckToken} (h : part ∈ tokens) : (join tokens).Covers part :=
  covers_iff.mpr fun _ hn => List.mem_flatMap.mpr ⟨part, h, hn⟩

end AckToken

namespace Mailboxes

def waiting (m : Mailboxes) (id : Nat) : List Delivery :=
  m.boxes[id]?.elim [] Mailbox.waiting

variable {m : Mailboxes} {d : Delivery} {k : Nat}

theorem waiting_happen (m : Mailboxes) (id k : Nat) (f : Mailbox → Mailbox) :
    (m.happen id f).waiting k =
      if id = k then m.boxes[k]?.elim [] fun box => (f box).waiting else m.waiting k := by
  simp only [happen, modify, waiting, List.getElem?_modify]
  split
  next h =>
    cases m.boxes[k]? with
    | none => rfl
    | some box =>
      simp only [Option.map_eq_map, Option.map_some, Option.elim_some]
      split <;> rfl
  next h => simp

theorem waiting_dropSender (m : Mailboxes) (id k : Nat) :
    (m.dropSender id).waiting k = m.waiting k := by
  rw [dropSender, waiting_happen]
  split
  · rfl
  · rfl

theorem waiting_dropSenders (m : Mailboxes) (receivers : Receivers) (k : Nat) :
    (m.dropSenders receivers).waiting k = m.waiting k := by
  rw [dropSenders]
  induction receivers generalizing m with
  | nil => rfl
  | cons receiver rest ih => rw [List.foldl_cons, ih, waiting_dropSender]

theorem length_put (m : Mailboxes) (id : Nat) (d : Delivery) :
    (m.put id d).boxes.length = m.boxes.length := by
  simp [put, happen, modify]

theorem waiting_put (h : k < m.boxes.length) (id : Nat) (d : Delivery) :
    (m.put id d).waiting k = m.waiting k ++ if id = k then [d] else [] := by
  rw [put, waiting_happen]
  split
  next => simp [waiting, List.getElem?_eq_getElem h]
  next => simp

theorem waiting_putAll (h : k < m.boxes.length) (receivers : Receivers) (d : Delivery) :
    (receivers.foldl (fun m (_, id) => m.put id d) m).waiting k =
      m.waiting k ++ List.replicate ((receivers.map Prod.snd).count k) d := by
  induction receivers generalizing m with
  | nil => simp
  | cons receiver rest ih =>
    rw [List.foldl_cons, ih (by rwa [length_put]), waiting_put h, List.map_cons, List.count_cons,
      List.append_assoc]
    by_cases hk : receiver.2 = k
    · simp [hk, List.replicate_succ]
    · simp [hk]

theorem lt_length_of_hasReader (h : m.hasReader k = true) : k < m.boxes.length := by
  by_contra hk
  rw [hasReader, List.getElem?_eq_none (Nat.le_of_not_lt hk)] at h
  simp at h

/-- A receiver for the topic of `d` finds it in its mailbox, behind what waited there before. -/
def Reaches (receivers : Receivers) (d : Delivery) (before after : Mailboxes) : Prop :=
  ∃ receiver ∈ receivers, receiver.1.accepts d.message.topic = true ∧
    before.hasReader receiver.2 = true ∧
    before.waiting receiver.2 ++ [d] <+: after.waiting receiver.2

theorem reaches_deliver {receivers : Receivers} (h : (m.deliver receivers d).1 = true) :
    Reaches receivers d m (m.deliver receivers d).2.2 := by
  simp only [deliver, Bool.not_eq_true', List.isEmpty_eq_false_iff_exists_mem] at h
  obtain ⟨receiver, hr⟩ := h
  obtain ⟨hmatch, hlive⟩ := List.mem_filter.mp hr
  obtain ⟨hmem, haccepts⟩ := List.mem_filter.mp hmatch
  refine ⟨receiver, hmem, haccepts, hlive, ?_⟩
  simp only [deliver, waiting_dropSenders]
  rw [waiting_putAll (lt_length_of_hasReader hlive), List.prefix_append_right_inj]
  have hpos := List.count_pos_iff.mpr (List.mem_map_of_mem (f := Prod.snd) hr)
  rw [← Nat.succ_pred_eq_of_pos hpos, List.replicate_succ]
  exact List.prefix_iff_eq_take.mpr rfl

end Mailboxes

namespace Network

variable {n : Network} {id : Nat} {chunker : ChunkingClient}

theorem dispatch_handsOver (hc : n.chunkers[id]? = some chunker) (d : Delivery) :
    (n.dispatch id d).broker.acks = n.broker.acks.acknowledge d.ack ∨
      (n.dispatch id d).broker.acks = n.broker.acks ∧
        Mailboxes.Reaches chunker.receivers d n.broker.mailboxes
          (n.dispatch id d).broker.mailboxes := by
  simp only [dispatch, hc]
  split
  next h => exact .inr ⟨rfl, Mailboxes.reaches_deliver h⟩
  next => exact .inl rfl

end Network

end CommandBus
