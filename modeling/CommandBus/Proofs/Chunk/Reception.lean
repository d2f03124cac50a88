import CommandBus.Proofs.Association
import CommandBus.Proofs.Chunk.Handover
import Mathlib

namespace CommandBus

namespace Assembler

def deliveries (a : Assembler) : List Delivery :=
  a.chunks.map Prod.snd

/-- The payloads of the parts in their order, under a token for all of them. -/
structure Joins (whole : Delivery) (parts : List Delivery) : Prop where
  payload_eq : whole.message.payload = parts.flatMap (·.message.payload)
  covers : ∀ part ∈ parts, whole.ack.Covers part.ack

variable {a a' : Assembler} {index : UInt32} {d whole : Delivery}

theorem perm_insertChunk (index : UInt32) (d : Delivery) (chunks : List (UInt32 × Delivery)) :
    (insertChunk index d chunks).Perm ((index, d) :: chunks) := by
  induction chunks with
  | nil => exact .refl _
  | cons first rest ih =>
    unfold insertChunk
    split
    · exact .refl _
    · exact (ih.cons first).trans (.swap ..)

theorem perm_deliveries_of_add? (h : a.add? index d = some a') :
    a'.deliveries.Perm (d :: a.deliveries) := by
  rw [add?] at h
  split at h
  · cases h
  · obtain rfl := Option.some.inj h
    exact (perm_insertChunk index d a.chunks).map Prod.snd

theorem joins_of_reassemble? (h : a.reassemble? = some whole) : Joins whole a.deliveries := by
  rw [reassemble?] at h
  split at h
  next =>
    obtain ⟨first, -, rfl⟩ := Option.map_eq_some_iff.mp h
    constructor
    · simp only [deliveries, payload, List.flatMap_map]
    · intro part hp
      obtain ⟨chunk, hc, rfl⟩ := List.mem_map.mp hp
      exact AckToken.join_covers (List.mem_map.mpr ⟨chunk, hc, rfl⟩)
  next => cases h

end Assembler

namespace Inbound

def held (i : Inbound) : List Delivery :=
  i.assemblers.flatMap fun entry => entry.2.deliveries

inductive Handled (i : Inbound) (now : Nat) (d : Delivery) : Action × Inbound → Prop
  | plain (hm : ChunkMetadata.ofMessage d.message = none) : Handled i now d (.dispatch d, i)
  | malformed {e : ChunkMetadataError} (hm : ChunkMetadata.ofMessage d.message = some (.error e)) :
      Handled i now d (.acknowledge d.ack, i)
  | repeated {m : ChunkMetadata} (hm : ChunkMetadata.ofMessage d.message = some (.ok m))
      (ha : (i.assembler m.messageId now).add? m.index d = none) :
      Handled i now d (.acknowledge d.ack, i)
  | kept {m : ChunkMetadata} {a : Assembler}
      (hm : ChunkMetadata.ofMessage d.message = some (.ok m))
      (ha : (i.assembler m.messageId now).add? m.index d = some a)
      (hr : (learn m a).reassemble? = none) :
      Handled i now d (.acknowledge d.ack, i.put m.messageId (learn m a))
  | completed {m : ChunkMetadata} {a : Assembler} {whole : Delivery}
      (hm : ChunkMetadata.ofMessage d.message = some (.ok m))
      (ha : (i.assembler m.messageId now).add? m.index d = some a)
      (hr : (learn m a).reassemble? = some whole) :
      Handled i now d (.dispatch whole, i.remove m.messageId)

theorem handled (i : Inbound) (now : Nat) (d : Delivery) : Handled i now d (i.handle now d) := by
  rw [handle]
  split
  next hm => exact .plain hm
  next e hm => exact .malformed hm
  next m hm =>
    split
    next ha => exact .repeated hm ha
    next a ha =>
      dsimp only
      split
      next whole hr => exact .completed hm ha hr
      next hr => exact .kept hm ha hr

variable {i : Inbound} {now : Nat} {d part whole : Delivery} {m : ChunkMetadata} {a : Assembler}

theorem deliveries_learn (m : ChunkMetadata) (a : Assembler) :
    (learn m a).deliveries = a.deliveries := by
  rw [learn]
  split
  · split
    · rfl
    · rfl
  · rfl

theorem mem_held : part ∈ i.held ↔ ∃ entry ∈ i.assemblers, part ∈ entry.2.deliveries :=
  List.mem_flatMap

theorem held_subset_of_sublist {j : Inbound} (h : j.assemblers.Sublist i.assemblers) :
    j.held ⊆ i.held := by
  intro part hp
  obtain ⟨entry, he, hp⟩ := mem_held.mp hp
  exact mem_held.mpr ⟨entry, h.subset he, hp⟩

theorem held_remove_subset (i : Inbound) (id : String) : (i.remove id).held ⊆ i.held :=
  held_subset_of_sublist List.filter_sublist

theorem held_sweep_subset (i : Inbound) (now : Nat) : (i.sweep now).held ⊆ i.held :=
  held_subset_of_sublist List.filter_sublist

theorem deliveries_assembler_subset (i : Inbound) (id : String) (now : Nat) :
    (i.assembler id now).deliveries ⊆ i.held := by
  rw [assembler]
  cases hl : i.assemblers.lookup id with
  | none => exact List.nil_subset _
  | some a =>
    exact fun part hp => mem_held.mpr ⟨(id, a), Association.mem_of_lookup hl, hp⟩

theorem mem_held_put {id : String} (h : part ∈ (i.put id a).held) :
    part ∈ i.held ∨ part ∈ a.deliveries := by
  obtain ⟨entry, he, hp⟩ := mem_held.mp h
  obtain he | he := List.mem_append.mp he
  · exact .inl (held_remove_subset i id (mem_held.mpr ⟨entry, he, hp⟩))
  · obtain rfl := List.mem_singleton.mp he
    exact .inr hp

theorem mem_held_handle (h : part ∈ (i.handle now d).2.held) :
    part ∈ i.held ∨ part = d ∧ (i.handle now d).1 = .acknowledge d.ack := by
  have hh := handled i now d
  generalize i.handle now d = outcome at h hh
  cases hh with
  | plain | malformed | repeated => exact .inl h
  | completed => exact .inl (held_remove_subset _ _ h)
  | @kept m a hm ha hr =>
    obtain h | h := mem_held_put h
    · exact .inl h
    · rw [deliveries_learn, (Assembler.perm_deliveries_of_add? ha).mem_iff, List.mem_cons] at h
      obtain rfl | h := h
      · exact .inr ⟨rfl, rfl⟩
      · exact .inl (deliveries_assembler_subset i m.messageId now h)

/-- A dispatched delivery is the one handled, or is made of it and what was kept of its message. -/
theorem made_of_handle (h : (i.handle now d).1 = .dispatch whole) :
    (ChunkMetadata.ofMessage d.message = none ∧ whole = d) ∨
      ∃ m, ChunkMetadata.ofMessage d.message = some (.ok m) ∧
        ∃ parts, parts.Perm (d :: (i.assembler m.messageId now).deliveries) ∧
          Assembler.Joins whole parts := by
  have hh := handled i now d
  generalize i.handle now d = outcome at h hh
  cases hh with
  | malformed | repeated | kept => cases h
  | plain hm =>
    cases h
    exact .inl ⟨hm, rfl⟩
  | @completed m a _ hm ha hr =>
    cases h
    refine .inr ⟨m, hm, a.deliveries, Assembler.perm_deliveries_of_add? ha, ?_⟩
    rw [← deliveries_learn m a]
    exact Assembler.joins_of_reassemble? hr

theorem covers_of_handle (h : (i.handle now d).1 = .dispatch whole) :
    whole.ack.Covers d.ack := by
  obtain ⟨-, rfl⟩ | ⟨m, -, parts, hperm, hjoins⟩ := made_of_handle h
  · exact AckToken.covers_self _
  · exact hjoins.covers d (hperm.mem_iff.mpr (List.mem_cons_self ..))

theorem ack_eq_of_handle {ack : AckToken} (h : (i.handle now d).1 = .acknowledge ack) :
    ack = d.ack := by
  have hh := handled i now d
  generalize i.handle now d = outcome at h hh
  cases hh with
  | plain | completed => cases h
  | malformed | repeated | kept =>
    cases h
    rfl

end Inbound

namespace Network

/-- The deliveries in the incomplete messages of a chunking client. -/
def held (n : Network) (id : Nat) : List Delivery :=
  n.chunkers[id]?.elim [] (·.inbound.held)

variable {n n' : Network} {id now : Nat} {d part : Delivery} {chunker : ChunkingClient}

theorem held_modifyChunker (n : Network) (id k : Nat) (f : ChunkingClient → ChunkingClient) :
    (n.modifyChunker id f).held k =
      if id = k then n.chunkers[k]?.elim [] fun c => (f c).inbound.held else n.held k := by
  rw [held, modifyChunker, List.getElem?_modify]
  split
  next =>
    cases n.chunkers[k]? with
    | none => rfl
    | some c => rfl
  next =>
    rw [held]
    simp

theorem held_modifyChunker_of_inbound (n : Network) (id k : Nat)
    {f : ChunkingClient → ChunkingClient} (h : ∀ c, (f c).inbound = c.inbound) :
    (n.modifyChunker id f).held k = n.held k := by
  rw [held_modifyChunker]
  split
  next => simp only [h, held]
  next => rfl

theorem held_dispatch (n : Network) (id k : Nat) (d : Delivery) :
    (n.dispatch id d).held k = n.held k := by
  rw [dispatch]
  split
  next => rfl
  next chunker hc =>
    dsimp only
    split
    · exact held_modifyChunker_of_inbound (n.modifyMailboxes _) id k fun _ => rfl
    · exact held_modifyChunker_of_inbound (n.modifyMailboxes _) id k fun _ => rfl

theorem acknowledged_acknowledge_subset (n : Network) (token : AckToken) :
    n.broker.acks.acknowledged ⊆ (n.acknowledge token).broker.acks.acknowledged :=
  fun _ h => AckLedger.mem_acknowledge.mpr (.inl h)

theorem acknowledged_dispatch_subset (n : Network) (id : Nat) (d : Delivery) :
    n.broker.acks.acknowledged ⊆ (n.dispatch id d).broker.acks.acknowledged := by
  cases hc : n.chunkers[id]? with
  | none => simp [dispatch, hc]
  | some chunker =>
    obtain h | ⟨h, -⟩ := dispatch_handsOver hc d
    · rw [h]
      exact acknowledged_acknowledge_subset n d.ack
    · rw [h]
      exact List.Subset.refl _

theorem getElem?_modifyChunker (hc : n.chunkers[id]? = some chunker)
    (f : ChunkingClient → ChunkingClient) :
    (n.modifyChunker id f).chunkers[id]? = some (f chunker) := by
  rw [modifyChunker, List.getElem?_modify_eq, hc]
  rfl

theorem dispatch_frame (hc : n.chunkers[id]? = some chunker) (d : Delivery) :
    (n.dispatch id d).broker =
        (if (n.broker.mailboxes.deliver chunker.receivers d).1 then
          { n.broker with mailboxes := (n.broker.mailboxes.deliver chunker.receivers d).2.2 }
        else Broker.acknowledge
          { n.broker with mailboxes := (n.broker.mailboxes.deliver chunker.receivers d).2.2 }
          d.ack) ∧
      (n.dispatch id d).links = n.links ∧
      (n.dispatch id d).chunkers[id]? = some
        { chunker with receivers := (n.broker.mailboxes.deliver chunker.receivers d).2.1 } := by
  simp only [dispatch, hc]
  split
  · exact ⟨rfl, rfl, getElem?_modifyChunker (n := n.modifyMailboxes _) hc _⟩
  · exact ⟨rfl, rfl, getElem?_modifyChunker (n := n.modifyMailboxes _) hc _⟩

/-- A chunking client has handled a delivery; what is to be done about it is not done yet. -/
def withInbound (n : Network) (id : Nat) (inbound : Inbound) : Network :=
  n.modifyChunker id ({ · with inbound })

theorem getElem?_withInbound (hc : n.chunkers[id]? = some chunker) (inbound : Inbound) :
    (n.withInbound id inbound).chunkers[id]? = some { chunker with inbound } :=
  getElem?_modifyChunker hc _

theorem held_withInbound (hc : n.chunkers[id]? = some chunker) (inbound : Inbound) :
    (n.withInbound id inbound).held id = inbound.held := by
  rw [held, getElem?_withInbound hc, Option.elim_some]

theorem collect_of_acknowledge (hc : n.chunkers[id]? = some chunker)
    (h : (chunker.inbound.handle now d).1 = .acknowledge d.ack) :
    n.collect id now d =
      (n.withInbound id (chunker.inbound.handle now d).2).acknowledge d.ack := by
  simp only [collect, hc, h, withInbound]

theorem collect_of_dispatch (hc : n.chunkers[id]? = some chunker) {whole : Delivery}
    (h : (chunker.inbound.handle now d).1 = .dispatch whole) :
    n.collect id now d = (n.withInbound id (chunker.inbound.handle now d).2).dispatch id whole := by
  simp only [collect, hc, h, withInbound]

theorem acknowledged_collect_subset (n : Network) (id now : Nat) (d : Delivery) :
    n.broker.acks.acknowledged ⊆ (n.collect id now d).broker.acks.acknowledged := by
  cases hc : n.chunkers[id]? with
  | none => simp [collect, hc]
  | some chunker =>
    cases ha : (chunker.inbound.handle now d).1 with
    | acknowledge ack =>
      obtain rfl := Inbound.ack_eq_of_handle ha
      rw [collect_of_acknowledge hc ha]
      exact acknowledged_acknowledge_subset (n.withInbound id _) d.ack
    | dispatch whole =>
      rw [collect_of_dispatch hc ha]
      exact acknowledged_dispatch_subset (n.withInbound id _) id whole

theorem mem_held_collect (h : part ∈ (n.collect id now d).held id) :
    part ∈ n.held id ∨
      part = d ∧ (n.collect id now d).broker.acks.isAcknowledged d.ack = true := by
  cases hc : n.chunkers[id]? with
  | none =>
    rw [collect, hc] at h
    exact .inl h
  | some chunker =>
    have hn : n.held id = chunker.inbound.held := by rw [held, hc, Option.elim_some]
    rw [hn]
    cases ha : (chunker.inbound.handle now d).1 with
    | acknowledge ack =>
      obtain rfl := Inbound.ack_eq_of_handle ha
      rw [collect_of_acknowledge hc ha] at h ⊢
      replace h : part ∈ (chunker.inbound.handle now d).2.held := by
        rwa [← held_withInbound hc]
      obtain h | ⟨rfl, -⟩ := Inbound.mem_held_handle h
      · exact .inl h
      · exact .inr ⟨rfl, AckToken.covers_self part.ack _⟩
    | dispatch whole =>
      rw [collect_of_dispatch hc ha, held_dispatch, held_withInbound hc] at h
      obtain h | ⟨-, h⟩ := Inbound.mem_held_handle h
      · exact .inl h
      · rw [ha] at h
        cases h

theorem collect_handsOver (hc : n.chunkers[id]? = some chunker) (now : Nat) (d : Delivery) :
    (n.collect id now d).broker.acks.isAcknowledged d.ack = true ∨
      ∃ sent, (chunker.inbound.handle now d).1 = .dispatch sent ∧ sent.ack.Covers d.ack ∧
        Mailboxes.Reaches chunker.receivers sent n.broker.mailboxes
          (n.collect id now d).broker.mailboxes := by
  cases ha : (chunker.inbound.handle now d).1 with
  | acknowledge ack =>
    obtain rfl := Inbound.ack_eq_of_handle ha
    rw [collect_of_acknowledge hc ha]
    exact .inl (AckToken.covers_self d.ack _)
  | dispatch whole =>
    have hcovers := Inbound.covers_of_handle ha
    rw [collect_of_dispatch hc ha]
    obtain h | ⟨-, h⟩ :=
      dispatch_handsOver (getElem?_withInbound hc (chunker.inbound.handle now d).2) whole
    · rw [h]
      exact .inl (hcovers _)
    · exact .inr ⟨whole, rfl, hcovers, h⟩

theorem stepCollect?_cases (h : n.stepCollect? id now = some n') :
    n' = n.endCollecting id ∨ ∃ d taken box, n.take? box = some (d, taken) ∧
      n' = taken.collect id now d := by
  simp only [stepCollect?, Option.bind_eq_bind, Option.bind_eq_some_iff] at h
  obtain ⟨chunker, -, h⟩ := h
  split at h
  · cases h
  · split at h
    · exact .inl (Option.some.inj h).symm
    · split at h
      next d taken ht => exact .inr ⟨d, taken, _, ht, (Option.some.inj h).symm⟩
      next =>
        split at h
        · exact .inl (Option.some.inj h).symm
        · cases h

/-- A step of sweeping ends it after the client was cancelled, or looks through the incomplete
messages when it is time. -/
theorem stepSweep?_cases (h : n.stepSweep? id now = some n') :
    ∃ chunker time, n.chunkers[id]? = some chunker ∧ chunker.nextSweep = some time ∧
      (chunker.isCancelled = true ∧ n' = n.modifyChunker id ({ · with nextSweep := none }) ∨
        time ≤ now ∧ n' = n.modifyChunker id (·.sweep now)) := by
  simp only [stepSweep?, Option.bind_eq_bind, Option.bind_eq_some_iff] at h
  obtain ⟨chunker, hc, time, htime, h⟩ := h
  refine ⟨chunker, time, hc, htime, ?_⟩
  split at h
  next hcancelled => exact .inl ⟨hcancelled, (Option.some.inj h).symm⟩
  next =>
    split at h
    next hle => exact .inr ⟨hle, (Option.some.inj h).symm⟩
    next => cases h

/-- What happens elsewhere leaves a chunking client's incomplete messages alone and takes no
acknowledgement back: receivers come and go, messages are published and acknowledged. -/
structure Elsewhere (id : Nat) (before after : Network) : Prop where
  held_eq : after.held id = before.held id
  acknowledged : before.broker.acks.acknowledged ⊆ after.broker.acks.acknowledged

/-- What may happen to a chunking client: any delivery may arrive, whoever listens. -/
inductive Reception (id : Nat) : Network → Network → Prop
  | handle (n : Network) (now : Nat) (d : Delivery) : Reception id n (n.collect id now d)
  | sweep (n : Network) (now : Nat) : Reception id n (n.modifyChunker id (·.sweep now))
  | shutdown (n : Network) : Reception id n (n.clear id)
  | elsewhere {n n' : Network} (h : Elsewhere id n n') : Reception id n n'

theorem held_clear (n : Network) (id : Nat) : (n.clear id).held id = [] := by
  cases hc : n.chunkers[id]? with
  | none => rw [clear, hc, held, hc, Option.elim_none]
  | some chunker =>
    simp only [clear, hc]
    rw [held_modifyChunker, if_pos rfl]
    simp [modifyMailboxes, hc, Inbound.held]

theorem held_sweep_subset (n : Network) (id now : Nat) :
    (n.modifyChunker id (·.sweep now)).held id ⊆ n.held id := by
  rw [held_modifyChunker, if_pos rfl, held]
  cases n.chunkers[id]? with
  | none => exact List.Subset.refl _
  | some c => exact Inbound.held_sweep_subset c.inbound now

namespace Reception

theorem acknowledged_subset (h : Reception id n n') :
    n.broker.acks.acknowledged ⊆ n'.broker.acks.acknowledged := by
  cases h with
  | handle now d => exact acknowledged_collect_subset n id now d
  | sweep now => exact List.Subset.refl _
  | shutdown =>
    rw [clear]
    split
    · exact List.Subset.refl _
    · exact List.Subset.refl _
  | elsewhere h => exact h.acknowledged

theorem mem_held (h : Reception id n n') (hp : part ∈ n'.held id) :
    part ∈ n.held id ∨ n'.broker.acks.isAcknowledged part.ack = true := by
  cases h with
  | handle now d =>
    obtain hp | ⟨rfl, ha⟩ := mem_held_collect hp
    · exact .inl hp
    · exact .inr ha
  | sweep now => exact .inl (held_sweep_subset n id now hp)
  | shutdown =>
    rw [held_clear] at hp
    cases hp
  | elsewhere h => exact .inl (h.held_eq ▸ hp)

end Reception

end Network

end CommandBus
