import CommandBus.Proofs.Chunk.Reception
import Mathlib

namespace CommandBus

namespace Broker

variable {b : Broker} {m : Message}

theorem acknowledged_routeTo (m : Message) (r : Routing) (client : String × Session) :
    (routeTo m r client).acks.acknowledged = r.acks.acknowledged := by
  simp only [routeTo]
  split
  · rfl
  · dsimp only
    split
    · rfl
    · rfl

theorem acknowledged_acknowledge_subset (b : Broker) (token : AckToken) :
    b.acks.acknowledged ⊆ (b.acknowledge token).acks.acknowledged :=
  fun _ h => AckLedger.mem_acknowledge.mpr (.inl h)

theorem acknowledged_acknowledgeAll_subset (b : Broker) (tokens : List AckToken) :
    b.acks.acknowledged ⊆ (tokens.foldl acknowledge b).acks.acknowledged := by
  induction tokens generalizing b with
  | nil => exact List.Subset.refl _
  | cons token rest ih =>
    exact List.Subset.trans (acknowledged_acknowledge_subset b token) (ih (b.acknowledge token))

theorem acknowledged_route_subset (b : Broker) (m : Message) :
    b.acks.acknowledged ⊆ (b.route m).2.acks.acknowledged := by
  have hrouting : ∀ (sessions : List (String × Session)) (r : Routing),
      (sessions.foldl (routeTo m) r).acks.acknowledged = r.acks.acknowledged := by
    intro sessions
    induction sessions with
    | nil => exact fun _ => rfl
    | cons client rest ih =>
      intro r
      rw [List.foldl_cons, ih, acknowledged_routeTo]
  refine List.Subset.trans ?_ (acknowledged_acknowledgeAll_subset _ _)
  rw [hrouting]
  exact List.Subset.refl _

theorem acknowledged_publish_subset (b : Broker) (client : String) (m : Message) :
    b.acks.acknowledged ⊆ (b.publish client m).2.acks.acknowledged := by
  rw [publish]
  split
  · exact List.Subset.refl _
  · dsimp only
    split
    · exact List.Subset.refl _
    · split
      · exact List.Subset.refl _
      · exact acknowledged_route_subset b m

end Broker

namespace Network

variable {n n' n'' : Network} {id : Nat} {d part : Delivery}

namespace Elsewhere

theorem refl (id : Nat) (n : Network) : Elsewhere id n n :=
  ⟨rfl, List.Subset.refl _⟩

theorem trans (h : Elsewhere id n n') (h' : Elsewhere id n' n'') : Elsewhere id n n'' :=
  ⟨h'.held_eq.trans h.held_eq, List.Subset.trans h.acknowledged h'.acknowledged⟩

theorem acknowledge (id : Nat) (n : Network) (token : AckToken) :
    Elsewhere id n (n.acknowledge token) :=
  ⟨rfl, acknowledged_acknowledge_subset n token⟩

theorem mailboxes (id : Nat) (n : Network) (f : Mailboxes → Mailboxes) :
    Elsewhere id n (n.modifyMailboxes f) :=
  ⟨rfl, List.Subset.refl _⟩

theorem chunker (id : Nat) (n : Network) (k : Nat) {f : ChunkingClient → ChunkingClient}
    (h : ∀ c, (f c).inbound = c.inbound) : Elsewhere id n (n.modifyChunker k f) :=
  ⟨held_modifyChunker_of_inbound n k id h, List.Subset.refl _⟩

theorem onLink {α : Type} (id : Nat) (n : Network) (link : Nat) (ahead : Outages → List Outage)
    (rest : List Outage → Outages → Outages) (answer : ReasonCode → Except ClientError α)
    {operation : Broker → Except ClientError α × Broker}
    (h : ∀ b, b.acks.acknowledged ⊆ (operation b).2.acks.acknowledged) :
    Elsewhere id n (n.onLink link ahead rest answer operation).2 := by
  rw [Network.onLink]
  split
  next => exact ⟨rfl, h n.broker⟩
  next outage more _ =>
    cases outage with
    | pass => exact ⟨rfl, h n.broker⟩
    | answer => exact ⟨rfl, List.Subset.refl _⟩
    | disconnected => exact ⟨rfl, List.Subset.refl _⟩

theorem publishOn (id : Nat) (n : Network) (link : Nat) (m : Message) :
    Elsewhere id n (n.publishOn link m).2 :=
  onLink id n link _ _ _ fun b => Broker.acknowledged_publish_subset b _ m

theorem publishAll (id link : Nat) (messages : List Message) (code : ReasonCode) (n : Network) :
    Elsewhere id n (Network.publishAll link messages code n).2 := by
  induction messages generalizing code n with
  | nil => exact refl id n
  | cons m rest ih =>
    have hfirst := publishOn id n link m
    rw [Network.publishAll]
    split
    next e next he =>
      rw [he] at hfirst
      exact hfirst
    next code next he =>
      rw [he] at hfirst
      split
      · exact hfirst.trans (ih code next)
      · exact hfirst

theorem publish (id : Nat) (n : Network) (c : Client) (m : Message) :
    Elsewhere id n (n.publish c m).2 := by
  cases c with
  | plain link => exact publishOn id n link m
  | chunking k =>
    rw [Network.publish]
    dsimp only
    split
    next => exact refl id n
    next chunker _ =>
      split
      next => exact ⟨rfl, List.Subset.refl _⟩
      next messages _ =>
        have hnext : Elsewhere id n n.freshId.2 := ⟨rfl, List.Subset.refl _⟩
        exact hnext.trans (publishAll id chunker.link messages .success n.freshId.2)

theorem receiver (id : Nat) (n : Network) (c : Client) (filter : String) :
    Elsewhere id n (n.receiver c filter).2 := by
  cases c with
  | plain link =>
    refine onLink id n link _ _ _ fun b => ?_
    rw [Broker.receiver]
    split
    · exact List.Subset.refl _
    · split
      · exact List.Subset.refl _
      · exact List.Subset.refl _
  | chunking k =>
    rw [Network.receiver]
    split
    · exact refl id n
    · split
      · exact refl id n
      · exact (mailboxes id n _).trans (chunker id _ k fun _ => rfl)

theorem take {box : Nat} (h : n.take? box = some (d, n')) : Elsewhere id n n' := by
  obtain ⟨⟨_, m⟩, -, he⟩ := Option.map_eq_some_iff.mp h
  cases he
  exact mailboxes id n fun _ => m

theorem endCollecting (id : Nat) (n : Network) (k : Nat) :
    Elsewhere id n (n.endCollecting k) := by
  rw [Network.endCollecting]
  split
  · exact refl id n
  · exact (mailboxes id n _).trans (chunker id _ k fun _ => rfl)

end Elsewhere

def Receptions (id : Nat) : Network → Network → Prop :=
  Relation.ReflTransGen (Reception id)

def KeepsAcknowledged (id : Nat) (n : Network) : Prop :=
  ∀ d ∈ n.held id, n.broker.acks.isAcknowledged d.ack = true

theorem KeepsAcknowledged.step (hn : KeepsAcknowledged id n) (h : Reception id n n') :
    KeepsAcknowledged id n' := by
  intro d hd
  obtain hd | ha := h.mem_held hd
  · exact AckLedger.isAcknowledged_mono h.acknowledged_subset (hn d hd)
  · exact ha

theorem KeepsAcknowledged.run (hn : KeepsAcknowledged id n) (h : Receptions id n n') :
    KeepsAcknowledged id n' := by
  induction h with
  | refl => exact hn
  | tail _ hstep ih => exact ih.step hstep

/-- A chunking client that has kept nothing yet goes through anything. From then on what it keeps
is acknowledged, and still is when it is discarded; each delivery it handles is acknowledged, or
goes to a receiver under a token that acknowledges it; and if it goes as part of a whole message,
that token acknowledges every chunk of the message. -/
theorem no_acknowledgement_lost {start : Network} (hempty : start.held id = [])
    (hrun : Receptions id start n) :
    (∀ d ∈ n.held id, n.broker.acks.isAcknowledged d.ack = true) ∧
    (∀ next, Reception id n next →
      ∀ d ∈ n.held id, next.broker.acks.isAcknowledged d.ack = true) ∧
    ∀ chunker, n.chunkers[id]? = some chunker → ∀ now d,
      ((n.collect id now d).broker.acks.isAcknowledged d.ack = true ∨
        ∃ sent, (chunker.inbound.handle now d).1 = .dispatch sent ∧ sent.ack.Covers d.ack ∧
          Mailboxes.Reaches chunker.receivers sent n.broker.mailboxes
            (n.collect id now d).broker.mailboxes) ∧
      ∀ whole, (chunker.inbound.handle now d).1 = .dispatch whole →
        (ChunkMetadata.ofMessage d.message = none ∧ whole = d) ∨
          ∃ m, ChunkMetadata.ofMessage d.message = some (.ok m) ∧
            ∃ parts, parts.Perm (d :: (chunker.inbound.assembler m.messageId now).deliveries) ∧
              Assembler.Joins whole parts := by
  have hstart : KeepsAcknowledged id start := by
    intro d hd
    rw [hempty] at hd
    cases hd
  have hn := hstart.run hrun
  refine ⟨hn, fun next hnext d hd => ?_, fun chunker hc now d => ⟨?_, fun whole hw => ?_⟩⟩
  · exact AckLedger.isAcknowledged_mono hnext.acknowledged_subset (hn d hd)
  · exact collect_handsOver hc now d
  · exact Inbound.made_of_handle hw

/-- The chunks of a message of two, each under a token of its own. -/
def chunkOfTwo (index : Fin 2) : Delivery where
  message := Chunk.piece { topic := "t" }
    { messageId := "a", index := index.val.toUInt32, total := some 2, checksum := none }
    [index.val.toUInt8]
  ack := ⟨[index]⟩

/-- A chunking client with one receiver has handled the second chunk. -/
def secondHandled : Network :=
  (receiver { chunkers := [ChunkingClient.create 0 0 0 {}] } (.chunking 0) "t").2.collect 0 5
    (chunkOfTwo 1)

/-- The second chunk is kept, and acknowledged. The first is not, but the receiver gets it under a
token for both. -/
theorem kept_or_received :
    (secondHandled.held 0).map (·.ack) = [⟨[1]⟩] ∧
    secondHandled.broker.acks.isAcknowledged ⟨[1]⟩ = true ∧
    (secondHandled.collect 0 6 (chunkOfTwo 0)).broker.acks.isAcknowledged ⟨[0]⟩ = false ∧
    ∃ (chunker : ChunkingClient) (sent : Delivery), sent.ack.Covers ⟨[0]⟩ ∧
      Mailboxes.Reaches chunker.receivers sent secondHandled.broker.mailboxes
        (secondHandled.collect 0 6 (chunkOfTwo 0)).broker.mailboxes := by
  have hkept : (secondHandled.held 0).map (·.ack) = [⟨[1]⟩] := by decide +kernel
  have hopen : (secondHandled.collect 0 6 (chunkOfTwo 0)).broker.acks.isAcknowledged
      (chunkOfTwo 0).ack = false := by decide +kernel
  have hlength : 0 < secondHandled.chunkers.length := by decide +kernel
  have hrun : Receptions 0 { chunkers := [ChunkingClient.create 0 0 0 {}] } secondHandled :=
    (Relation.ReflTransGen.single (.elsewhere (.receiver 0 _ (.chunking 0) "t"))).tail
      (.handle _ 5 (chunkOfTwo 1))
  obtain ⟨hacked, -, hhandles⟩ := no_acknowledgement_lost rfl hrun
  have hmem : (⟨[1]⟩ : AckToken) ∈ (secondHandled.held 0).map (·.ack) := by
    rw [hkept]
    exact List.mem_singleton_self _
  obtain ⟨d, hd, hack⟩ := List.mem_map.mp hmem
  refine ⟨hkept, hack ▸ hacked d hd, hopen, ?_⟩
  obtain ⟨hhandled, -⟩ := hhandles _ (List.getElem?_eq_getElem hlength) 6 (chunkOfTwo 0)
  obtain h | ⟨sent, -, hsent⟩ := hhandled
  · rw [hopen] at h
    cases h
  · exact ⟨_, sent, hsent⟩

end Network

end CommandBus
