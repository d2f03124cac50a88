import CommandBus.Proofs.Broker.Balance
import CommandBus.Proofs.Chunk.Acknowledged
import Mathlib

namespace CommandBus

theorem Mailboxes.waiting_dropReader (m : Mailboxes) (id k : Nat) :
    (m.dropReader id).waiting k = if id = k then [] else m.waiting k := by
  rw [dropReader, modify, waiting, List.getElem?_modify]
  split
  next => cases m.boxes[k]? <;> rfl
  next => rw [id_map', waiting]

def Session.listening (filter : Filter) (box : Nat) (s : Session) : Session :=
  { s with receivers := s.receivers ++ [(filter, box)] }

namespace Broker

/-- What clients and those who run the broker can do. The last two are of those who read
mailboxes. -/
inductive Act where
  | connect (client : String)
  | disconnect (client : String)
  | subscribe (client filter : String) (qos : QoS)
  | unsubscribe (client filter : String)
  | receiver (client filter : String)
  | publish (client : String) (m : Message)
  | hold (filter : Filter)
  | release (reverse : Bool)
  | dropHeld
  | acknowledge (token : AckToken)
  | take (box : Nat)
  | close (box : Nat)

def perform (b : Broker) : Act → Broker
  | .connect client => b.connect client
  | .disconnect client => b.disconnect client
  | .subscribe client filter qos => (b.subscribe client filter qos).2
  | .unsubscribe client filter => (b.unsubscribe client filter).2
  | .receiver client filter => (b.receiver client filter).2
  | .publish client m => (b.publish client m).2
  | .hold filter => b.hold filter
  | .release reverse => b.release reverse
  | .dropHeld => b.dropHeld.2
  | .acknowledge token => b.acknowledge token
  | .take box => { b with mailboxes := (b.mailboxes.take? box).elim b.mailboxes Prod.snd }
  | .close box => { b with mailboxes := b.mailboxes.dropReader box }

def after (b : Broker) (past : List Act) : Broker :=
  past.foldr (fun a b => b.perform a) b

theorem Sound.congr {b b' : Broker} (h : b.Sound) (hs : b'.sessions = b.sessions)
    (hm : b'.mailboxes.boxes.length = b.mailboxes.boxes.length) (ha : b'.acks = b.acks) :
    b'.Sound :=
  h.of_sublist (hs ▸ h.nodup_clients) (fun p hp => .inr ⟨p, hs ▸ hp, rfl, .refl _⟩) hm.ge
    (ha ▸ h.acknowledged_lt)

/-- A step in which nothing is handed out, held back or acknowledged, though readers may take what
is waiting. -/
structure Quiet (b b' : Broker) : Prop where
  sound : b.Sound → b'.Sound
  balanced : ∀ owed, b.Balanced owed → b'.Balanced owed
  acks_eq : b'.acks = b.acks
  held_eq : b'.held = b.held
  waiting_suffix : ∀ k, b'.mailboxes.waiting k <:+ b.mailboxes.waiting k

variable {b b' b'' : Broker} {client : String} {f : Session → Session} {owed : String → List Nat}

theorem clients_modifySession (b : Broker) (client : String) (f : Session → Session) :
    (b.modifySession client f).sessions.map Prod.fst = b.sessions.map Prod.fst := by
  rw [modifySession, List.map_map]
  rfl

theorem exists_of_mem_modifySession {p' : String × Session}
    (h : p' ∈ (b.modifySession client f).sessions) :
    ∃ p ∈ b.sessions, p' = (p.1, if p.1 = client then f p.2 else p.2) := by
  obtain ⟨p, hp, rfl⟩ := List.mem_map.mp h
  exact ⟨p, hp, rfl⟩

theorem Sound.modifySession (h : b.Sound) (client : String)
    (hf : ∀ s, (f s).boxes.Sublist s.boxes) : (b.modifySession client f).Sound := by
  refine h.of_sublist ?_ (fun p' hp' => .inr ?_) le_rfl h.acknowledged_lt
  · rw [clients_modifySession]
    exact h.nodup_clients
  · obtain ⟨p, hp, rfl⟩ := exists_of_mem_modifySession hp'
    refine ⟨p, hp, rfl, ?_⟩
    dsimp only
    split
    · exact hf p.2
    · exact .refl _

theorem Sound.listening (hb : b.Sound) (client : String) (filter : Filter) :
    Sound { b.modifySession client (Session.listening filter b.mailboxes.boxes.length) with
      mailboxes := b.mailboxes.create.2 } := by
  have hold {p'} (hp' : p' ∈ (b.modifySession client
      (Session.listening filter b.mailboxes.boxes.length)).sessions) :
      ∃ p ∈ b.sessions, p'.1 = p.1 ∧ p'.2.boxes =
        p.2.boxes ++ if p.1 = client then [b.mailboxes.boxes.length] else [] := by
    obtain ⟨p, hp, rfl⟩ := exists_of_mem_modifySession hp'
    refine ⟨p, hp, rfl, ?_⟩
    dsimp only
    split
    · exact List.map_append
    · exact (List.append_nil _).symm
  have hfresh {p} (hp : p ∈ b.sessions) : b.mailboxes.boxes.length ∉ p.2.boxes :=
    fun hmem => (hb.boxes_lt p hp _ hmem).false
  refine ⟨?_, fun p' hp' => ?_, fun p' hp' q' hq' k hk hk' => ?_, fun p' hp' k hk => ?_,
    hb.acknowledged_lt⟩
  · exact (clients_modifySession b client _).symm ▸ hb.nodup_clients
  · obtain ⟨p, hp, -, hboxes⟩ := hold hp'
    rw [hboxes]
    split
    · exact List.nodup_append'.mpr ⟨hb.nodup_boxes p hp, List.nodup_singleton _,
        List.disjoint_singleton.mpr (hfresh hp)⟩
    · rw [List.append_nil]
      exact hb.nodup_boxes p hp
  · obtain ⟨p, hp, hpe, hboxes⟩ := hold hp'
    obtain ⟨q, hq, hqe, hboxes'⟩ := hold hq'
    rw [hboxes, List.mem_append, List.mem_ite_nil_right, List.mem_singleton] at hk
    rw [hboxes', List.mem_append, List.mem_ite_nil_right, List.mem_singleton] at hk'
    rw [hpe, hqe]
    obtain hk | ⟨hp', rfl⟩ := hk
    · obtain hk' | ⟨-, rfl⟩ := hk'
      · exact hb.client_eq p hp q hq k hk hk'
      · exact absurd hk (hfresh hp)
    · obtain hk' | ⟨hq', -⟩ := hk'
      · exact absurd hk' (hfresh hq)
      · exact hp'.trans hq'.symm
  · obtain ⟨p, hp, -, hboxes⟩ := hold hp'
    rw [hboxes, List.mem_append, List.mem_ite_nil_right, List.mem_singleton] at hk
    show k < b.mailboxes.create.2.boxes.length
    rw [Mailboxes.length_create]
    obtain hk | ⟨-, rfl⟩ := hk
    · exact (hb.boxes_lt p hp k hk).trans (Nat.lt_succ_self _)
    · exact Nat.lt_succ_self _

theorem Balanced.modifySession (h : b.Balanced owed) (client : String) (f : Session → Session)
    (hf : ∀ s, (f s).unacked = s.unacked ∧ (f s).acknowledged = s.acknowledged) :
    (b.modifySession client f).Balanced owed := by
  intro p' hp'
  obtain ⟨p, hp, rfl⟩ := exists_of_mem_modifySession hp'
  dsimp only
  split
  · exact (h p hp).congr (hf p.2).1 (hf p.2).2
  · exact h p hp

namespace Quiet

theorem refl (b : Broker) : Quiet b b :=
  ⟨id, fun _ => id, rfl, rfl, fun _ => List.suffix_rfl⟩

theorem trans (h : Quiet b b') (h' : Quiet b' b'') : Quiet b b'' :=
  ⟨h'.sound ∘ h.sound, fun owed => h'.balanced owed ∘ h.balanced owed,
    h'.acks_eq.trans h.acks_eq, h'.held_eq.trans h.held_eq,
    fun k => (h'.waiting_suffix k).trans (h.waiting_suffix k)⟩

theorem mailboxes (b : Broker) {m : Mailboxes}
    (h : m.boxes.length = b.mailboxes.boxes.length)
    (hw : ∀ k, m.waiting k <:+ b.mailboxes.waiting k) : Quiet b { b with mailboxes := m } where
  sound hb := hb.congr rfl h rfl
  balanced _ := id
  acks_eq := rfl
  held_eq := rfl
  waiting_suffix := hw

theorem dropSenders (b : Broker) (receivers : Receivers) :
    Quiet b { b with mailboxes := b.mailboxes.dropSenders receivers } := by
  refine mailboxes b (Mailboxes.dropSenders_frame _ _ 0).2.2 fun k => ?_
  rw [Mailboxes.waiting_dropSenders]

theorem hold (b : Broker) (filter : Filter) : Quiet b (b.hold filter) where
  sound hb := hb.congr rfl rfl rfl
  balanced _ := id
  acks_eq := rfl
  held_eq := rfl
  waiting_suffix _ := List.suffix_rfl

theorem modifySession (b : Broker) (client : String) (f : Session → Session)
    (hf : ∀ s, (f s).boxes.Sublist s.boxes ∧ (f s).unacked = s.unacked ∧
      (f s).acknowledged = s.acknowledged) : Quiet b (b.modifySession client f) where
  sound hb := hb.modifySession client fun s => (hf s).1
  balanced _ hb := hb.modifySession client f fun s => (hf s).2
  acks_eq := rfl
  held_eq := rfl
  waiting_suffix _ := List.suffix_rfl

theorem disconnect (b : Broker) (client : String) : Quiet b (b.disconnect client) := by
  rw [Broker.disconnect]
  split
  next s _ =>
    exact (modifySession b client
      ({ · with connected := false, subscriptions := [], receivers := [] })
      fun _ => ⟨List.nil_sublist _, rfl, rfl⟩).trans (dropSenders _ s.receivers)
  next => exact refl b

theorem subscribe (b : Broker) (client filter : String) (qos : QoS) :
    Quiet b (b.subscribe client filter qos).2 := by
  rw [Broker.subscribe]
  split
  next => exact refl b
  next parsed _ =>
    split
    · exact modifySession b client
        (fun s => { s with
          subscriptions := s.subscriptions.filter (·.1 != parsed) ++ [(parsed, qos)] })
        fun _ => ⟨.refl _, rfl, rfl⟩
    · exact refl b

theorem unsubscribe (b : Broker) (client filter : String) :
    Quiet b (b.unsubscribe client filter).2 := by
  rw [Broker.unsubscribe]
  split
  next => exact refl b
  next parsed _ =>
    split
    next => exact refl b
    next =>
      exact modifySession b client
        (fun s => { s with subscriptions := s.subscriptions.filter (·.1 != parsed) })
        fun _ => ⟨.refl _, rfl, rfl⟩

theorem listening (b : Broker) (client : String) (filter : Filter) :
    Quiet b { b.modifySession client (Session.listening filter b.mailboxes.boxes.length) with
      mailboxes := b.mailboxes.create.2 } where
  sound hb := hb.listening client filter
  balanced owed hb := hb.modifySession client _ fun _ => ⟨rfl, rfl⟩
  acks_eq := rfl
  held_eq := rfl
  waiting_suffix k := by
    show b.mailboxes.create.2.waiting k <:+ _
    rw [Mailboxes.waiting_create]

theorem receiver (b : Broker) (client filter : String) :
    Quiet b (b.receiver client filter).2 := by
  rw [Broker.receiver]
  split
  next => exact refl b
  next =>
    split
    · exact listening b client _
    · exact refl b

theorem take (b : Broker) (box : Nat) : Quiet b (b.perform (.take box)) := by
  rw [perform]
  cases ht : b.mailboxes.take? box with
  | none => exact refl b
  | some p =>
    obtain ⟨d, m⟩ := p
    obtain ⟨hself, hother, -, -, hlength⟩ := Mailboxes.take?_eq_some ht
    refine mailboxes b hlength fun k => ?_
    by_cases hk : k = box
    · rw [hk, hself]
      exact List.suffix_cons ..
    · exact (hother k hk).symm ▸ List.suffix_rfl

theorem close (b : Broker) (box : Nat) : Quiet b (b.perform (.close box)) := by
  refine mailboxes b (List.length_modify ..) fun k => ?_
  rw [Mailboxes.waiting_dropReader]
  split
  · exact List.nil_suffix
  · exact List.suffix_rfl

end Quiet

theorem connect_frame (b : Broker) (client : String) :
    (b.Sound → (b.connect client).Sound) ∧
      (∀ owed, b.Balanced owed → (b.connect client).Balanced (Function.update owed client [])) ∧
      (b.connect client).acks = b.acks ∧ (b.connect client).held = b.held ∧
      ∀ k, (b.connect client).mailboxes.waiting k = b.mailboxes.waiting k := by
  rw [connect]
  split
  next old _ =>
    refine ⟨fun hb => ?_, fun owed hb p' hp' => ?_, rfl, rfl,
      Mailboxes.waiting_dropSenders _ old.receivers⟩
    · exact (Quiet.dropSenders _ old.receivers).sound
        (hb.modifySession client fun _ => List.nil_sublist _)
    · obtain ⟨p, hp, rfl⟩ := exists_of_mem_modifySession (f := fun _ => {}) hp'
      dsimp only
      split
      next heq =>
        rw [heq, Function.update_self]
        exact ⟨rfl, rfl⟩
      next hne =>
        rw [Function.update_of_ne hne]
        exact hb p hp
  next hnone =>
    have hnew : client ∉ b.sessions.map Prod.fst := Association.notMem_keys_of_lookup hnone
    refine ⟨fun hb => ?_, fun owed hb p' hp' => ?_, rfl, rfl, fun _ => rfl⟩
    · refine hb.of_sublist ?_ (fun p' hp' => ?_) le_rfl hb.acknowledged_lt
      · rw [List.map_append]
        exact List.nodup_append'.mpr ⟨hb.nodup_clients, List.nodup_singleton _,
          List.disjoint_singleton.mpr hnew⟩
      · obtain hp | hp := List.mem_append.mp hp'
        · exact .inr ⟨p', hp, rfl, .refl _⟩
        · rw [List.mem_singleton.mp hp]
          exact .inl rfl
    · obtain hp | hp := List.mem_append.mp hp'
      · have hne : p'.1 ≠ client := fun heq => hnew (heq ▸ List.mem_map_of_mem hp)
        rw [Function.update_of_ne hne]
        exact hb p' hp
      · rw [List.mem_singleton.mp hp, Function.update_self]
        exact ⟨rfl, rfl⟩

theorem exists_mem_of_forall₂ {α β : Type} {R : α → β → Prop} {xs : List α} {ys : List β} {y : β}
    (h : List.Forall₂ R xs ys) (hy : y ∈ ys) : ∃ x ∈ xs, R x y := by
  induction h with
  | nil => cases hy
  | cons hxy _ ih =>
    obtain rfl | hy := List.mem_cons.mp hy
    · exact ⟨_, List.mem_cons_self, hxy⟩
    · obtain ⟨x, hx, hxy⟩ := ih hy
      exact ⟨x, List.mem_cons_of_mem _ hx, hxy⟩

theorem Sound.of_forall₂ (h : b.Sound)
    (hs : List.Forall₂ (fun p p' => p'.1 = p.1 ∧ p'.2.boxes.Sublist p.2.boxes)
      b.sessions b'.sessions)
    (hlength : b'.mailboxes.boxes.length = b.mailboxes.boxes.length)
    (hacks : ∀ n ∈ b'.acks.acknowledged, n < b'.acks.issued) : b'.Sound := by
  refine h.of_sublist ?_ (fun p' hp' => .inr ?_) hlength.ge hacks
  · have hclients : b'.sessions.map Prod.fst = b.sessions.map Prod.fst := by
      rw [← List.forall₂_eq_eq_eq, List.forall₂_map_left_iff, List.forall₂_map_right_iff]
      exact hs.flip.imp fun _ _ hp => hp.1
    rw [hclients]
    exact h.nodup_clients
  · obtain ⟨p, hp, hpe, hsub⟩ := exists_mem_of_forall₂ hs hp'
    exact ⟨p, hp, hpe.symm, hsub⟩

theorem SameListener.boxes_eq {p p' : String × Session} (h : SameListener p p') :
    p'.2.boxes = p.2.boxes :=
  congrArg (List.map Prod.snd) h.2.2

theorem Sound.acknowledge (h : b.Sound) {token : AckToken}
    (ht : ∀ n ∈ token.messages, n < b.acks.issued) : (b.acknowledge token).Sound := by
  obtain ⟨hm, hi, ha, hs⟩ := acknowledgeAll_frame [token] b
  refine h.of_forall₂ (hs.imp fun p p' hp => ⟨hp.1.1, hp.boxes_eq ▸ .refl _⟩) rfl fun n hn => ?_
  obtain hn | ⟨t, htoken, hn⟩ := (ha n).mp hn
  · exact h.acknowledged_lt n hn
  · rw [List.mem_singleton.mp htoken] at hn
    exact ht n hn

theorem issued_route (h : b.Sound) (m : Message) :
    (b.route m).2.acks.issued = b.acks.issued + (packetIds (b.handouts m)).length :=
  (route_frame b m).2.1.trans (h.passes m).issued_eq

theorem Sound.route (h : b.Sound) (m : Message) : (b.route m).2.Sound := by
  have hpasses := h.passes m
  have hkept (p : String × Session) :
      (passed m b.mailboxes (b.handouts m) p).2.boxes.Sublist p.2.boxes := by
    rw [passed, Session.boxes]
    dsimp only
    split
    · exact List.filter_sublist.map _
    · exact .refl _
  have hlength : (b.route m).2.mailboxes.boxes.length = b.mailboxes.boxes.length := by
    rw [(route_frame b m).1]
    exact hpasses.length_eq
  refine h.of_forall₂ ((h.sessions_route m).imp fun p p' hp =>
    ⟨hp.1.1, hp.boxes_eq ▸ hkept p⟩) hlength fun n hn => ?_
  rw [issued_route h]
  obtain hn | ⟨handout, hh, -, hn⟩ := ((h.routed m).mem_acknowledged_iff n).mp hn
  · exact (h.acknowledged_lt n hn).trans_le (Nat.le_add_right _ _)
  · have hmem : n ∈ packetIds (b.handouts m) := List.mem_flatMap.mpr ⟨handout, hh, hn⟩
    rw [hpasses.packetIds_eq] at hmem
    exact (List.mem_range'_1.mp hmem).2

theorem held_acknowledgeAll (tokens : List AckToken) (b : Broker) :
    (tokens.foldl acknowledge b).held = b.held := by
  induction tokens generalizing b with
  | nil => rfl
  | cons token rest ih => exact ih (b.acknowledge token)

theorem held_route (b : Broker) (m : Message) : (b.route m).2.held = b.held :=
  held_acknowledgeAll ..

theorem publish_cases (b : Broker) (client : String) (m : Message) :
    (∃ e, b.publish client m = (.error e, b)) ∨
      b.holding.elim false (·.accepts m.topic) = true ∧
        b.publish client m = (.ok .success, { b with held := b.held ++ [m] }) ∨
      b.holding.elim false (·.accepts m.topic) = false ∧
        b.publish client m = (.ok (b.route m).1, (b.route m).2) := by
  rw [publish]
  split
  · exact .inl ⟨_, rfl⟩
  · dsimp only
    split
    next => exact .inl ⟨_, rfl⟩
    next =>
      cases hh : b.holding.elim false (·.accepts m.topic) with
      | true => exact .inr (.inl ⟨rfl, rfl⟩)
      | false => exact .inr (.inr ⟨rfl, rfl⟩)

theorem acknowledged_perform_subset (b : Broker) (a : Act) :
    b.acks.acknowledged ⊆ (b.perform a).acks.acknowledged := by
  have hquiet {b' : Broker} (h : Quiet b b') :
      b.acks.acknowledged ⊆ b'.acks.acknowledged := by
    rw [h.acks_eq]
    exact List.Subset.refl _
  cases a with
  | connect client =>
    rw [perform, (connect_frame b client).2.2.1]
    exact List.Subset.refl _
  | disconnect client => exact hquiet (.disconnect ..)
  | subscribe => exact hquiet (.subscribe ..)
  | unsubscribe => exact hquiet (.unsubscribe ..)
  | receiver => exact hquiet (.receiver ..)
  | publish client m => exact acknowledged_publish_subset b client m
  | hold => exact hquiet (.hold ..)
  | release reverse =>
    rw [perform, release]
    generalize (if reverse = true then b.held.reverse else b.held) = held
    have hrouted : ∀ b : Broker, b.acks.acknowledged ⊆
        (held.foldl (fun b m => (b.route m).2) b).acks.acknowledged := by
      induction held with
      | nil => exact fun b => List.Subset.refl _
      | cons m rest ih =>
        exact fun b => List.Subset.trans (acknowledged_route_subset b m) (ih _)
    exact hrouted { b with holding := none, held := [] }
  | dropHeld => exact List.Subset.refl _
  | acknowledge token => exact acknowledged_acknowledge_subset b token
  | take box => exact hquiet (.take ..)
  | close box => exact hquiet (.close ..)

theorem messages_subset_acknowledged {past : List Act} {token : AckToken}
    (h : .acknowledge token ∈ past) :
    token.messages ⊆ (b.after past).acks.acknowledged := by
  induction past with
  | nil => cases h
  | cons a past ih =>
    obtain rfl | h := List.mem_cons.mp h
    · exact fun n hn => AckLedger.mem_acknowledge.mpr (.inr hn)
    · exact List.Subset.trans (ih h) (acknowledged_perform_subset _ a)

end Broker

end CommandBus
