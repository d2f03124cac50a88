import CommandBus.Proofs.Association
import CommandBus.Proofs.Chunk.Alongside
import Mathlib

namespace CommandBus

namespace QoS

theorem level_injective : Function.Injective level := by
  intro a b h
  cases a <;> cases b <;> first | rfl | cases h

theorem le_greater (a b : QoS) :
    a.level ≤ (a.greater b).level ∧ b.level ≤ (a.greater b).level := by
  rw [greater]
  split <;> omega

theorem greater_cases (a b : QoS) : a.greater b = a ∨ a.greater b = b := by
  rw [greater]
  split
  · exact .inr rfl
  · exact .inl rfl

end QoS

namespace Session

def boxes (s : Session) : List Nat :=
  s.receivers.map Prod.snd

/-- The client is connected, and `q` is the greatest quality of service among its subscriptions that
match the topic. -/
structure Hears (s : Session) (topic : String) (q : QoS) : Prop where
  isConnected : s.connected = true
  exists_subscription : ∃ f, (f, q) ∈ s.subscriptions ∧ f.accepts topic = true
  greatest : ∀ f q', (f, q') ∈ s.subscriptions → f.accepts topic = true → q'.level ≤ q.level

/-- At which quality of service a client gets messages on a topic, if it does. -/
def hears? (s : Session) (topic : String) : Option QoS :=
  if s.connected = true then s.qosFor? topic else none

variable {s : Session} {topic : String} {q : QoS}

theorem Hears.unique {q' : QoS} (h : s.Hears topic q) (h' : s.Hears topic q') : q' = q := by
  obtain ⟨f, hf, ha⟩ := h.exists_subscription
  obtain ⟨f', hf', ha'⟩ := h'.exists_subscription
  exact QoS.level_injective ((h.greatest f' q' hf' ha').antisymm (h'.greatest f q hf ha))

theorem foldl_greater (first : QoS) (rest : List (Filter × QoS)) :
    (rest.foldl (fun q (_, next) => q.greater next) first = first ∨
      ∃ f, (f, rest.foldl (fun q (_, next) => q.greater next) first) ∈ rest) ∧
    first.level ≤ (rest.foldl (fun q (_, next) => q.greater next) first).level ∧
    ∀ p ∈ rest, p.2.level ≤ (rest.foldl (fun q (_, next) => q.greater next) first).level := by
  induction rest generalizing first with
  | nil => exact ⟨.inl rfl, le_rfl, fun _ hp => absurd hp List.not_mem_nil⟩
  | cons p rest ih =>
    obtain ⟨f, next⟩ := p
    obtain ⟨hmem, hle, hall⟩ := ih (first.greater next)
    obtain ⟨hfirst, hnext⟩ := first.le_greater next
    rw [List.foldl_cons]
    refine ⟨?_, hfirst.trans hle, List.forall_mem_cons.mpr ⟨hnext.trans hle, hall⟩⟩
    obtain heq | ⟨f', hf'⟩ := hmem
    · obtain hg | hg := first.greater_cases next
      · exact .inl (heq.trans hg)
      · exact .inr ⟨f, List.mem_cons.mpr (.inl (Prod.ext rfl (heq.trans hg)))⟩
    · exact .inr ⟨f', List.mem_cons_of_mem _ hf'⟩

theorem hears_of_hears? (h : s.hears? topic = some q) : s.Hears topic q := by
  rw [hears?, Option.ite_none_right_eq_some] at h
  obtain ⟨hc, hq⟩ := h
  rw [qosFor?] at hq
  split at hq
  next => cases hq
  next f first rest hfilter =>
    obtain rfl := Option.some.inj hq
    obtain ⟨hmem, hle, hall⟩ := foldl_greater first rest
    have hmatch (p : Filter × QoS) :
        p ∈ s.subscriptions ∧ p.1.accepts topic = true ↔ p = (f, first) ∨ p ∈ rest := by
      rw [← List.mem_cons, ← hfilter, List.mem_filter]
    refine ⟨hc, ?_, fun f' q' hs ha => ?_⟩
    · obtain heq | ⟨f', hf'⟩ := hmem
      · rw [heq]
        exact ⟨f, (hmatch (f, first)).mpr (.inl rfl)⟩
      · exact ⟨f', (hmatch (f', _)).mpr (.inr hf')⟩
    · obtain heq | hr := (hmatch (f', q')).mp ⟨hs, ha⟩
      · obtain ⟨-, rfl⟩ := Prod.mk.inj heq
        exact hle
      · exact hall _ hr

theorem hears?_eq_some_iff : s.hears? topic = some q ↔ s.Hears topic q := by
  refine ⟨hears_of_hears?, fun h => ?_⟩
  cases hq : s.hears? topic with
  | some q' => rw [h.unique (hears_of_hears? hq)]
  | none =>
    obtain ⟨f, hf, ha⟩ := h.exists_subscription
    rw [hears?, if_pos h.isConnected, qosFor?] at hq
    split at hq
    next hfilter =>
      exact absurd ha (List.filter_eq_nil_iff.mp hfilter (f, q) hf)
    next => cases hq

end Session

namespace Mailboxes

variable {m m' : Mailboxes} {receivers : Receivers} {k : Nat}

theorem takers_congr (h : ∀ k, m'.hasReader k = m.hasReader k) (receivers : Receivers)
    (topic : String) : m'.takers receivers topic = m.takers receivers topic :=
  List.filter_congr fun r _ => h r.2

theorem mem_takers {r : Filter × Nat} {topic : String} : r ∈ m.takers receivers topic ↔
    r ∈ receivers ∧ r.1.accepts topic = true ∧ m.hasReader r.2 = true := by
  rw [takers, List.mem_filter, List.mem_filter, and_assoc]

theorem waiting_deliver_of_nodup (h : (receivers.map Prod.snd).Nodup) (m : Mailboxes)
    (d : Delivery) (k : Nat) :
    (m.deliver receivers d).2.2.waiting k = m.waiting k ++
      if k ∈ (m.takers receivers d.message.topic).map Prod.snd then [d] else [] := by
  have hnodup : ((m.takers receivers d.message.topic).map Prod.snd).Nodup :=
    h.sublist ((List.filter_sublist.trans List.filter_sublist).map Prod.snd)
  by_cases hk : k < m.boxes.length
  · rw [waiting_deliver hk, hnodup.count]
    split <;> rfl
  · have hnot : k ∉ (m.takers receivers d.message.topic).map Prod.snd := by
      intro hmem
      obtain ⟨r, hr, rfl⟩ := List.mem_map.mp hmem
      exact hk (lt_length_of_hasReader (mem_takers.mp hr).2.2)
    have hk := Nat.le_of_not_lt hk
    rw [if_neg hnot, List.append_nil, waiting_of_length_le hk,
      waiting_of_length_le (by rwa [length_deliver])]

end Mailboxes

namespace Broker

/-- What a client gets of a message that is routed, and the mailboxes that it goes into. -/
structure Handout where
  client : String
  boxes : List Nat
  delivery : Delivery

def packetIds (hs : List Handout) : List Nat :=
  hs.flatMap (·.delivery.ack.messages)

def handedTo (client : String) (hs : List Handout) : List Handout :=
  hs.filter (·.client = client)

def sentTo (box : Nat) (hs : List Handout) : List Delivery :=
  (hs.filter (box ∈ ·.boxes)).map (·.delivery)

theorem packetIds_append (hs hs' : List Handout) :
    packetIds (hs ++ hs') = packetIds hs ++ packetIds hs' :=
  List.flatMap_append

theorem packetIds_handedTo_sublist (client : String) (hs : List Handout) :
    (packetIds (handedTo client hs)).Sublist (packetIds hs) :=
  List.filter_sublist.flatMap _

theorem sentTo_append (k : Nat) (hs hs' : List Handout) :
    sentTo k (hs ++ hs') = sentTo k hs ++ sentTo k hs' := by
  rw [sentTo, List.filter_append, List.map_append, sentTo, sentTo]

/-- What a client gets of a message that it hears at quality of service `q`. -/
def packet (acks : AckLedger) (m : Message) (q : QoS) : Delivery :=
  ⟨{ m with qos := m.qos.lesser q }, (stamped acks { m with qos := m.qos.lesser q }).1⟩

theorem eq_packet {acks : AckLedger} {m : Message} {q : QoS} {d : Delivery}
    (hm : d.message = { m with qos := m.qos.lesser q })
    (hack : d.ack = (stamped acks d.message).1) : d = packet acks m q := by
  rw [hm] at hack
  obtain ⟨message, ack⟩ := d
  exact congrArg₂ Delivery.mk hm hack

def handoutsFrom (m : Message) (mailboxes : Mailboxes) :
    AckLedger → List (String × Session) → List Handout
  | _, [] => []
  | acks, (id, s) :: rest =>
    match s.hears? m.topic with
    | none => handoutsFrom m mailboxes acks rest
    | some q =>
      let d := packet acks m q
      ⟨id, (mailboxes.takers s.receivers m.topic).map Prod.snd, d⟩ ::
        handoutsFrom m mailboxes (stamped acks d.message).2 rest

def handouts (b : Broker) (m : Message) : List Handout :=
  handoutsFrom m b.mailboxes b.acks b.sessions

/-- A session once a message has gone through: receivers that nobody reads any more are gone, and
the packets handed out are unacknowledged. -/
def passed (m : Message) (mailboxes : Mailboxes) (hs : List Handout) (p : String × Session) :
    String × Session :=
  (p.1, { p.2 with
    receivers :=
      if (p.2.hears? m.topic).isSome = true then
        p.2.receivers.filter fun (f, id) => !f.accepts m.topic || mailboxes.hasReader id
      else p.2.receivers
    unacked := p.2.unacked ++ packetIds (handedTo p.1 hs) })

variable {m : Message} {mailboxes : Mailboxes} {acks : AckLedger}
  {sessions : List (String × Session)} {h : Handout}

theorem client_mem_keys (hh : h ∈ handoutsFrom m mailboxes acks sessions) :
    h.client ∈ sessions.map Prod.fst := by
  induction sessions generalizing acks with
  | nil => cases hh
  | cons p rest ih =>
    obtain ⟨id, s⟩ := p
    rw [handoutsFrom] at hh
    split at hh
    next => exact List.mem_cons_of_mem _ (ih hh)
    next =>
      obtain rfl | hh := List.mem_cons.mp hh
      · exact List.mem_cons_self
      · exact List.mem_cons_of_mem _ (ih hh)

theorem handedTo_eq_nil {client : String} (hc : client ∉ sessions.map Prod.fst) :
    handedTo client (handoutsFrom m mailboxes acks sessions) = [] :=
  List.filter_eq_nil_iff.mpr fun _ hh heq => hc (of_decide_eq_true heq ▸ client_mem_keys hh)

theorem stamped_messages (acks : AckLedger) (m : Message) :
    (stamped acks m).1.messages = List.range' acks.issued (stamped acks m).1.messages.length ∧
      (stamped acks m).2.issued = acks.issued + (stamped acks m).1.messages.length := by
  rw [stamped]
  split
  · exact ⟨rfl, rfl⟩
  · exact ⟨rfl, rfl⟩

/-- How a message goes through sessions, from one state of routing to another. -/
structure Passes (m : Message) (mailboxes : Mailboxes) (sessions : List (String × Session))
    (hs : List Handout) (r r' : Routing) : Prop where
  acknowledged_eq : r'.acks.acknowledged = r.acks.acknowledged
  issued_eq : r'.acks.issued = r.acks.issued + (packetIds hs).length
  packetIds_eq : packetIds hs = List.range' r.acks.issued (packetIds hs).length
  waiting_eq : ∀ k, r'.mailboxes.waiting k = r.mailboxes.waiting k ++ sentTo k hs
  length_eq : r'.mailboxes.boxes.length = r.mailboxes.boxes.length
  unclaimed_eq : r'.unclaimed =
    r.unclaimed ++ (hs.filter (·.boxes = [])).map (·.delivery.ack)
  sessions_eq : r'.sessions = r.sessions ++ sessions.map (passed m mailboxes hs)

section Sessions

variable {id : String} {s : Session} {rest : List (String × Session)} {r r' : Routing}
  {hs : List Handout}

theorem map_passed_cons (hid : h.client ∉ rest.map Prod.fst) :
    rest.map (passed m mailboxes (h :: hs)) = rest.map (passed m mailboxes hs) := by
  refine List.map_congr_left fun p hp => ?_
  have hne : h.client ≠ p.1 := fun heq => hid (heq ▸ List.mem_map_of_mem hp)
  rw [passed, handedTo, List.filter_cons_of_neg (by simpa using hne)]
  rfl

/-- A session that gets the message has one more packet to acknowledge, and of its receivers those
that match and are not read are gone. -/
theorem passed_cons_self {boxes : List Nat} {d : Delivery} (hid : id ∉ rest.map Prod.fst)
    (hq : (s.hears? m.topic).isSome = true) :
    passed m mailboxes (⟨id, boxes, d⟩ :: handoutsFrom m mailboxes acks rest) (id, s) =
      (id, { s with
        receivers := s.receivers.filter fun (f, id) => !f.accepts m.topic || mailboxes.hasReader id
        unacked := s.unacked ++ d.ack.messages }) := by
  have hpackets : packetIds (handedTo id
      (⟨id, boxes, d⟩ :: handoutsFrom m mailboxes acks rest)) = d.ack.messages := by
    rw [handedTo, List.filter_cons_of_pos (by simp), ← handedTo, handedTo_eq_nil hid]
    simp [packetIds]
  rw [passed, if_pos hq, hpackets]

theorem Passes.skip (hid : id ∉ rest.map Prod.fst) (hq : s.hears? m.topic = none)
    (hs' : hs = handoutsFrom m mailboxes r.acks rest)
    (h : Passes m mailboxes rest hs { r with sessions := r.sessions ++ [(id, s)] } r') :
    Passes m mailboxes ((id, s) :: rest) hs r r' := by
  refine { h with sessions_eq := ?_ }
  have hself : passed m mailboxes hs (id, s) = (id, s) := by
    rw [passed, hs', handedTo_eq_nil hid, hq]
    simp [packetIds]
  rw [h.sessions_eq, List.map_cons, hself, List.append_assoc, List.singleton_append]

theorem Passes.give {d : Delivery} (hid : id ∉ rest.map Prod.fst)
    (hq : (s.hears? m.topic).isSome = true) (hd : d.message.topic = m.topic)
    (hack : d.ack = (stamped r.acks d.message).1) (hboxes : s.boxes.Nodup)
    (hreader : ∀ k, r.mailboxes.hasReader k = mailboxes.hasReader k)
    (hs' : hs = handoutsFrom m mailboxes (stamped r.acks d.message).2 rest)
    (h : Passes m mailboxes rest hs
      { ({ r with acks := (stamped r.acks d.message).2 } : Routing).handed
          (r.mailboxes.deliver s.receivers d).2.2 (r.mailboxes.deliver s.receivers d).1 d.ack with
        sessions := r.sessions ++
          [(id, { s with
            receivers := (r.mailboxes.deliver s.receivers d).2.1
            unacked := s.unacked ++ d.ack.messages })]
        isMatched := true } r') :
    Passes m mailboxes ((id, s) :: rest)
      (⟨id, (mailboxes.takers s.receivers m.topic).map Prod.snd, d⟩ :: hs) r r' := by
  obtain ⟨hmessages, hissued⟩ := stamped_messages r.acks d.message
  rw [← hack] at hmessages hissued
  have htakers : r.mailboxes.takers s.receivers d.message.topic =
      mailboxes.takers s.receivers m.topic := by
    rw [hd, Mailboxes.takers_congr hreader]
  have hids : packetIds (⟨id, (mailboxes.takers s.receivers m.topic).map Prod.snd, d⟩ :: hs) =
      d.ack.messages ++ packetIds hs := List.flatMap_cons
  refine ⟨h.acknowledged_eq.trans (stamped_frame ..), ?_, ?_, fun k => ?_, ?_, ?_, ?_⟩
  · rw [h.issued_eq, hids, List.length_append]
    simp only [Routing.handed, hissued]
    omega
  · have hnext := h.packetIds_eq
    simp only [Routing.handed, hissued] at hnext
    rw [hids, List.length_append, ← List.range'_append_1, ← hmessages, ← hnext]
  · rw [h.waiting_eq]
    simp only [Routing.handed]
    rw [Mailboxes.waiting_deliver_of_nodup hboxes, htakers, List.append_assoc, sentTo, sentTo,
      List.filter_cons]
    split <;> simp [*]
  · exact h.length_eq.trans (Mailboxes.length_deliver ..)
  · have hreached : (r.mailboxes.deliver s.receivers d).1 =
        !(mailboxes.takers s.receivers m.topic).isEmpty := by
      rw [← htakers]
      rfl
    rw [h.unclaimed_eq]
    simp only [Routing.handed, hreached, List.filter_cons, List.map_eq_nil_iff]
    cases mailboxes.takers s.receivers m.topic <;> simp
  · have hleft : (r.mailboxes.deliver s.receivers d).2.1 =
        s.receivers.filter fun (f, id) => !f.accepts m.topic || mailboxes.hasReader id := by
      simp only [Mailboxes.deliver, hd, hreader]
    rw [h.sessions_eq, List.map_cons, hs', passed_cons_self hid hq, ← hleft, map_passed_cons hid,
      List.append_assoc, List.singleton_append]

end Sessions

theorem passes_routeTo {r : Routing} (hacks : r.acks = acks)
    (hkeys : (sessions.map Prod.fst).Nodup) (hboxes : ∀ p ∈ sessions, p.2.boxes.Nodup)
    (hreader : ∀ k, r.mailboxes.hasReader k = mailboxes.hasReader k) :
    Passes m mailboxes sessions (handoutsFrom m mailboxes acks sessions) r
      (sessions.foldl (routeTo m) r) := by
  -- Each session goes on from where those before it left the ledger and the mailboxes, so the
  -- induction is over every state of routing; only who still reads stays the same throughout.
  induction sessions generalizing r acks with
  | nil =>
    exact ⟨rfl, rfl, rfl, fun k => (List.append_nil _).symm, rfl,
      (List.append_nil _).symm, (List.append_nil _).symm⟩
  | cons p rest ih =>
    subst hacks
    obtain ⟨id, s⟩ := p
    obtain ⟨hid, hkeys⟩ := List.nodup_cons.mp hkeys
    obtain ⟨hs, hboxes⟩ := List.forall_mem_cons.mp hboxes
    rw [List.foldl_cons]
    cases hq : s.hears? m.topic with
    | none =>
      rw [routeTo_of_none r hq]
      simp only [handoutsFrom, hq]
      exact .skip hid hq rfl (ih rfl hkeys hboxes hreader)
    | some q =>
      obtain ⟨d, hm, hack, heq⟩ := routeTo_of_some r hq
      obtain rfl := eq_packet hm hack
      rw [heq]
      simp only [handoutsFrom, hq]
      refine .give hid (hq ▸ rfl) rfl hack hs hreader rfl (ih rfl hkeys hboxes fun k => ?_)
      exact (Mailboxes.hasReader_deliver ..).trans (hreader k)

/-- No two sessions are of one client, and no two receivers have one mailbox. -/
structure Sound (b : Broker) : Prop where
  nodup_clients : (b.sessions.map Prod.fst).Nodup
  nodup_boxes : ∀ p ∈ b.sessions, p.2.boxes.Nodup
  client_eq : ∀ p ∈ b.sessions, ∀ q ∈ b.sessions, ∀ k ∈ p.2.boxes, k ∈ q.2.boxes → p.1 = q.1
  boxes_lt : ∀ p ∈ b.sessions, ∀ k ∈ p.2.boxes, k < b.mailboxes.boxes.length
  acknowledged_lt : ∀ n ∈ b.acks.acknowledged, n < b.acks.issued

theorem Sound.of_sublist {b b' : Broker} (h : b.Sound)
    (hclients : (b'.sessions.map Prod.fst).Nodup)
    (hboxes : ∀ p' ∈ b'.sessions, p'.2.boxes = [] ∨
      ∃ p ∈ b.sessions, p.1 = p'.1 ∧ p'.2.boxes.Sublist p.2.boxes)
    (hlength : b.mailboxes.boxes.length ≤ b'.mailboxes.boxes.length)
    (hacks : ∀ n ∈ b'.acks.acknowledged, n < b'.acks.issued) : b'.Sound where
  nodup_clients := hclients
  nodup_boxes p' hp' := by
    obtain hnil | ⟨p, hp, -, hsub⟩ := hboxes p' hp'
    · rw [hnil]
      exact List.nodup_nil
    · exact (h.nodup_boxes p hp).sublist hsub
  client_eq p' hp' q' hq' k hk hk' := by
    obtain hnil | ⟨p, hp, hpe, hsub⟩ := hboxes p' hp'
    · rw [hnil] at hk
      cases hk
    obtain hnil | ⟨q, hq, hqe, hsub'⟩ := hboxes q' hq'
    · rw [hnil] at hk'
      cases hk'
    rw [← hpe, ← hqe]
    exact h.client_eq p hp q hq k (hsub.subset hk) (hsub'.subset hk')
  boxes_lt p' hp' k hk := by
    obtain hnil | ⟨p, hp, -, hsub⟩ := hboxes p' hp'
    · rw [hnil] at hk
      cases hk
    · exact (h.boxes_lt p hp k (hsub.subset hk)).trans_le hlength
  acknowledged_lt := hacks

/-- What comes of a message: every client that hears it gets it once, at the quality of service at
which the client hears it if that is less, and finds it once in the mailbox of each receiver that
matches and is still read. If there is none, the packet counts as acknowledged. -/
structure Routed (b : Broker) (m : Message) (b' : Broker) (hs : List Handout) : Prop where
  nodup_clients : (hs.map (·.client)).Nodup
  exists_handout : ∀ client s q, b.session? client = some s → s.Hears m.topic q →
    ∃ h ∈ hs, h.client = client
  handout : ∀ h ∈ hs, ∃ s q, b.session? h.client = some s ∧ s.Hears m.topic q ∧
    h.delivery.message = { m with qos := m.qos.lesser q } ∧ s.boxes.Nodup ∧
    ∀ k, k ∈ h.boxes ↔ ∃ f, (f, k) ∈ s.receivers ∧ f.accepts m.topic = true ∧
      b.mailboxes.hasReader k = true
  waiting_eq : ∀ h ∈ hs, ∀ k ∈ h.boxes,
    b'.mailboxes.waiting k = b.mailboxes.waiting k ++ [h.delivery]
  waiting_of_notMem : ∀ k, (∀ h ∈ hs, k ∉ h.boxes) →
    b'.mailboxes.waiting k = b.mailboxes.waiting k
  receivers_kept : ∀ client s, b.session? client = some s → ∃ s', b'.session? client = some s' ∧
    s'.connected = s.connected ∧ s'.subscriptions = s.subscriptions ∧
    ∀ r ∈ s.receivers, b.mailboxes.hasReader r.2 = true → r ∈ s'.receivers
  length_messages : ∀ h ∈ hs, h.delivery.ack.messages.length =
    if h.delivery.message.qos = .atMostOnce then 0 else 1
  mem_acknowledged_iff : ∀ n, n ∈ b'.acks.acknowledged ↔
    n ∈ b.acks.acknowledged ∨ ∃ h ∈ hs, h.boxes = [] ∧ n ∈ h.delivery.ack.messages

theorem length_stamped (acks : AckLedger) (m : Message) :
    (stamped acks m).1.messages.length = if m.qos = .atMostOnce then 0 else 1 := by
  rw [stamped]
  split <;> rfl

theorem exists_session (hh : h ∈ handoutsFrom m mailboxes acks sessions) :
    ∃ s q, (h.client, s) ∈ sessions ∧ s.hears? m.topic = some q ∧
      h.delivery.message = { m with qos := m.qos.lesser q } ∧
      h.boxes = (mailboxes.takers s.receivers m.topic).map Prod.snd ∧
      h.delivery.ack.messages.length =
        if h.delivery.message.qos = .atMostOnce then 0 else 1 := by
  induction sessions generalizing acks with
  | nil => cases hh
  | cons p rest ih =>
    obtain ⟨id, s⟩ := p
    rw [handoutsFrom] at hh
    split at hh
    next => exact (ih hh).imp fun _ => .imp fun _ => .imp_left (List.mem_cons_of_mem _)
    next q hq =>
      obtain rfl | hh := List.mem_cons.mp hh
      · exact ⟨s, q, List.mem_cons_self, hq, rfl, rfl, length_stamped ..⟩
      · exact (ih hh).imp fun _ => .imp fun _ => .imp_left (List.mem_cons_of_mem _)

theorem exists_handout {client : String} {s : Session} {q : QoS} (hs : (client, s) ∈ sessions)
    (hq : s.hears? m.topic = some q) :
    ∃ h ∈ handoutsFrom m mailboxes acks sessions, h.client = client := by
  induction sessions generalizing acks with
  | nil => cases hs
  | cons p rest ih =>
    obtain ⟨id, s'⟩ := p
    obtain heq | hs := List.mem_cons.mp hs
    · obtain ⟨rfl, rfl⟩ := Prod.mk.inj heq
      simp only [handoutsFrom, hq]
      exact ⟨_, List.mem_cons_self, rfl⟩
    · rw [handoutsFrom]
      split
      next => exact ih hs
      next =>
        obtain ⟨h, hh, heq⟩ := ih hs
        exact ⟨h, List.mem_cons_of_mem _ hh, heq⟩

theorem clients_sublist (m : Message) (mailboxes : Mailboxes) (acks : AckLedger)
    (sessions : List (String × Session)) :
    ((handoutsFrom m mailboxes acks sessions).map (·.client)).Sublist (sessions.map Prod.fst) := by
  induction sessions generalizing acks with
  | nil => exact List.Sublist.slnil
  | cons p rest ih =>
    obtain ⟨id, s⟩ := p
    rw [handoutsFrom]
    split
    next => exact (ih acks).cons id
    next => exact (ih _).cons_cons id

section Route

variable {b : Broker} {k : Nat}

theorem Sound.passes (h : b.Sound) (m : Message) :
    Passes m b.mailboxes b.sessions (b.handouts m) b.asRouting (b.routing m) :=
  passes_routeTo rfl h.nodup_clients h.nodup_boxes fun _ => rfl

theorem Sound.sessions_route (h : b.Sound) (m : Message) :
    List.Forall₂ (fun p p' => SameListener (passed m b.mailboxes (b.handouts m) p) p')
      b.sessions (b.route m).2.sessions := by
  obtain ⟨-, -, -, hsessions⟩ := route_frame b m
  rw [(h.passes m).sessions_eq] at hsessions
  exact List.forall₂_map_left_iff.mp hsessions

theorem Sound.nodup_handouts (h : b.Sound) (m : Message) :
    ((b.handouts m).map (·.client)).Nodup :=
  h.nodup_clients.sublist (clients_sublist ..)

theorem Sound.sentTo_eq (hb : b.Sound) (hh : h ∈ b.handouts m) (hk : k ∈ h.boxes) :
    sentTo k (b.handouts m) = [h.delivery] := by
  -- Who else put something there would be the same client, and that has only this one handout.
  have hbox {h : Handout} (hh : h ∈ b.handouts m) (hk : k ∈ h.boxes) :
      ∃ s, (h.client, s) ∈ b.sessions ∧ k ∈ s.boxes := by
    obtain ⟨s, q, hs, -, -, hboxes, -⟩ := exists_session hh
    rw [hboxes] at hk
    obtain ⟨r, hr, rfl⟩ := List.mem_map.mp hk
    exact ⟨s, hs, List.mem_map_of_mem (Mailboxes.mem_takers.mp hr).1⟩
  have hnodup := hb.nodup_handouts m
  have hsame (h') (hh' : h' ∈ (b.handouts m).filter (k ∈ ·.boxes)) : h' = h := by
    obtain ⟨hh', hk'⟩ := List.mem_filter.mp hh'
    obtain ⟨s, hs, hks⟩ := hbox hh hk
    obtain ⟨s', hs', hks'⟩ := hbox hh' (of_decide_eq_true hk')
    exact List.inj_on_of_nodup_map hnodup hh' hh (hb.client_eq _ hs' _ hs k hks' hks)
  have hmem : h ∈ (b.handouts m).filter (k ∈ ·.boxes) :=
    List.mem_filter.mpr ⟨hh, decide_eq_true hk⟩
  have hfilter : (b.handouts m).filter (k ∈ ·.boxes) = [h] := by
    have hreplicate := List.eq_replicate_of_mem hsame
    have hn := (List.Nodup.of_map _ hnodup).filter (k ∈ ·.boxes)
    rw [hreplicate] at hn hmem
    rw [hreplicate, Nat.le_antisymm (List.nodup_replicate.mp hn)
      (Nat.pos_of_ne_zero (List.mem_replicate.mp hmem).1)]
    rfl
  rw [sentTo, hfilter]
  rfl

theorem Sound.routed (hb : b.Sound) (m : Message) :
    b.Routed m (b.route m).2 (b.handouts m) := by
  have hpasses := hb.passes m
  obtain ⟨hmailboxes, -, hacknowledged, -⟩ := route_frame b m
  have hwaiting (k : Nat) : (b.route m).2.mailboxes.waiting k =
      b.mailboxes.waiting k ++ sentTo k (b.handouts m) := by
    rw [hmailboxes]
    exact hpasses.waiting_eq k
  refine ⟨hb.nodup_handouts m, fun client s q hs hq => ?_, fun h hh => ?_, fun h hh k hk => ?_,
    fun k hk => ?_, fun client s hs => ?_, fun h hh => ?_, fun n => ?_⟩
  · exact exists_handout (Association.mem_of_lookup hs) (Session.hears?_eq_some_iff.mpr hq)
  · obtain ⟨s, q, hs, hq, hmessage, hboxes, -⟩ := exists_session hh
    refine ⟨s, q, Association.lookup_of_mem hb.nodup_clients hs,
      Session.hears?_eq_some_iff.mp hq, hmessage, hb.nodup_boxes _ hs, fun k => ?_⟩
    simp only [hboxes, List.mem_map, Prod.exists, exists_eq_right, Mailboxes.mem_takers]
  · rw [hwaiting, hb.sentTo_eq hh hk]
  · have hnone : (b.handouts m).filter (k ∈ ·.boxes) = [] :=
      List.filter_eq_nil_iff.mpr fun h hh hmem => hk h hh (of_decide_eq_true hmem)
    rw [hwaiting, sentTo, hnone]
    exact List.append_nil _
  · obtain ⟨s', hs', ⟨-, hc⟩, hsub, hr⟩ :=
      Association.lookup_of_forall₂ (hb.sessions_route m) (fun p p' hp => hp.1.1) hs
    refine ⟨s', hs', hc, hsub, fun r hrs hlive => ?_⟩
    rw [hr, passed]
    split
    · exact List.mem_filter.mpr ⟨hrs, by simp [hlive]⟩
    · exact hrs
  · obtain ⟨-, -, -, -, -, -, hlength⟩ := exists_session hh
    exact hlength
  · rw [hacknowledged, Routing.IsSettled, hpasses.acknowledged_eq, hpasses.unclaimed_eq]
    simp [asRouting, and_assoc]

end Route

end Broker

end CommandBus
