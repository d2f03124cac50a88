import CommandBus.Proofs.Chunk.Forwarding
import Mathlib

namespace CommandBus

open CommandBus.Filter (isReservedTopic)

namespace Broker

variable {front : Nat} {receivers : Receivers} {direct wrapped : Routing} {client : String}
  {p p' q q' : String × Session} {b b' : Broker} {m : Message}

def SameClient (p q : String × Session) : Prop :=
  q.1 = p.1 ∧ q.2.connected = p.2.connected

theorem isConnected_congr (h : List.Forall₂ SameClient b.sessions b'.sessions) (client : String) :
    b'.isConnected client = b.isConnected client := by
  rw [isConnected, isConnected, connected?, connected?, session?, session?]
  generalize b.sessions = sessions, b'.sessions = sessions' at h ⊢
  induction h with
  | nil => rfl
  | @cons p q rest rest' hpq _ ih =>
    obtain ⟨name, s⟩ := p
    obtain ⟨name', s'⟩ := q
    obtain ⟨hname, hc⟩ := hpq
    obtain rfl : name' = name := hname
    have hc : s'.connected = s.connected := hc
    rw [List.lookup_cons, List.lookup_cons]
    cases client == name' with
    | true =>
      simp only [Option.filter, hc]
      split <;> rfl
    | false => exact ih

theorem isConnected_modifySession (b : Broker) (client : String) {f : Session → Session}
    (hf : ∀ s, (f s).connected = s.connected) :
    (b.modifySession client f).isConnected = b.isConnected := by
  funext name
  apply isConnected_congr
  rw [modifySession, List.forall₂_map_right_iff, List.forall₂_same]
  intro p _
  refine ⟨rfl, ?_⟩
  dsimp only
  split
  · exact hf p.2
  · rfl

/-- The session of a client has receivers here and one mailbox in front of them there; all other
sessions are the same. -/
structure MirrorsSession (client : String) (front : Nat) (receivers : Receivers)
    (p p' : String × Session) : Prop where
  sameClient : SameClient p p'
  subscriptions_eq : p'.2.subscriptions = p.2.subscriptions
  listens : p.1 = client ∧ p.2.receivers = receivers ∧ p'.2.receivers = [(.everything, front)] ∨
    p.1 ≠ client ∧ p'.2.receivers = p.2.receivers ∧ ∀ r ∈ p.2.receivers, r.2 < front

def stamped (acks : AckLedger) (m : Message) : AckToken × AckLedger :=
  if m.qos = .atMostOnce then (.none, acks) else acks.issue

theorem stamped_frame (acks : AckLedger) (m : Message) :
    (stamped acks m).2.acknowledged = acks.acknowledged := by
  rw [stamped]
  split <;> rfl

theorem stamped_congr {acks acks' : AckLedger} (h : acks'.issued = acks.issued) (m : Message) :
    (stamped acks' m).1 = (stamped acks m).1 ∧
      (stamped acks' m).2.issued = (stamped acks m).2.issued := by
  rw [stamped, stamped]
  split
  · exact ⟨rfl, h⟩
  · exact ⟨congrArg (fun k => AckToken.mk [k]) h, congrArg (· + 1) h⟩

theorem Mirrors.stamped (h : Mirrors front receivers direct wrapped) (m : Message) :
    Mirrors front receivers { direct with acks := (Broker.stamped direct.acks m).2 }
      { wrapped with acks := (Broker.stamped wrapped.acks m).2 } where
  issued_eq := (stamped_congr h.issued_eq m).2
  aligned := h.aligned
  inRange := h.inRange
  pending := h.pending
  waits := h.waits
  settled_iff t := by
    have hsettled := h.settled_iff t
    simp only [Routing.IsSettled, stamped_frame] at hsettled ⊢
    exact hsettled

theorem routeTo_of_none {id : String} {s : Session} (r : Routing)
    (h : (if s.connected = true then s.qosFor? m.topic else none) = none) :
    routeTo m r (id, s) = { r with sessions := r.sessions ++ [(id, s)] } := by
  simp only [routeTo, h]

theorem routeTo_of_some {id : String} {s : Session} (r : Routing) {qos : QoS}
    (h : (if s.connected = true then s.qosFor? m.topic else none) = some qos) :
    ∃ d : Delivery, d.message = { m with qos := m.qos.lesser qos } ∧
      d.ack = (stamped r.acks d.message).1 ∧ routeTo m r (id, s) =
        { ({ r with acks := (stamped r.acks d.message).2 } : Routing).handed
            (r.mailboxes.deliver s.receivers d).2.2 (r.mailboxes.deliver s.receivers d).1 d.ack with
          sessions := r.sessions ++
            [(id, { s with
              receivers := (r.mailboxes.deliver s.receivers d).2.1
              unacked := s.unacked ++ d.ack.messages })]
          isMatched := true } := by
  simp only [routeTo, h]
  exact ⟨⟨_, _⟩, rfl, rfl, rfl⟩

theorem Mirrors.routeTo (h : Mirrors front receivers direct wrapped)
    (hs : MirrorsSession client front receivers p p')
    (hplain : m.userProperty? ChunkMetadata.key = none) :
    Mirrors front receivers (Broker.routeTo m direct p) (Broker.routeTo m wrapped p') ∧
      ∃ q q', (Broker.routeTo m direct p).sessions = direct.sessions ++ [q] ∧
        (Broker.routeTo m wrapped p').sessions = wrapped.sessions ++ [q'] ∧
        MirrorsSession client front receivers q q' ∧ SameClient p q := by
  obtain ⟨id, s⟩ := p
  obtain ⟨id', s'⟩ := p'
  have hwhole := hs
  obtain ⟨⟨hid, hc⟩, hsub, hlistens⟩ := hs
  have hqos : (if s'.connected = true then s'.qosFor? m.topic else none) =
      if s.connected = true then s.qosFor? m.topic else none := by
    have hc : s'.connected = s.connected := hc
    have hsub : s'.subscriptions = s.subscriptions := hsub
    rw [hc, Session.qosFor?, hsub, Session.qosFor?]
  cases hq : (if s.connected = true then s.qosFor? m.topic else none) with
  | none =>
    rw [routeTo_of_none _ hq, routeTo_of_none _ (hqos.trans hq)]
    exact ⟨h.congr rfl rfl rfl rfl (fun _ => .rfl) fun _ => .rfl, _, _, rfl, rfl, hwhole, rfl, rfl⟩
  | some qos =>
    obtain ⟨d, hm, hack, heq⟩ := routeTo_of_some direct hq
    obtain ⟨d', hm', hack', heq'⟩ := routeTo_of_some wrapped (hqos.trans hq)
    have hstamped := h.stamped d.message
    have hmessage : d'.message = d.message := hm'.trans hm.symm
    obtain rfl : d' = d := by
      have hack₂ : d'.ack = d.ack := by
        rw [hack', hack, hmessage, (stamped_congr h.issued_eq _).1]
      obtain ⟨message, ack⟩ := d
      obtain ⟨message', ack'⟩ := d'
      exact congrArg₂ Delivery.mk hmessage hack₂
    rw [heq, heq']
    obtain ⟨hid, hr, hr'⟩ | ⟨hid, hr, hr'⟩ := hlistens
    · have hr : s.receivers = receivers := hr
      have hr' : s'.receivers = [(.everything, front)] := hr'
      obtain ⟨hleft', hleft, harrives⟩ := hstamped.arrives (d := d') (by rw [hm]; exact hplain)
      rw [hr, hr']
      refine ⟨harrives.congr rfl rfl rfl rfl (fun _ => .rfl) fun _ => .rfl, _, _, rfl, rfl, ?_,
        rfl, rfl⟩
      exact ⟨⟨hwhole.sameClient.1, hc⟩, hsub, .inl ⟨hid, hleft, hleft'⟩⟩
    · have hr : s'.receivers = s.receivers := hr
      obtain ⟨hreached, hleft, helsewhere⟩ := hstamped.elsewhere hr' d'
      rw [hr]
      refine ⟨?_, _, _, rfl, rfl, ?_, rfl, rfl⟩
      · refine helsewhere.congr rfl rfl rfl rfl (fun _ => .rfl) fun _ => ?_
        rw [← hreached]
        exact .rfl
      · exact ⟨⟨hwhole.sameClient.1, hc⟩, hsub, .inr ⟨hid, hleft, fun r hr =>
          hr' r (List.mem_of_mem_filter hr)⟩⟩

theorem Mirrors.routeAll {sessions sessions' : List (String × Session)}
    (hs : List.Forall₂ (MirrorsSession client front receivers) sessions sessions')
    (h : Mirrors front receivers direct wrapped)
    (hplain : m.userProperty? ChunkMetadata.key = none) :
    Mirrors front receivers (sessions.foldl (Broker.routeTo m) direct)
        (sessions'.foldl (Broker.routeTo m) wrapped) ∧
      ∃ after after',
        (sessions.foldl (Broker.routeTo m) direct).sessions = direct.sessions ++ after ∧
        (sessions'.foldl (Broker.routeTo m) wrapped).sessions = wrapped.sessions ++ after' ∧
        List.Forall₂ (MirrorsSession client front receivers) after after' ∧
        List.Forall₂ SameClient sessions after := by
  induction hs generalizing direct wrapped with
  | nil => exact ⟨h, [], [], (List.append_nil _).symm, (List.append_nil _).symm, .nil, .nil⟩
  | cons hp _ ih =>
    obtain ⟨h₁, q, q', hq, hq', hmirrors, hsame⟩ := h.routeTo hp hplain
    obtain ⟨h₂, after, after', ha, ha', hmirrors', hsame'⟩ := ih h₁
    refine ⟨h₂, q :: after, q' :: after', ?_, ?_, .cons hmirrors hmirrors', .cons hsame hsame'⟩
    · rw [List.foldl_cons, ha, hq, List.append_assoc, List.singleton_append]
    · rw [List.foldl_cons, ha', hq', List.append_assoc, List.singleton_append]

def asRouting (b : Broker) : Routing where
  acks := b.acks
  mailboxes := b.mailboxes

def SameListener (p q : String × Session) : Prop :=
  SameClient p q ∧ q.2.subscriptions = p.2.subscriptions ∧ q.2.receivers = p.2.receivers

theorem SameListener.refl (p : String × Session) : SameListener p p :=
  ⟨⟨rfl, rfl⟩, rfl, rfl⟩

theorem SameListener.trans {r : String × Session} (h : SameListener p q)
    (h' : SameListener q r) : SameListener p r :=
  ⟨⟨h'.1.1.trans h.1.1, h'.1.2.trans h.1.2⟩, h'.2.1.trans h.2.1, h'.2.2.trans h.2.2⟩

theorem SameListener.settled (p : String × Session) (tokens : List Nat) :
    SameListener p (p.1, tokens.foldl Session.settle p.2) := by
  induction tokens generalizing p with
  | nil => exact .refl p
  | cons t rest ih =>
    obtain ⟨⟨-, hc⟩, hs, hr⟩ := ih (p.1, p.2.settle t)
    have hsettle : (p.2.settle t).connected = p.2.connected ∧
        (p.2.settle t).subscriptions = p.2.subscriptions ∧
        (p.2.settle t).receivers = p.2.receivers := by
      rw [Session.settle]
      split <;> exact ⟨rfl, rfl, rfl⟩
    exact ⟨⟨rfl, hc.trans hsettle.1⟩, hs.trans hsettle.2.1, hr.trans hsettle.2.2⟩

theorem acknowledgeAll_frame (tokens : List AckToken) (b : Broker) :
    (tokens.foldl acknowledge b).mailboxes = b.mailboxes ∧
      (tokens.foldl acknowledge b).acks.issued = b.acks.issued ∧
      (∀ t, t ∈ (tokens.foldl acknowledge b).acks.acknowledged ↔
        t ∈ b.acks.acknowledged ∨ ∃ ack ∈ tokens, t ∈ ack.messages) ∧
      List.Forall₂ SameListener b.sessions (tokens.foldl acknowledge b).sessions := by
  induction tokens generalizing b with
  | nil => exact ⟨rfl, rfl, by simp, List.forall₂_same.mpr fun p _ => .refl p⟩
  | cons token rest ih =>
    obtain ⟨hm, hi, ha, hs⟩ := ih (b.acknowledge token)
    refine ⟨hm, hi, fun t => ?_, ?_⟩
    · rw [List.foldl_cons, ha, acknowledge, AckLedger.mem_acknowledge, List.exists_mem_cons_iff]
      tauto
    · have hs := List.forall₂_map_left_iff.mp hs
      exact hs.imp fun p q hpq => (SameListener.settled p _).trans hpq

theorem isSettled_asRouting (b : Broker) (t : Nat) :
    b.asRouting.IsSettled t ↔ t ∈ b.acks.acknowledged := by
  simp [Routing.IsSettled, asRouting]

def routing (b : Broker) (m : Message) : Routing :=
  b.sessions.foldl (routeTo m) b.asRouting

theorem route_frame (b : Broker) (m : Message) :
    (b.route m).2.mailboxes = (b.routing m).mailboxes ∧
      (b.route m).2.acks.issued = (b.routing m).acks.issued ∧
      (∀ t, t ∈ (b.route m).2.acks.acknowledged ↔ (b.routing m).IsSettled t) ∧
      List.Forall₂ SameListener (b.routing m).sessions (b.route m).2.sessions :=
  acknowledgeAll_frame _ { b with
    acks := (b.routing m).acks
    mailboxes := (b.routing m).mailboxes
    sessions := (b.routing m).sessions }

theorem forall₂_congr {α : Type} {R S T : α → α → Prop} {l l' u u' : List α}
    (h : List.Forall₂ R l l') (hl : List.Forall₂ S l u) (hl' : List.Forall₂ S l' u')
    (ht : ∀ {a b c d}, R a b → S a c → S b d → T c d) : List.Forall₂ T u u' := by
  induction h generalizing u u' with
  | nil =>
    cases hl
    cases hl'
    exact .nil
  | cons hr _ ih =>
    cases hl with
    | cons hs hl =>
      cases hl' with
      | cons hs' hl' => exact .cons (ht hr hs hs') (ih hl hl')

theorem MirrorsSession.congr (h : MirrorsSession client front receivers p p')
    (hq : SameListener p q) (hq' : SameListener p' q') :
    MirrorsSession client front receivers q q' := by
  obtain ⟨⟨hid, hc⟩, hs, hr⟩ := hq
  obtain ⟨⟨hid', hc'⟩, hs', hr'⟩ := hq'
  refine ⟨⟨hid'.trans (h.sameClient.1.trans hid.symm), hc'.trans (h.sameClient.2.trans hc.symm)⟩,
    hs'.trans (h.subscriptions_eq.trans hs.symm), ?_⟩
  rw [hid, hr, hr']
  exact h.listens

/-- The same messages have come to a client, whose receivers are behind a mailbox in the second
broker, and nobody else has noticed. -/
structure Alongside (client : String) (front : Nat) (receivers : Receivers) (b b' : Broker) :
    Prop where
  mirrors : Mirrors front receivers b.asRouting b'.asRouting
  sessions : List.Forall₂ (MirrorsSession client front receivers) b.sessions b'.sessions

namespace Alongside

theorem ofCreate (hreceivers : ∀ p ∈ b.sessions, p.1 = client → p.2.receivers = [])
    (hrange : ∀ p ∈ b.sessions, ∀ r ∈ p.2.receivers, r.2 < b.mailboxes.boxes.length) :
    Alongside client b.mailboxes.boxes.length [] b
      { b.modifySession client fun s =>
          { s with receivers := s.receivers ++ [(.everything, b.mailboxes.boxes.length)] }
        with mailboxes := b.mailboxes.create.2 } where
  mirrors := .ofCreate b.asRouting
  sessions := by
    show List.Forall₂ _ b.sessions (b.sessions.map _)
    rw [List.forall₂_map_right_iff, List.forall₂_same]
    intro p hp
    obtain ⟨id, s⟩ := p
    have hlt := hrange _ hp
    dsimp only
    split
    next hid =>
      have hr : s.receivers = [] := hreceivers _ hp hid
      exact ⟨⟨rfl, rfl⟩, rfl, .inl ⟨hid, hr, by rw [hr, List.nil_append]⟩⟩
    next hid => exact ⟨⟨rfl, rfl⟩, rfl, .inr ⟨hid, rfl, hlt⟩⟩

theorem isConnected_eq (h : Alongside client front receivers b b') :
    b'.isConnected = b.isConnected :=
  funext fun client => isConnected_congr (h.sessions.imp fun _ _ hp => hp.sameClient) client

theorem route (h : Alongside client front receivers b b')
    (hplain : m.userProperty? ChunkMetadata.key = none) :
    Alongside client front receivers (b.route m).2 (b'.route m).2 ∧
      (b.route m).2.isConnected = b.isConnected := by
  obtain ⟨hmirrors, after, after', ha, ha', hsessions, hsame⟩ :=
    Mirrors.routeAll h.sessions h.mirrors hplain
  obtain ⟨hm, hi, hack, hs⟩ := route_frame b m
  obtain ⟨hm', hi', hack', hs'⟩ := route_frame b' m
  have ha : (b.routing m).sessions = after := ha
  have ha' : (b'.routing m).sessions = after' := ha'
  rw [ha] at hs
  rw [ha'] at hs'
  refine ⟨⟨hmirrors.congr hi hi' hm hm' (fun t => ?_) fun t => ?_, ?_⟩, ?_⟩
  · exact (isSettled_asRouting _ t).trans (hack t)
  · exact (isSettled_asRouting _ t).trans (hack' t)
  · exact forall₂_congr hsessions hs hs' fun hp hq hq' => hp.congr hq hq'
  · funext name
    have hfirst : isConnected { b with sessions := after } name = b.isConnected name :=
      isConnected_congr hsame name
    have hthen : (b.route m).2.isConnected name = isConnected { b with sessions := after } name :=
      isConnected_congr (hs.imp fun _ _ hp => hp.1) name
    exact hthen.trans hfirst

theorem resubscribe (h : Alongside client front receivers b b') (name : String)
    (f : List (Filter × QoS) → List (Filter × QoS)) :
    Alongside client front receivers
        (b.modifySession name fun s => { s with subscriptions := f s.subscriptions })
        (b'.modifySession name fun s => { s with subscriptions := f s.subscriptions }) ∧
      (b.modifySession name fun s => { s with subscriptions := f s.subscriptions }).isConnected =
        b.isConnected := by
  refine ⟨⟨h.mirrors, ?_⟩, isConnected_modifySession b name fun _ => rfl⟩
  rw [modifySession, modifySession, List.forall₂_map_left_iff, List.forall₂_map_right_iff]
  refine h.sessions.imp fun p p' hp => ?_
  obtain ⟨id, s⟩ := p
  obtain ⟨id', s'⟩ := p'
  obtain ⟨⟨hid, hc⟩, hsub, hlistens⟩ := hp
  obtain rfl : id' = id := hid
  have hsub : s'.subscriptions = s.subscriptions := hsub
  dsimp only
  split
  · exact ⟨⟨rfl, hc⟩, congrArg f hsub, hlistens⟩
  · exact ⟨⟨rfl, hc⟩, hsub, hlistens⟩

theorem opened (h : Alongside client front receivers b b')
    (hempty : b'.mailboxes.waiting front = []) (f : Filter) :
    Alongside client front (receivers ++ [(f, b.mailboxes.boxes.length)])
        { b.modifySession client fun s =>
            { s with receivers := s.receivers ++ [(f, b.mailboxes.boxes.length)] }
          with mailboxes := b.mailboxes.create.2 }
        { b' with mailboxes := b'.mailboxes.create.2 } ∧
      (b.modifySession client fun s =>
        { s with receivers := s.receivers ++ [(f, b.mailboxes.boxes.length)] }).isConnected =
          b.isConnected := by
  refine ⟨⟨h.mirrors.opened hempty f, ?_⟩, isConnected_modifySession b client fun _ => rfl⟩
  show List.Forall₂ _ (b.sessions.map _) b'.sessions
  rw [List.forall₂_map_left_iff]
  refine h.sessions.imp fun p p' hp => ?_
  obtain ⟨id, s⟩ := p
  obtain ⟨hsame, hsub, ⟨hid, hr, hr'⟩ | ⟨hid, hr, hlt⟩⟩ := hp
  · dsimp only at hid hr ⊢
    rw [if_pos hid]
    exact ⟨hsame, hsub, .inl ⟨hid, congrArg (· ++ _) hr, hr'⟩⟩
  · dsimp only at hid ⊢
    rw [if_neg hid]
    exact ⟨hsame, hsub, .inr ⟨hid, hr, hlt⟩⟩

theorem forwarded (h : Alongside client front receivers b b') {d : Delivery} {m : Mailboxes}
    (ht : b'.mailboxes.take? front = some (d, m)) :
    (m.deliver receivers.behind d).2.1 = receivers.behind ∧
      (m.deliver receivers.behind d).2.2.waiting front = m.waiting front ∧
      Alongside client front receivers b
        (if (m.deliver receivers.behind d).1 then
          { b' with mailboxes := (m.deliver receivers.behind d).2.2 }
        else acknowledge { b' with mailboxes := (m.deliver receivers.behind d).2.2 } d.ack) := by
  obtain ⟨hleft, hfront, hmirrors⟩ := h.mirrors.forwarded ht
  refine ⟨hleft, hfront, ?_⟩
  have hsettled (t : Nat) := isSettled_handed b'.asRouting (m.deliver receivers.behind d).2.2
    (m.deliver receivers.behind d).1 d.ack t
  cases hreached : (m.deliver receivers.behind d).1 with
  | true =>
    rw [hreached] at hmirrors
    rw [if_pos rfl]
    exact ⟨hmirrors, h.sessions⟩
  | false =>
    rw [hreached] at hmirrors hsettled
    rw [if_neg Bool.false_ne_true]
    obtain ⟨hm, hi, hack, hs⟩ := acknowledgeAll_frame [d.ack]
      { b' with mailboxes := (m.deliver receivers.behind d).2.2 }
    refine ⟨hmirrors.congr rfl hi rfl hm (fun _ => .rfl) fun t => ?_, ?_⟩
    · refine (isSettled_asRouting _ t).trans ((hack t).trans ?_)
      rw [hsettled, isSettled_asRouting]
      simp
    · exact forall₂_congr h.sessions (List.forall₂_same.mpr fun _ _ => .refl _) hs
        fun hp hq hq' => hp.congr hq hq'

theorem receivers_eq (h : Alongside client front receivers b b') (hp : p ∈ b.sessions)
    (hclient : p.1 = client) : p.2.receivers = receivers := by
  obtain ⟨p', hp'⟩ : ∃ p', MirrorsSession client front receivers p p' := by
    have hsessions := h.sessions
    generalize b.sessions = sessions, b'.sessions = sessions' at hp hsessions
    induction hsessions with
    | nil => cases hp
    | cons hmirrors _ ih =>
      obtain rfl | hp := List.mem_cons.mp hp
      · exact ⟨_, hmirrors⟩
      · exact ih hp
  obtain ⟨-, hr, -⟩ | ⟨hne, -⟩ := hp'.listens
  · exact hr
  · exact absurd hclient hne

end Alongside

end Broker

end CommandBus
