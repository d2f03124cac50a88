import CommandBus.Proofs.Association
import CommandBus.Proofs.Chunk.Alongside
import CommandBus.Proofs.Chunk.Delivery
import CommandBus.Proofs.Chunk.Reception
import Mathlib

namespace CommandBus

open CommandBus.Filter (isReservedTopic)

namespace Network

inductive Event
  | subscribe (filter : String) (qos : QoS)
  | unsubscribe (filter : String)
  | receive (filter : String)
  | arrive (m : Message)

namespace Event

def run (c : Client) (n : Network) : Event → Network
  | subscribe filter qos => (n.subscribe c filter qos).2
  | unsubscribe filter => (n.unsubscribe c filter).2
  | receive filter => (n.receiver c filter).2
  | arrive m => { n with broker := (n.broker.route m).2 }

def IsPlain : Event → Prop
  | arrive m => m.userProperty? ChunkMetadata.key = none
  | _ => True

end Event

def pendingAt (n : Network) (id : Nat) : List Delivery :=
  n.chunkers[id]?.elim [] fun c => n.broker.mailboxes.waiting c.box

def receiversOf (n : Network) : Client → Receivers
  | .plain link => (n.broker.session? (n.clientIdOf link)).elim [] Session.receivers
  | .chunking id => n.chunkers[id]?.elim [] ChunkingClient.receivers

def received (n : Network) (c : Client) : List (Filter × List Delivery) :=
  (n.receiversOf c).map fun r => (r.1, n.broker.mailboxes.waiting r.2)

def directly (start : Network) (link : Nat) (events : List Event) : Network :=
  events.foldl (Event.run (.plain link)) start

/-- What a chunking client may come to. Its background work goes on at any time; a receiver is not
made while something that arrived earlier is still to go through. -/
inductive Wrapped (id : Nat) (start : Network) : List Event → Network → Prop
  | start : Wrapped id start [] start
  | event {events : List Event} {n : Network} (h : Wrapped id start events n) (e : Event)
      (hreceive : ∀ filter, e = .receive filter → n.pendingAt id = []) :
      Wrapped id start (events ++ [e]) (e.run (.chunking id) n)
  | collect {events : List Event} {n n' : Network} {now : Nat} (h : Wrapped id start events n)
      (hstep : n.stepCollect? id now = some n') : Wrapped id start events n'
  | sweep {events : List Event} {n n' : Network} {now : Nat} (h : Wrapped id start events n)
      (hstep : n.stepSweep? id now = some n') : Wrapped id start events n'

/-- A link that works, of a client that is connected and has no receivers yet. -/
structure IsIdle (n : Network) (link : Nat) : Prop where
  isClear : n.links[link]?.elim {} Link.outages = {}
  isConnected : n.broker.isConnected (n.clientIdOf link) = true
  receivers_eq : ∀ p ∈ n.broker.sessions, p.1 = n.clientIdOf link → p.2.receivers = []
  inRange : ∀ p ∈ n.broker.sessions, ∀ r ∈ p.2.receivers, r.2 < n.broker.mailboxes.boxes.length

structure Forwards (c : ChunkingClient) (link front : Nat) (receivers : Receivers) : Prop where
  link_eq : c.link = link
  box_eq : c.box = front
  receivers_eq : c.receivers = receivers
  isActive : c.isCancelled = false
  isCollecting : c.isCollecting = true

/-- A network in which a client uses a link, and one in which it does so through a chunking client
over the link. -/
structure Alike (link id front : Nat) (receivers : Receivers) (n n' : Network) : Prop where
  links_eq : n'.links = n.links
  isClear : n.links[link]?.elim {} Link.outages = {}
  isConnected : n.broker.isConnected (n.clientIdOf link) = true
  alongside : Broker.Alongside (n.clientIdOf link) front receivers n.broker n'.broker
  forwards : ∃ c, n'.chunkers[id]? = some c ∧ Forwards c link front receivers.behind

variable {n n' n'' start wrapped : Network} {link id front now : Nat} {receivers : Receivers}
  {events : List Event} {d : Delivery}

theorem onLink_of_isClear {α : Type} (h : n.links[link]?.elim {} Link.outages = {})
    {ahead : Outages → List Outage} (hahead : ahead {} = [])
    (rest : List Outage → Outages → Outages) (answer : ReasonCode → Except ClientError α)
    (operation : Broker → Except ClientError α × Broker) :
    n.onLink link ahead rest answer operation =
      ((operation n.broker).1, { n with broker := (operation n.broker).2 }) := by
  rw [onLink]
  cases hl : n.links[link]? with
  | none => rfl
  | some l =>
    rw [hl, Option.elim_some] at h
    rw [Option.elim_some, h, hahead]

theorem linkOf_plain (n : Network) (link : Nat) : n.linkOf (.plain link) = link :=
  rfl

namespace Alike

theorem isClear' (h : Alike link id front receivers n n') :
    n'.links[link]?.elim {} Link.outages = {} := by
  rw [h.links_eq, h.isClear]

theorem isConnected' (h : Alike link id front receivers n n') :
    n'.broker.isConnected (n.clientIdOf link) = true := by
  rw [h.alongside.isConnected_eq, h.isConnected]

theorem clientIdOf_eq (h : Alike link id front receivers n n') :
    n'.clientIdOf link = n.clientIdOf link := by
  rw [clientIdOf, h.links_eq, clientIdOf]

theorem linkOf_eq (h : Alike link id front receivers n n') : n'.linkOf (.chunking id) = link := by
  obtain ⟨c, hc, hforwards⟩ := h.forwards
  rw [linkOf, hc, Option.elim_some, hforwards.link_eq]

theorem pendingAt_eq (h : Alike link id front receivers n n') :
    n'.pendingAt id = n'.broker.mailboxes.waiting front := by
  obtain ⟨c, hc, hforwards⟩ := h.forwards
  rw [pendingAt, hc, Option.elim_some, hforwards.box_eq]

theorem ofBrokers (h : Alike link id front receivers n n') {b b' : Broker}
    (halongside : Broker.Alongside (n.clientIdOf link) front receivers b b')
    (hconnected : b.isConnected = n.broker.isConnected) :
    Alike link id front receivers { n with broker := b } { n' with broker := b' } :=
  { h with
    isConnected := (congrFun hconnected _).trans h.isConnected
    alongside := halongside }

theorem subscribe (h : Alike link id front receivers n n') (filter : String) (qos : QoS) :
    Alike link id front receivers (n.subscribe (.plain link) filter qos).2
      (n'.subscribe (.chunking id) filter qos).2 := by
  rw [Network.subscribe, Network.subscribe, h.linkOf_eq, linkOf_plain, subscribeOn,
    subscribeOn, onLink_of_isClear h.isClear rfl, onLink_of_isClear h.isClear' rfl, h.clientIdOf_eq]
  simp only [Broker.subscribe]
  cases Filter.parse filter with
  | error e => exact h
  | ok parsed =>
    simp only [h.isConnected, h.isConnected', if_true]
    obtain ⟨halongside, hc⟩ := h.alongside.resubscribe (n.clientIdOf link) fun subscriptions =>
      subscriptions.filter (·.1 != parsed) ++ [(parsed, qos)]
    exact h.ofBrokers halongside hc

theorem unsubscribe (h : Alike link id front receivers n n') (filter : String) :
    Alike link id front receivers (n.unsubscribe (.plain link) filter).2
      (n'.unsubscribe (.chunking id) filter).2 := by
  obtain ⟨s, hs⟩ := Option.isSome_iff_exists.mp h.isConnected
  obtain ⟨s', hs'⟩ := Option.isSome_iff_exists.mp h.isConnected'
  rw [Network.unsubscribe, Network.unsubscribe, h.linkOf_eq, linkOf_plain, unsubscribeOn,
    unsubscribeOn, onLink_of_isClear h.isClear rfl, onLink_of_isClear h.isClear' rfl,
    h.clientIdOf_eq]
  simp only [Broker.unsubscribe]
  cases Filter.parse filter with
  | error e => exact h
  | ok parsed =>
    simp only [hs, hs']
    obtain ⟨halongside, hc⟩ := h.alongside.resubscribe (n.clientIdOf link) fun subscriptions =>
      subscriptions.filter (·.1 != parsed)
    exact h.ofBrokers halongside hc

theorem receiver (h : Alike link id front receivers n n') (hpending : n'.pendingAt id = [])
    (filter : String) :
    ∃ receivers', Alike link id front receivers' (n.receiver (.plain link) filter).2
      (n'.receiver (.chunking id) filter).2 := by
  obtain ⟨c, hc, hforwards⟩ := h.forwards
  rw [Network.receiver, receiverOn, onLink_of_isClear h.isClear rfl, Network.receiver]
  simp only [hc, Option.elim_some, hforwards.isActive, Bool.false_eq_true, if_false,
    Broker.receiver]
  cases Filter.parse filter with
  | error e => exact ⟨receivers, h⟩
  | ok parsed =>
    simp only [h.isConnected, if_true]
    obtain ⟨halongside, hconnected⟩ :=
      h.alongside.opened (h.pendingAt_eq.symm.trans hpending) parsed
    refine ⟨_, h.links_eq, h.isClear, ?_, halongside, ?_⟩
    · exact (congrFun hconnected _).trans h.isConnected
    · refine ⟨_, getElem?_modifyChunker (n := n'.modifyMailboxes _) hc _, hforwards.link_eq,
        hforwards.box_eq, ?_, hforwards.isActive, hforwards.isCollecting⟩
      · have hbox : n'.broker.mailboxes.boxes.length = n.broker.mailboxes.boxes.length + 1 :=
          h.alongside.mirrors.aligned.length_eq
        simp only [Mailboxes.create, hforwards.receivers_eq, Receivers.behind, List.map_append,
          List.map_cons, List.map_nil, hbox]

theorem arrive (h : Alike link id front receivers n n') {m : Message}
    (hplain : m.userProperty? ChunkMetadata.key = none) :
    Alike link id front receivers { n with broker := (n.broker.route m).2 }
      { n' with broker := (n'.broker.route m).2 } := by
  obtain ⟨halongside, hc⟩ := h.alongside.route hplain
  exact h.ofBrokers halongside hc

theorem event (h : Alike link id front receivers n n') {e : Event} (hplain : e.IsPlain)
    (hreceive : ∀ filter, e = .receive filter → n'.pendingAt id = []) :
    ∃ receivers', Alike link id front receivers' (e.run (.plain link) n)
      (e.run (.chunking id) n') := by
  cases e with
  | subscribe filter qos => exact ⟨receivers, h.subscribe filter qos⟩
  | unsubscribe filter => exact ⟨receivers, h.unsubscribe filter⟩
  | receive filter => exact h.receiver (hreceive filter rfl) filter
  | arrive m => exact ⟨receivers, h.arrive hplain⟩

theorem stepCollect?_eq (h : Alike link id front receivers n n') (now : Nat) :
    n'.stepCollect? id now = (n'.take? front).map fun (d, m) => m.collect id now d := by
  obtain ⟨c, hc, hforwards⟩ := h.forwards
  have hopen : n'.isClosed front = false := by
    have hsender : n'.broker.mailboxes.hasSender front = true :=
      h.alongside.mirrors.aligned.isFrontOpen
    rw [Mailboxes.hasSender] at hsender
    rw [isClosed, Mailboxes.isClosed]
    cases hbox : n'.broker.mailboxes.boxes[front]? with
    | none => simp [hbox] at hsender
    | some box =>
      rw [hbox, Option.elim_some] at hsender
      simp [hsender]
  simp only [stepCollect?, hc, Option.bind_eq_bind, Option.bind_some, hforwards.isCollecting,
    hforwards.isActive, hforwards.box_eq, hopen, Bool.not_true, Bool.false_eq_true, if_false]
  cases n'.take? front with
  | none => rfl
  | some taken => rfl

theorem collected (h : Alike link id front receivers n n')
    (ht : n'.take? front = some (d, n'')) (now : Nat) :
    Alike link id front receivers n (n''.collect id now d) ∧
      n'.pendingAt id = d :: (n''.collect id now d).pendingAt id := by
  obtain ⟨c, hc, hforwards⟩ := h.forwards
  obtain ⟨⟨d', m⟩, hm, heq⟩ := Option.map_eq_some_iff.mp ht
  obtain ⟨rfl, rfl⟩ := Prod.mk.inj heq
  obtain ⟨hwaiting, -⟩ := Mailboxes.take?_eq_some hm
  obtain ⟨-, hplain⟩ := h.alongside.mirrors.pending d'
    (hwaiting ▸ List.mem_cons_self .. : d' ∈ n'.broker.mailboxes.waiting front)
  obtain ⟨hleft, hfront, halongside⟩ := h.alongside.forwarded hm
  have hhandle := c.inbound.handle_plain now hplain
  have hc' : ((n'.modifyMailboxes fun _ => m).withInbound id c.inbound).chunkers[id]? = some c :=
    getElem?_withInbound (n := n'.modifyMailboxes fun _ => m) hc c.inbound
  obtain ⟨hbroker, hlinks, hchunker⟩ := dispatch_frame hc' d'
  rw [hforwards.receivers_eq] at hbroker hchunker
  have hcollect : (n'.modifyMailboxes fun _ => m).collect id now d' =
      ((n'.modifyMailboxes fun _ => m).withInbound id c.inbound).dispatch id d' := by
    rw [collect_of_dispatch (n := n'.modifyMailboxes fun _ => m) hc (congrArg Prod.fst hhandle),
      hhandle]
  have halike : Alike link id front receivers n
      ((n'.modifyMailboxes fun _ => m).collect id now d') := by
    rw [hcollect]
    refine ⟨hlinks.trans h.links_eq, h.isClear, h.isConnected, hbroker ▸ halongside, _, hchunker,
      hforwards.link_eq, hforwards.box_eq, hleft, hforwards.isActive, hforwards.isCollecting⟩
  refine ⟨halike, ?_⟩
  have hmailboxes : (((n'.modifyMailboxes fun _ => m).withInbound id c.inbound).dispatch
      id d').broker.mailboxes = (m.deliver receivers.behind d').2.2 := by
    rw [hbroker]
    split <;> rfl
  rw [halike.pendingAt_eq, hcollect, hmailboxes, hfront, h.pendingAt_eq, hwaiting]

theorem swept (h : Alike link id front receivers n n') (hstep : n'.stepSweep? id now = some n'') :
    Alike link id front receivers n n'' := by
  obtain ⟨c, hc, hforwards⟩ := h.forwards
  simp only [stepSweep?, hc, Option.bind_eq_bind, Option.bind_some, hforwards.isActive,
    Bool.false_eq_true, if_false] at hstep
  obtain ⟨time, -, hstep⟩ := Option.bind_eq_some_iff.mp hstep
  split at hstep
  next =>
    obtain rfl := Option.some.inj hstep
    exact { h with
      forwards := ⟨_, getElem?_modifyChunker hc _, hforwards.link_eq, hforwards.box_eq,
        hforwards.receivers_eq, hforwards.isActive, hforwards.isCollecting⟩ }
  next => cases hstep

theorem exists_collected (h : Alike link id front receivers n n')
    (hrun : Wrapped id start events n') :
    ∃ n'', Wrapped id start events n'' ∧ n''.pendingAt id = [] ∧
      Alike link id front receivers n n'' := by
  -- Each step of collecting takes the first of what is pending.
  induction hpending : n'.pendingAt id generalizing n' with
  | nil => exact ⟨n', hrun, hpending, h⟩
  | cons d rest ih =>
    cases ht : n'.take? front with
    | none =>
      have hnone : n'.broker.mailboxes.take? front = none := Option.map_eq_none_iff.mp ht
      have hempty := Mailboxes.waiting_eq_nil_of_take? hnone
      rw [← h.pendingAt_eq, hpending] at hempty
      cases hempty
    | some taken =>
      obtain ⟨d', n₂⟩ := taken
      obtain ⟨halike, hrest⟩ := h.collected ht 0
      have hstep : n'.stepCollect? id 0 = some (n₂.collect id 0 d') := by
        rw [h.stepCollect?_eq, ht, Option.map_some]
      rw [hpending] at hrest
      exact ih halike (.collect hrun hstep) (List.cons.inj hrest).2.symm

theorem ofChunk {o : ChunkingOptions} (hidle : n.IsIdle link)
    (hchunk : n.chunk link now o = (.ok id, n')) :
    Alike link id n.broker.mailboxes.boxes.length [] n n' := by
  have hparse : Filter.parse "#" = .ok .everything := by rfl
  rw [chunk] at hchunk
  split at hchunk
  next => cases hchunk
  next =>
    rw [receiverOn, onLink_of_isClear hidle.isClear rfl] at hchunk
    simp only [Broker.receiver, hparse, hidle.isConnected, if_true] at hchunk
    cases hchunk
    refine ⟨rfl, hidle.isClear, hidle.isConnected, .ofCreate hidle.receivers_eq hidle.inRange,
      _, List.getElem?_concat_length, rfl, rfl, rfl, rfl, rfl⟩

theorem receiversOf_eq (h : Alike link id front receivers n n') :
    n.receiversOf (.plain link) = receivers := by
  obtain ⟨s, hs⟩ := Option.isSome_iff_exists.mp h.isConnected
  obtain ⟨hsession, -⟩ := Option.filter_eq_some_iff.mp hs
  rw [receiversOf, hsession, Option.elim_some]
  exact h.alongside.receivers_eq (Association.mem_of_lookup hsession) rfl

theorem received_eq (h : Alike link id front receivers n n') (hempty : n'.pendingAt id = []) :
    n'.received (.chunking id) = (n.received (.plain link)).map fun r =>
      (r.1, r.2.filter fun d => !isReservedTopic d.message.topic) := by
  obtain ⟨c, hc, hforwards⟩ := h.forwards
  have hreceivers : n'.receiversOf (.chunking id) = receivers.behind := by
    rw [receiversOf, hc, Option.elim_some, hforwards.receivers_eq]
  have hfront : n'.broker.asRouting.mailboxes.waiting front = [] := h.pendingAt_eq ▸ hempty
  rw [received, received, hreceivers, h.receiversOf_eq, Receivers.behind, List.map_map,
    List.map_map]
  refine List.map_congr_left fun r hr => Prod.ext rfl ?_
  have hwaits := h.alongside.mirrors.waits r hr
  rw [hfront, Receivers.due, List.flatMap_nil, List.append_nil] at hwaits
  exact hwaits

/-- Once everything is collected, what is acknowledged is what would be, and what would have been
received on reserved topics. -/
theorem acknowledged_iff (h : Alike link id front receivers n n') (hempty : n'.pendingAt id = [])
    (t : Nat) : t ∈ n'.broker.acks.acknowledged ↔
      t ∈ n.broker.acks.acknowledged ∨ ∃ r ∈ n.received (.plain link), ∃ d ∈ r.2,
        isReservedTopic d.message.topic = true ∧ t ∈ d.ack.messages := by
  have hfront : n'.broker.asRouting.mailboxes.waiting front = [] := h.pendingAt_eq ▸ hempty
  have huntaken : ¬Broker.IsUntaken receivers (n'.broker.asRouting.mailboxes.waiting front) t := by
    rw [hfront]
    rintro ⟨d, hd, -⟩
    cases hd
  have hsettled := h.alongside.mirrors.settled_iff t
  rw [Broker.isSettled_asRouting, Broker.isSettled_asRouting, or_iff_left huntaken] at hsettled
  rw [hsettled, received, h.receiversOf_eq]
  simp only [Broker.IsReservedAt, List.mem_map, exists_exists_and_eq_and]
  exact .rfl

end Alike

theorem alike_of_wrapped {o : ChunkingOptions} (hidle : n.IsIdle link)
    (hchunk : n.chunk link now o = (.ok id, start)) (hplain : ∀ e ∈ events, e.IsPlain)
    (hrun : Wrapped id start events n') :
    ∃ front receivers, Alike link id front receivers (n.directly link events) n' := by
  induction hrun with
  | start => exact ⟨_, _, .ofChunk hidle hchunk⟩
  | event h e hreceive ih =>
    rw [List.forall_mem_append, List.forall_mem_singleton] at hplain
    obtain ⟨front, receivers, halike⟩ := ih hplain.1
    rw [directly, List.foldl_append]
    obtain ⟨receivers', halike'⟩ := halike.event hplain.2 hreceive
    exact ⟨front, receivers', halike'⟩
  | collect h hstep ih =>
    obtain ⟨front, receivers, halike⟩ := ih hplain
    rw [halike.stepCollect?_eq] at hstep
    obtain ⟨⟨d, taken⟩, ht, rfl⟩ := Option.map_eq_some_iff.mp hstep
    exact ⟨front, receivers, (halike.collected ht _).1⟩
  | sweep h hstep ih =>
    obtain ⟨front, receivers, halike⟩ := ih hplain
    exact ⟨front, receivers, halike.swept hstep⟩

theorem exists_wrapped {o : ChunkingOptions} (hidle : n.IsIdle link)
    (hchunk : n.chunk link now o = (.ok id, start)) (hplain : ∀ e ∈ events, e.IsPlain) :
    ∃ n', Wrapped id start events n' ∧ n'.pendingAt id = [] := by
  induction events using List.reverseRecOn with
  | nil =>
    obtain ⟨n', hrun, hempty, -⟩ := (Alike.ofChunk hidle hchunk).exists_collected .start
    exact ⟨n', hrun, hempty⟩
  | append_singleton events e ih =>
    obtain ⟨n', hrun, hempty⟩ := ih fun e he => hplain e (List.mem_append_left _ he)
    have hrun' := hrun.event e fun _ _ => hempty
    obtain ⟨front, receivers, halike⟩ := alike_of_wrapped hidle hchunk hplain hrun'
    obtain ⟨n'', hrun'', hempty', -⟩ := halike.exists_collected hrun'
    exact ⟨n'', hrun'', hempty'⟩

theorem map_eq_self_iff {α : Type} {f : α → α} {l : List α} :
    l.map f = l ↔ ∀ a ∈ l, f a = a := by
  have h := List.map_inj_left (l := l) (f := f) (g := id)
  rwa [List.map_id] at h

/-- Receivers made through a chunking client have got, in the same order, what they would have got
on the link beneath, less the messages on reserved topics. Of these, those that a receiver would
have got are acknowledged as if there were none. So a chunking client does not show exactly as
long as no receiver would have got a message on a reserved topic. -/
theorem transparent_iff_unreserved {o : ChunkingOptions} (hidle : n.IsIdle link)
    (hchunk : n.chunk link now o = (.ok id, start)) (hplain : ∀ e ∈ events, e.IsPlain) :
    (∃ n', Wrapped id start events n' ∧ n'.pendingAt id = []) ∧
      ∀ n', Wrapped id start events n' → n'.pendingAt id = [] →
        n'.received (.chunking id) = ((n.directly link events).received (.plain link)).map
          (fun r => (r.1, r.2.filter fun d => !isReservedTopic d.message.topic)) ∧
        (∀ t, t ∈ n'.broker.acks.acknowledged ↔
          t ∈ (n.directly link events).broker.acks.acknowledged ∨
            ∃ r ∈ (n.directly link events).received (.plain link), ∃ d ∈ r.2,
              isReservedTopic d.message.topic = true ∧ t ∈ d.ack.messages) ∧
        ((n'.received (.chunking id) = (n.directly link events).received (.plain link) ∧
            ∀ t, t ∈ n'.broker.acks.acknowledged ↔
              t ∈ (n.directly link events).broker.acks.acknowledged) ↔
          ∀ r ∈ (n.directly link events).received (.plain link), ∀ d ∈ r.2,
            isReservedTopic d.message.topic = false) := by
  refine ⟨exists_wrapped hidle hchunk hplain, fun n' hrun hempty => ?_⟩
  obtain ⟨front, receivers, halike⟩ := alike_of_wrapped hidle hchunk hplain hrun
  have hreceived := halike.received_eq hempty
  have hacknowledged := halike.acknowledged_iff hempty
  refine ⟨hreceived, hacknowledged, ?_⟩
  constructor
  · intro ⟨hsame, _⟩ r hr d hd
    rw [hreceived, map_eq_self_iff] at hsame
    have hall := List.filter_eq_self.mp (congrArg Prod.snd (hsame r hr)) d hd
    simpa using hall
  · intro hnone
    refine ⟨?_, fun t => (hacknowledged t).trans (or_iff_left ?_)⟩
    · rw [hreceived, map_eq_self_iff]
      intro r hr
      refine Prod.ext rfl (List.filter_eq_self.mpr fun d hd => ?_)
      rw [hnone r hr d hd, Bool.not_false]
    · rintro ⟨r, hr, d, hd, hreserved, -⟩
      rw [hnone r hr d hd] at hreserved
      cases hreserved

/-- A link of a connected client, by a broker that limits packets. -/
def linked : Network :=
  (connect { broker := { maxPacketSize := some 2048 } } "c").2

def chunked : Network :=
  (linked.chunk 0 0 {}).2

def arrivalOn (topic : String) : Event :=
  .arrive { topic, qos := .atLeastOnce }

theorem arrivalOn_isPlain (topic : String) : (arrivalOn topic).IsPlain :=
  rfl

theorem linked_isIdle : linked.IsIdle 0 where
  isClear := rfl
  isConnected := by decide
  receivers_eq := by
    intro p hp _
    rw [List.mem_singleton.mp hp]
  inRange := by
    intro p hp r hr
    rw [List.mem_singleton.mp hp] at hr
    cases hr

theorem linked_chunk : linked.chunk 0 0 {} = (.ok 0, chunked) :=
  rfl

/-- Two receivers whose filters overlap, a message for both of them and one for the first. -/
def overlapping : List Event :=
  [.subscribe "a/#" .atLeastOnce, .receive "a/#", .receive "+/b", arrivalOn "a/b",
    arrivalOn "a/c"]

theorem overlapping_filters_served : ∃ n', Wrapped 0 chunked overlapping n' ∧
    n'.pendingAt 0 = [] ∧
    (n'.received (.chunking 0)).map (fun r => r.2.map (·.message.topic)) =
      [["a/b", "a/c"], ["a/b"]] := by
  have hplain : ∀ e ∈ overlapping, e.IsPlain := by
    simp [overlapping, Event.IsPlain, arrivalOn, Message.userProperty?, UserProperties.get?]
  obtain ⟨⟨n', hrun, hempty⟩, hall⟩ :=
    transparent_iff_unreserved linked_isIdle linked_chunk hplain
  refine ⟨n', hrun, hempty, ?_⟩
  rw [(hall n' hrun hempty).1]
  rfl

/-- A receiver for a reserved topic, made through a chunking client, does not get a message that
one made on the link gets. The message is acknowledged as if nobody wanted it. -/
theorem reserved_topic_lost : (arrivalOn "$x/y").IsPlain ∧ ∃ n',
    Wrapped 0 chunked [.subscribe "$x/y" .atLeastOnce, .receive "$x/y", arrivalOn "$x/y"] n' ∧
      n'.pendingAt 0 = [] ∧
      (n'.received (.chunking 0)).map (fun r => r.2.map (·.message.topic)) = [[]] ∧
      n'.broker.acks.acknowledged = [0] ∧
      ((linked.directly 0 [.subscribe "$x/y" .atLeastOnce, .receive "$x/y",
        arrivalOn "$x/y"]).received (.plain 0)).map (fun r => r.2.map (·.message.topic)) =
          [["$x/y"]] ∧
      (linked.directly 0 [.subscribe "$x/y" .atLeastOnce, .receive "$x/y",
        arrivalOn "$x/y"]).broker.acks.acknowledged = [] := by
  have hsubscribed : Wrapped 0 chunked [.subscribe "$x/y" .atLeastOnce] _ :=
    Wrapped.start.event (.subscribe "$x/y" .atLeastOnce) nofun
  have hlistening : Wrapped 0 chunked [.subscribe "$x/y" .atLeastOnce, .receive "$x/y"] _ :=
    hsubscribed.event (.receive "$x/y") fun _ _ => rfl
  refine ⟨arrivalOn_isPlain _, _, hlistening.event (arrivalOn "$x/y") nofun, ?_⟩
  exact ⟨rfl, rfl, rfl, rfl, rfl⟩

end Network

end CommandBus
