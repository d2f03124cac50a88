import CommandBus.Proofs.Broker.Journal
import Mathlib

namespace CommandBus

namespace Broker

variable {o : Observed} {client : String} {hs : List Handout}

theorem eq_of_mem_messages {h h' : Handout} (hn : (packetIds hs).Nodup) (hh : h ∈ hs)
    (hh' : h' ∈ hs) {n : Nat} (hmem : n ∈ h.delivery.ack.messages)
    (hmem' : n ∈ h'.delivery.ack.messages) : h = h' := by
  by_contra hne
  have hsymm : Std.Symm (Function.onFun List.Disjoint fun h : Handout => h.delivery.ack.messages) :=
    ⟨fun _ _ => List.Disjoint.symm⟩
  exact (List.nodup_flatMap.mp hn).2.forall hh hh' hne hmem hmem'

theorem length_packetIds (hs : List Handout) (h : ∀ handout ∈ hs,
    handout.delivery.ack.messages.length =
      if handout.delivery.message.qos = .atMostOnce then 0 else 1) :
    (packetIds hs).length = hs.countP (·.delivery.message.qos ≠ .atMostOnce) := by
  induction hs with
  | nil => rfl
  | cons handout rest ih =>
    obtain ⟨hhandout, hrest⟩ := List.forall_mem_cons.mp h
    have hcons : packetIds (handout :: rest) = _ := List.flatMap_cons
    rw [hcons, List.length_append, ← packetIds, ih hrest, hhandout, List.countP_cons]
    split
    next hq => simp [hq]
    next hq => simp [hq, Nat.add_comm]

namespace Observed

theorem mem_since {h : Handout} (hh : h ∈ o.since client) : h.client = client ∧
    h ∈ (o.dispatches.drop (o.joined client)).flatMap Dispatch.handouts := by
  obtain ⟨hh, hc⟩ := List.mem_filter.mp hh
  exact ⟨of_decide_eq_true hc, hh⟩

namespace Tracks

theorem length_owed (h : o.Tracks) (client : String) : (o.owed client).length =
    (o.since client).countP (·.delivery.message.qos ≠ .atMostOnce) := by
  refine length_packetIds _ fun handout hh => ?_
  obtain ⟨d, hd, hh⟩ := List.mem_flatMap.mp (mem_since hh).2
  exact (h.routed d (List.mem_of_mem_drop hd)).length_messages handout hh

theorem notMem_owed (h : o.Tracks) {handout : Handout} (hh : handout ∈ o.earlier client) {n : Nat}
    (hn : n ∈ handout.delivery.ack.messages) (client' : String) : n ∉ o.owed client' := by
  intro hmem
  obtain ⟨hh, hc⟩ := List.mem_filter.mp hh
  obtain rfl : handout.client = client := of_decide_eq_true hc
  obtain ⟨handout', hh', hn'⟩ := List.mem_flatMap.mp hmem
  obtain ⟨rfl, hh'⟩ := mem_since hh'
  have hnodup := h.nodup_packetIds
  have hsame : handout = handout' := by
    refine eq_of_mem_messages hnodup ?_ ?_ hn hn'
    · exact ((List.take_sublist ..).flatMap _).subset hh
    · exact ((List.drop_sublist ..).flatMap _).subset hh'
  rw [handouts, ← List.take_append_drop (o.joined handout.client) o.dispatches,
    List.flatMap_append, packetIds_append] at hnodup
  refine List.disjoint_of_nodup_append hnodup (List.mem_flatMap.mpr ⟨_, hh, hn⟩) ?_
  rw [hsame]
  exact List.mem_flatMap.mpr ⟨_, hh', hn'⟩

end Tracks

theorem numbers_routeAll (o : Observed) (ps : List (Nat × Message)) :
    (ps.foldl route o).dispatches.map (·.number) =
      o.dispatches.map (·.number) ++ ps.map Prod.fst := by
  induction ps generalizing o with
  | nil => exact (List.append_nil _).symm
  | cons p rest ih =>
    rw [List.foldl_cons, ih, route, List.map_append, List.append_assoc]
    rfl

end Observed

/-- The broker accounts for every message. In every run each message that is accepted is routed
once, discarded or still held back, and what is held back is released in the order in which it was
accepted or in the reverse of that. What is routed goes to each client that hears it. No two packets
have one number. The packets handed out to a client since it last connected are acknowledged or
unacknowledged; a packet from before that or one that was acknowledged changes nothing. -/
theorem every_message_accounted {max : Option Nat} {past : List Act} (h : Run max past o) :
    o.broker = Broker.after { maxPacketSize := max } past ∧
    (o.dispatches.map (·.number) ++ o.dropped ++ o.held.map Prod.fst).Perm
      (List.range o.accepted.length) ∧
    (∀ d ∈ o.dispatches, o.accepted[d.number]? = some d.message ∧
      d.before.Routed d.message d.after d.handouts) ∧
    (o.broker.held = o.held.map Prod.snd ∧ (∀ p ∈ o.held, o.accepted[p.1]? = some p.2) ∧
      (o.held.map Prod.fst).Pairwise (· < ·) ∧
      ∀ reverse, (o.perform (.release reverse)).dispatches.map (·.number) =
        o.dispatches.map (·.number) ++
          if reverse then (o.held.map Prod.fst).reverse else o.held.map Prod.fst) ∧
    (packetIds o.handouts = List.range o.broker.acks.issued ∧ (packetIds o.handouts).Nodup) ∧
    (∀ k, o.broker.mailboxes.waiting k <:+ sentTo k o.handouts) ∧
    (∀ client s, o.broker.session? client = some s →
      s.acknowledged + s.unacked.length =
        (o.since client).countP (·.delivery.message.qos ≠ .atMostOnce) ∧
      ∀ n, n ∈ s.unacked ↔ n ∈ packetIds (o.since client) ∧ n ∉ o.broker.acks.acknowledged) ∧
    (∀ client, o.broker.isConnected client = true →
      o.broker.acknowledgedCount client + o.broker.unackedCount client =
        (o.since client).countP (·.delivery.message.qos ≠ .atMostOnce)) ∧
    (∀ client, ∀ handout ∈ o.earlier client,
      o.broker.acknowledge handout.delivery.ack =
        { o.broker with acks := o.broker.acks.acknowledge handout.delivery.ack }) ∧
    ∀ token, .acknowledge token ∈ past → o.broker.acknowledge token = o.broker := by
  have htracks := h.tracks
  have hnumbered := h.numbered
  have hsession (client : String) (s : Session) (hs : o.broker.session? client = some s) :
      s.acknowledged + s.unacked.length =
          (o.since client).countP (·.delivery.message.qos ≠ .atMostOnce) ∧
        ∀ n, n ∈ s.unacked ↔
          n ∈ packetIds (o.since client) ∧ n ∉ o.broker.acks.acknowledged := by
    have hbalanced := htracks.balanced _ (Association.mem_of_lookup hs)
    exact ⟨hbalanced.sum_eq.trans (htracks.length_owed client),
      fun n => hbalanced.mem_unacked_iff⟩
  refine ⟨h.broker_eq, ?_, fun d hd => ⟨hnumbered.dispatched d hd, htracks.routed d hd⟩,
    ⟨htracks.held_eq, fun p hp => hnumbered.kept p (List.mem_append_left _ hp), hnumbered.sorted,
      fun reverse => ?_⟩, ⟨htracks.packetIds_eq, htracks.nodup_packetIds⟩, htracks.waiting_suffix,
    hsession, fun client hc => ?_,
    fun client handout hh => ?_, fun token ht => ?_⟩
  · rw [← List.append_nil o.held]
    exact hnumbered.perm
  · refine (Observed.numbers_routeAll ..).trans (congrArg _ ?_)
    cases reverse
    · rfl
    · exact List.map_reverse
  · rw [isConnected, Option.isSome_iff_exists] at hc
    obtain ⟨s, hs⟩ := hc
    rw [acknowledgedCount, unackedCount, hs]
    rw [connected?, Option.filter_eq_some_iff] at hs
    exact (hsession client s hs.1).1
  · exact htracks.balanced.acknowledge_eq fun n hn => .inr (htracks.notMem_owed hh hn)
  · have hsubset : token.messages ⊆ o.broker.acks.acknowledged := by
      rw [h.broker_eq]
      exact messages_subset_acknowledged ht
    rw [htracks.balanced.acknowledge_eq fun n hn => .inl (hsubset hn),
      AckLedger.acknowledge_of_subset hsubset]

/-- A message on a topic that both subscriptions of a client match. Then the client connects again,
and two messages are held back and released in reverse, for which it has no receiver; at last it
acknowledges the first message. -/
def reconnecting : List Act :=
  [.acknowledge ⟨[0]⟩, .release true, .publish "a" { topic := "t/z", qos := .atLeastOnce },
    .publish "a" { topic := "t/y", qos := .exactlyOnce }, .hold ⟨[], true⟩,
    .subscribe "a" "t/#" .atLeastOnce, .connect "a",
    .publish "a" { topic := "t/x", qos := .exactlyOnce }, .receiver "a" "t/#",
    .subscribe "a" "+/x" .exactlyOnce, .subscribe "a" "t/#" .atLeastOnce, .connect "a"]

theorem reconnecting_accounted : ∃ o, Run none reconnecting o ∧
    o.dispatches.map (·.number) = [0, 2, 1] ∧
    o.broker.acknowledgedCount "a" + o.broker.unackedCount "a" = 2 ∧
    o.broker.acknowledge ⟨[0]⟩ = o.broker := by
  have hreleased : Run none reconnecting.tail _ :=
    Run.start.extend reconnecting.tail (by simp [reconnecting, Observed.Allows])
  have hrun : Run none reconnecting _ :=
    hreleased.step (.acknowledge ⟨[0]⟩) (show [0] ⊆ _ by decide)
  obtain ⟨-, -, -, -, -, -, -, hcount, -, htwice⟩ := every_message_accounted hrun
  exact ⟨_, hrun, by decide, (hcount "a" (by decide)).trans (by decide), htwice _ List.mem_cons_self⟩

end Broker

end CommandBus
