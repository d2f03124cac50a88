import CommandBus.Proofs.Broker.Handouts
import Mathlib

namespace CommandBus

namespace Session

/-- Of the packets that a client owes, those not acknowledged are kept and the others counted. -/
structure Balanced (acknowledged owed : List Nat) (s : Session) : Prop where
  unacked_eq : s.unacked = owed.filter (· ∉ acknowledged)
  sum_eq : s.acknowledged + s.unacked.length = owed.length

variable {s s' : Session} {acknowledged owed ids : List Nat} {n : Nat}

theorem settle_of_notMem (h : n ∉ s.unacked) : s.settle n = s := by
  rw [settle, if_neg (by simpa using h)]

theorem unacked_settle (h : s.unacked.Nodup) (n : Nat) :
    (s.settle n).unacked = s.unacked.filter (· ≠ n) := by
  rw [settle]
  split
  · refine (h.erase_eq_filter n).trans (List.filter_congr fun k _ => ?_)
    rw [Bool.eq_iff_iff, bne_iff_ne, decide_eq_true_iff]
  next hn =>
    refine (List.filter_eq_self.mpr fun k hk => ?_).symm
    exact decide_eq_true fun hkn => hn (by simpa [hkn] using hk)

theorem sum_settle (s : Session) (n : Nat) :
    (s.settle n).acknowledged + (s.settle n).unacked.length =
      s.acknowledged + s.unacked.length := by
  rw [settle]
  split
  next hn =>
    have hmem : n ∈ s.unacked := by simpa using hn
    have hpos := List.length_pos_of_mem hmem
    show s.acknowledged + 1 + (s.unacked.erase n).length = _
    rw [List.length_erase_of_mem hmem]
    omega
  · rfl

theorem foldl_settle (h : s.unacked.Nodup) (ids : List Nat) :
    (ids.foldl settle s).unacked = s.unacked.filter (· ∉ ids) ∧
      (ids.foldl settle s).acknowledged + (ids.foldl settle s).unacked.length =
        s.acknowledged + s.unacked.length := by
  induction ids generalizing s with
  | nil => simp
  | cons n rest ih =>
    have hn := unacked_settle h n
    obtain ⟨hu, hsum⟩ := ih (hn ▸ h.filter _)
    rw [List.foldl_cons]
    refine ⟨?_, hsum.trans (sum_settle s n)⟩
    rw [hu, hn, List.filter_filter]
    refine List.filter_congr fun k _ => ?_
    simp [Bool.and_comm]

theorem foldl_settle_of_notMem (h : ∀ n ∈ ids, n ∉ s.unacked) : ids.foldl settle s = s := by
  induction ids with
  | nil => rfl
  | cons n rest ih =>
    obtain ⟨hn, hrest⟩ := List.forall_mem_cons.mp h
    rw [List.foldl_cons, settle_of_notMem hn, ih hrest]

namespace Balanced

theorem congr (h : s.Balanced acknowledged owed) (hu : s'.unacked = s.unacked)
    (ha : s'.acknowledged = s.acknowledged) : s'.Balanced acknowledged owed :=
  ⟨hu.trans h.unacked_eq, by rw [ha, hu, h.sum_eq]⟩

theorem mem_unacked_iff (h : s.Balanced acknowledged owed) :
    n ∈ s.unacked ↔ n ∈ owed ∧ n ∉ acknowledged := by
  rw [h.unacked_eq, List.mem_filter, decide_eq_true_iff]

theorem settled (h : s.Balanced acknowledged owed) (hn : owed.Nodup) (ids : List Nat) :
    (ids.foldl settle s).Balanced (acknowledged ++ ids) owed := by
  obtain ⟨hu, hsum⟩ := foldl_settle (h.unacked_eq ▸ hn.filter _) ids
  refine ⟨?_, hsum.trans h.sum_eq⟩
  rw [hu, h.unacked_eq, List.filter_filter]
  refine List.filter_congr fun k _ => ?_
  simp [Bool.and_comm]

theorem handed (h : s.Balanced acknowledged owed) (hids : ∀ n ∈ ids, n ∉ acknowledged)
    (hu : s'.unacked = s.unacked ++ ids) (ha : s'.acknowledged = s.acknowledged) :
    s'.Balanced acknowledged (owed ++ ids) := by
  refine ⟨?_, ?_⟩
  · rw [hu, h.unacked_eq, List.filter_append,
      List.filter_eq_self.mpr fun n hn => decide_eq_true (hids n hn)]
  · rw [hu, ha, List.length_append, List.length_append, ← h.sum_eq, Nat.add_assoc]

end Balanced

end Session

namespace Broker

def Balanced (owed : String → List Nat) (b : Broker) : Prop :=
  ∀ p ∈ b.sessions, p.2.Balanced b.acks.acknowledged (owed p.1)

variable {b b' : Broker} {owed : String → List Nat} {token : AckToken} {m : Message}

namespace Balanced

theorem acknowledge (h : b.Balanced owed) (hn : ∀ client, (owed client).Nodup)
    (token : AckToken) : (b.acknowledge token).Balanced owed := by
  intro p' hp'
  obtain ⟨p, hp, rfl⟩ := List.mem_map.mp hp'
  exact (h p hp).settled (hn p.1) _

theorem acknowledgeAll (h : b.Balanced owed) (hn : ∀ client, (owed client).Nodup)
    (tokens : List AckToken) : (tokens.foldl Broker.acknowledge b).Balanced owed := by
  induction tokens generalizing b with
  | nil => exact h
  | cons token rest ih => exact ih (h.acknowledge hn token)

/-- Those who get a message owe its packet, and so does who has no receiver for it until that is
acknowledged. -/
theorem route (h : b.Balanced owed) (hb : b.Sound)
    (hn : ∀ client, (owed client ++ packetIds (handedTo client (b.handouts m))).Nodup) :
    (b.route m).2.Balanced
      fun client => owed client ++ packetIds (handedTo client (b.handouts m)) := by
  have hpasses := hb.passes m
  -- What found no receiver is acknowledged last, so all packets are handed out first, and none of
  -- them can have been acknowledged: their numbers are greater than any issued before.
  refine acknowledgeAll (fun p' hp' => ?_) hn (b.routing m).unclaimed
  have hp' : p' ∈ (b.routing m).sessions := hp'
  rw [hpasses.sessions_eq] at hp'
  obtain ⟨p, hp, rfl⟩ := List.mem_map.mp (show p' ∈ b.sessions.map _ from hp')
  show Session.Balanced (b.routing m).acks.acknowledged _ _
  rw [hpasses.acknowledged_eq]
  refine (h p hp).handed (fun n hn hacknowledged => ?_) rfl rfl
  have hmem : n ∈ packetIds (b.handouts m) := (packetIds_handedTo_sublist ..).subset hn
  rw [hpasses.packetIds_eq, List.mem_range'_1] at hmem
  exact absurd (hb.acknowledged_lt n hacknowledged) (Nat.not_lt.mpr hmem.1)

/-- Packets that no client owes, or that were acknowledged before, change nothing in the
sessions. -/
theorem acknowledge_eq (h : b.Balanced owed)
    (hids : ∀ n ∈ token.messages, n ∈ b.acks.acknowledged ∨ ∀ client, n ∉ owed client) :
    b.acknowledge token = { b with acks := b.acks.acknowledge token } := by
  have hsessions : (b.acknowledge token).sessions = b.sessions := by
    refine (List.map_congr_left fun p hp => ?_).trans (List.map_id _)
    refine Prod.ext rfl (Session.foldl_settle_of_notMem fun n hn hmem => ?_)
    obtain ⟨howed, hnot⟩ := (h p hp).mem_unacked_iff.mp hmem
    obtain hn | hn := hids n (AckLedger.mem_fresh.mp hn).1
    · exact hnot hn
    · exact hn _ howed
  show { b with
    acks := b.acks.acknowledge token, sessions := (b.acknowledge token).sessions } = _
  rw [hsessions]

end Balanced

end Broker

theorem AckLedger.acknowledge_of_subset {l : AckLedger} {token : AckToken}
    (h : token.messages ⊆ l.acknowledged) : l.acknowledge token = l := by
  have hfresh : l.fresh token = [] :=
    List.eq_nil_iff_forall_not_mem.mpr fun n hn =>
      (AckLedger.mem_fresh.mp hn).2 (h (AckLedger.mem_fresh.mp hn).1)
  rw [acknowledge, hfresh, List.append_nil]

end CommandBus
