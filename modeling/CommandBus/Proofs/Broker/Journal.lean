import CommandBus.Proofs.Broker.Acts
import Mathlib

namespace CommandBus

namespace Broker

/-- A message that is routed, by its number among those accepted, and the broker before that. -/
structure Dispatch where
  number : Nat
  message : Message
  before : Broker

namespace Dispatch

def after (d : Dispatch) : Broker :=
  (d.before.route d.message).2

def handouts (d : Dispatch) : List Handout :=
  d.before.handouts d.message

end Dispatch

/-- A broker, and a journal of what became of the messages that it accepted. -/
structure Observed where
  broker : Broker
  /-- The messages that were accepted, each of which is known by its position. -/
  accepted : List Message := []
  held : List (Nat × Message) := []
  dropped : List Nat := []
  dispatches : List Dispatch := []
  /-- How many dispatches there were when a client last connected. -/
  joined : String → Nat := fun _ => 0

namespace Observed

def accept (o : Observed) (m : Message) : Observed :=
  { o with accepted := o.accepted ++ [m] }

def keep (o : Observed) (p : Nat × Message) : Observed :=
  { o with
    broker := { o.broker with held := o.broker.held ++ [p.2] }
    held := o.held ++ [p] }

def route (o : Observed) (p : Nat × Message) : Observed :=
  { o with
    broker := (o.broker.route p.2).2
    dispatches := o.dispatches ++ [⟨p.1, p.2, o.broker⟩] }

def publish (o : Observed) (client : String) (m : Message) : Observed :=
  match (o.broker.publish client m).1 with
  | .error _ => o
  | .ok _ =>
    let p := (o.accepted.length, m)
    if o.broker.holding.elim false (·.accepts m.topic) then (o.accept m).keep p
    else (o.accept m).route p

def emptied (o : Observed) : Observed :=
  { o with broker := { o.broker with holding := none, held := [] }, held := [] }

def release (o : Observed) (reverse : Bool) : Observed :=
  (if reverse then o.held.reverse else o.held).foldl route o.emptied

def dropHeld (o : Observed) : Observed :=
  { o.emptied with dropped := o.dropped ++ o.held.map Prod.fst }

def connect (o : Observed) (client : String) : Observed :=
  { o with
    broker := o.broker.connect client
    joined := Function.update o.joined client o.dispatches.length }

def perform (o : Observed) : Act → Observed
  | .connect client => o.connect client
  | .publish client m => o.publish client m
  | .release reverse => o.release reverse
  | .dropHeld => o.dropHeld
  | a => { o with broker := o.broker.perform a }

def handouts (o : Observed) : List Handout :=
  o.dispatches.flatMap Dispatch.handouts

def since (o : Observed) (client : String) : List Handout :=
  handedTo client ((o.dispatches.drop (o.joined client)).flatMap Dispatch.handouts)

def earlier (o : Observed) (client : String) : List Handout :=
  handedTo client ((o.dispatches.take (o.joined client)).flatMap Dispatch.handouts)

def owed (o : Observed) (client : String) : List Nat :=
  packetIds (o.since client)

def Allows (o : Observed) : Act → Prop
  | .acknowledge token => token.messages ⊆ packetIds o.handouts
  | _ => True

end Observed

inductive Run (max : Option Nat) : List Act → Observed → Prop
  | start : Run max [] { broker := { maxPacketSize := max } }
  | step {past : List Act} {o : Observed} (h : Run max past o) (a : Act) (ha : o.Allows a) :
      Run max (a :: past) (o.perform a)

variable {o o' : Observed} {p : Nat × Message} {ps : List (Nat × Message)} {m : Message}
  {client : String} {hs : List Handout}

namespace Observed

theorem broker_routeAll (o : Observed) (ps : List (Nat × Message)) :
    (ps.foldl route o).broker =
      (ps.map Prod.snd).foldl (fun b m => (b.route m).2) o.broker := by
  induction ps generalizing o with
  | nil => rfl
  | cons p rest ih => exact ih (o.route p)

theorem broker_perform (h : o.broker.held = o.held.map Prod.snd) (a : Act) :
    (o.perform a).broker = o.broker.perform a := by
  cases a with
  | publish client m =>
    show (o.publish client m).broker = (o.broker.publish client m).2
    rw [publish]
    obtain ⟨e, heq⟩ | ⟨hh, heq⟩ | ⟨hh, heq⟩ := o.broker.publish_cases client m
    · simp only [heq]
    · simp only [heq, hh]
      rfl
    · simp only [heq, hh]
      rfl
  | release reverse =>
    show (o.release reverse).broker = o.broker.release reverse
    rw [release, broker_routeAll, Broker.release, h]
    cases reverse
    · rfl
    · simp only [if_true, List.map_reverse]
      rfl
  | connect | disconnect | subscribe | unsubscribe | receiver | hold | dropHeld | acknowledge
  | take | close => rfl

/-- What the broker does about packets is in the journal, and so is all that waits in mailboxes. -/
structure Tracks (o : Observed) : Prop where
  sound : o.broker.Sound
  balanced : o.broker.Balanced o.owed
  packetIds_eq : packetIds o.handouts = List.range o.broker.acks.issued
  joined_le : ∀ client, o.joined client ≤ o.dispatches.length
  routed : ∀ d ∈ o.dispatches, d.before.Routed d.message d.after d.handouts
  held_eq : o.broker.held = o.held.map Prod.snd
  waiting_suffix : ∀ k, o.broker.mailboxes.waiting k <:+ sentTo k o.handouts

theorem handouts_route (o : Observed) (p : Nat × Message) :
    (o.route p).handouts = o.handouts ++ o.broker.handouts p.2 := by
  rw [handouts, route, List.flatMap_append, List.flatMap_singleton]
  rfl

theorem owed_route (h : o.joined client ≤ o.dispatches.length) (p : Nat × Message) :
    (o.route p).owed client =
      o.owed client ++ packetIds (handedTo client (o.broker.handouts p.2)) := by
  rw [owed, since, route, List.drop_append_of_le_length h, List.flatMap_append,
    List.flatMap_singleton, handedTo, List.filter_append]
  exact packetIds_append ..

theorem owed_connect (o : Observed) (client : String) :
    (o.connect client).owed = Function.update o.owed client [] := by
  funext client'
  rw [owed, since, connect]
  dsimp only
  by_cases heq : client' = client
  · rw [heq, Function.update_self, Function.update_self, List.drop_length]
    rfl
  · rw [Function.update_of_ne heq, Function.update_of_ne heq]
    rfl

theorem owed_sublist (o : Observed) (client : String) :
    (o.owed client).Sublist (packetIds o.handouts) :=
  (packetIds_handedTo_sublist ..).trans
    (((List.drop_sublist ..).flatMap Dispatch.handouts).flatMap _)

namespace Tracks

theorem nodup_packetIds (h : o.Tracks) : (packetIds o.handouts).Nodup := by
  rw [h.packetIds_eq]
  exact List.nodup_range

theorem nodup_owed (h : o.Tracks) (client : String) : (o.owed client).Nodup :=
  h.nodup_packetIds.sublist (o.owed_sublist client)

theorem packetIds_route (h : o.Tracks) (p : Nat × Message) :
    packetIds (o.route p).handouts = List.range (o.route p).broker.acks.issued := by
  have hissued : (o.route p).broker.acks.issued = _ := issued_route h.sound p.2
  rw [hissued, handouts_route, packetIds_append, h.packetIds_eq, List.range_eq_range',
    List.range_eq_range', ← List.range'_append_1, Nat.zero_add]
  exact congrArg _ (h.sound.passes p.2).packetIds_eq

theorem route (h : o.Tracks) (p : Nat × Message) : (o.route p).Tracks where
  sound := h.sound.route p.2
  balanced := by
    have howed (client : String) := owed_route (h.joined_le client) p
    have hnodup (client : String) : ((o.route p).owed client).Nodup :=
      (h.packetIds_route p ▸ List.nodup_range).sublist ((o.route p).owed_sublist client)
    rw [funext howed]
    exact h.balanced.route h.sound fun client => howed client ▸ hnodup client
  packetIds_eq := h.packetIds_route p
  joined_le client := by
    rw [Observed.route, List.length_append]
    exact (h.joined_le client).trans (Nat.le_add_right _ _)
  routed d hd := by
    obtain hd | hd := List.mem_append.mp hd
    · exact h.routed d hd
    · rw [List.mem_singleton.mp hd]
      exact h.sound.routed p.2
  held_eq := (held_route _ _).trans h.held_eq
  waiting_suffix k := by
    have hwaiting : (o.route p).broker.mailboxes.waiting k = _ :=
      (congrArg (·.waiting k) (route_frame o.broker p.2).1).trans
        ((h.sound.passes p.2).waiting_eq k)
    rw [hwaiting, handouts_route, sentTo_append]
    exact List.suffix_append_self_iff.mpr (h.waiting_suffix k)

theorem routeAll (h : o.Tracks) (ps : List (Nat × Message)) :
    (ps.foldl Observed.route o).Tracks := by
  induction ps generalizing o with
  | nil => exact h
  | cons p rest ih => exact ih (h.route p)

theorem update (h : o.Tracks) {b : Broker} {held : List (Nat × Message)} (hsound : b.Sound)
    (hbalanced : b.Balanced o.owed) (hissued : b.acks.issued = o.broker.acks.issued)
    (hheld : b.held = held.map Prod.snd)
    (hwaiting : ∀ k, b.mailboxes.waiting k <:+ o.broker.mailboxes.waiting k) :
    { o with broker := b, held }.Tracks where
  sound := hsound
  balanced := hbalanced
  packetIds_eq := h.packetIds_eq.trans (congrArg List.range hissued.symm)
  joined_le := h.joined_le
  routed := h.routed
  held_eq := hheld
  waiting_suffix k := (hwaiting k).trans (h.waiting_suffix k)

theorem emptied (h : o.Tracks) : o.emptied.Tracks :=
  h.update (h.sound.congr rfl rfl rfl) h.balanced rfl rfl fun _ => List.suffix_rfl

theorem accept (h : o.Tracks) (m : Message) : (o.accept m).Tracks :=
  { h with held_eq := h.held_eq }

theorem keep (h : o.Tracks) (p : Nat × Message) : (o.keep p).Tracks := by
  refine h.update (h.sound.congr rfl rfl rfl) h.balanced rfl ?_ fun _ => List.suffix_rfl
  rw [List.map_append, ← h.held_eq]
  rfl

theorem acknowledge (h : o.Tracks) {token : AckToken}
    (ht : token.messages ⊆ packetIds o.handouts) :
    { o with broker := o.broker.acknowledge token }.Tracks := by
  rw [h.packetIds_eq] at ht
  exact h.update (h.sound.acknowledge fun n hn => List.mem_range.mp (ht hn))
    (h.balanced.acknowledge h.nodup_owed token) rfl h.held_eq fun _ => List.suffix_rfl

theorem of_quiet (h : o.Tracks) {b : Broker} (hb : Quiet o.broker b) :
    { o with broker := b }.Tracks :=
  h.update (hb.sound h.sound) (hb.balanced _ h.balanced) (congrArg AckLedger.issued hb.acks_eq)
    (hb.held_eq.trans h.held_eq) hb.waiting_suffix

theorem publish (h : o.Tracks) (client : String) (m : Message) : (o.publish client m).Tracks := by
  rw [Observed.publish]
  split
  next => exact h
  next =>
    dsimp only
    split
    · exact (h.accept m).keep _
    · exact (h.accept m).route _

theorem connect (h : o.Tracks) (client : String) : (o.connect client).Tracks := by
  obtain ⟨hsound, hbalanced, hacks, hheld, hwaiting⟩ := connect_frame o.broker client
  refine ⟨hsound h.sound, owed_connect o client ▸ hbalanced _ h.balanced, h.packetIds_eq.trans ?_,
    fun client' => ?_, h.routed, hheld.trans h.held_eq,
    fun k => (hwaiting k).symm ▸ h.waiting_suffix k⟩
  · show _ = List.range (o.broker.connect client).acks.issued
    rw [hacks]
  · show Function.update o.joined client o.dispatches.length client' ≤ o.dispatches.length
    by_cases heq : client' = client
    · rw [heq, Function.update_self]
    · rw [Function.update_of_ne heq]
      exact h.joined_le client'

theorem perform (h : o.Tracks) {a : Act} (ha : o.Allows a) : (o.perform a).Tracks := by
  cases a with
  | connect client => exact h.connect client
  | disconnect => exact h.of_quiet (.disconnect ..)
  | subscribe => exact h.of_quiet (.subscribe ..)
  | unsubscribe => exact h.of_quiet (.unsubscribe ..)
  | receiver => exact h.of_quiet (.receiver ..)
  | publish client m => exact h.publish client m
  | hold => exact h.of_quiet (.hold ..)
  | release reverse => exact h.emptied.routeAll _
  | dropHeld => exact { h.emptied with held_eq := rfl }
  | acknowledge token => exact h.acknowledge ha
  | take => exact h.of_quiet (.take ..)
  | close => exact h.of_quiet (.close ..)

end Tracks

/-- Every message that was accepted is in one place: routed, discarded, held back, or pending. -/
structure Numbered (o : Observed) (pending : List (Nat × Message)) : Prop where
  perm : (o.dispatches.map (·.number) ++ o.dropped ++ (o.held ++ pending).map Prod.fst).Perm
    (List.range o.accepted.length)
  dispatched : ∀ d ∈ o.dispatches, o.accepted[d.number]? = some d.message
  kept : ∀ p ∈ o.held ++ pending, o.accepted[p.1]? = some p.2
  sorted : (o.held.map Prod.fst).Pairwise (· < ·)

namespace Numbered

theorem getElem?_accept {k : Nat} {n : Message} (h : o.accepted[k]? = some n) (m : Message) :
    (o.accept m).accepted[k]? = some n :=
  (List.getElem?_append_left (List.getElem?_eq_some_iff.mp h).1).trans h

theorem accept (h : o.Numbered []) (m : Message) :
    (o.accept m).Numbered [(o.accepted.length, m)] where
  perm := by
    have hperm := h.perm.append_right [o.accepted.length]
    rw [← List.range_succ, List.append_nil, List.append_assoc] at hperm
    rw [List.map_append, Observed.accept, List.length_append]
    exact hperm
  dispatched d hd := getElem?_accept (h.dispatched d hd) m
  kept p hp := by
    obtain hp | hp := List.mem_append.mp hp
    · exact getElem?_accept (h.kept p (List.mem_append_left _ hp)) m
    · rw [List.mem_singleton.mp hp]
      exact List.getElem?_concat_length
  sorted := h.sorted

theorem route (h : o.Numbered (p :: ps)) : (o.route p).Numbered ps where
  perm := by
    -- Its number moves from the pending ones to the dispatches.
    refine List.Perm.trans (List.perm_iff_count.mpr fun k => ?_) h.perm
    simp only [Observed.route, List.map_append, List.map_cons, List.map_nil, List.count_append,
      List.count_cons, List.count_nil]
    omega
  dispatched d hd := by
    obtain hd | hd := List.mem_append.mp hd
    · exact h.dispatched d hd
    · rw [List.mem_singleton.mp hd]
      exact h.kept p (List.mem_append_right _ List.mem_cons_self)
  kept q hq := h.kept q (((List.sublist_cons_self p ps).append_left o.held).subset hq)
  sorted := h.sorted

theorem routeAll (h : o.Numbered ps) : (ps.foldl Observed.route o).Numbered [] := by
  induction ps generalizing o with
  | nil => exact h
  | cons p rest ih => exact ih h.route

theorem keep (h : o.Numbered [p]) (hp : ∀ q ∈ o.held, q.1 < p.1) : (o.keep p).Numbered [] where
  perm := by
    rw [List.append_nil]
    exact h.perm
  dispatched := h.dispatched
  kept := by
    rw [List.append_nil]
    exact h.kept
  sorted := by
    rw [Observed.keep, List.map_append, List.pairwise_append]
    refine ⟨h.sorted, List.pairwise_singleton .., fun k hk k' hk' => ?_⟩
    obtain ⟨q, hq, rfl⟩ := List.mem_map.mp hk
    rw [List.mem_singleton.mp hk']
    exact hp q hq

theorem emptied (h : o.Numbered []) (hps : ps.Perm o.held) : o.emptied.Numbered ps where
  perm := by
    refine List.Perm.trans ((hps.map Prod.fst).append_left _) ?_
    rw [← List.append_nil o.held]
    exact h.perm
  dispatched := h.dispatched
  kept q hq := h.kept q (List.mem_append_left _ (hps.mem_iff.mp hq))
  sorted := .nil

theorem dropHeld (h : o.Numbered []) : o.dropHeld.Numbered [] where
  perm := by
    have hperm := h.perm
    rw [List.append_nil, List.append_assoc] at hperm
    exact (List.append_nil _).symm ▸ hperm
  dispatched := h.dispatched
  kept := List.forall_mem_nil _
  sorted := .nil

theorem lt_length (h : o.Numbered ps) (hp : p ∈ o.held) : p.1 < o.accepted.length :=
  (List.getElem?_eq_some_iff.mp (h.kept p (List.mem_append_left _ hp))).1

theorem publish (h : o.Numbered []) (client : String) (m : Message) :
    (o.publish client m).Numbered [] := by
  rw [Observed.publish]
  split
  next => exact h
  next =>
    dsimp only
    split
    · exact (h.accept m).keep fun q hq => h.lt_length hq
    · exact (h.accept m).route

theorem perform (h : o.Numbered []) (a : Act) : (o.perform a).Numbered [] := by
  cases a with
  | publish client m => exact h.publish client m
  | release reverse =>
    refine routeAll (h.emptied ?_)
    split
    · exact List.reverse_perm _
    · exact .refl _
  | dropHeld => exact h.dropHeld
  | connect | disconnect | subscribe | unsubscribe | receiver | hold | acknowledge | take
  | close => exact { h with sorted := h.sorted }

end Numbered

end Observed

namespace Run

variable {max : Option Nat} {past : List Act}

theorem extend (h : Run max past o)
    (acts : List Act) (hacts : ∀ a ∈ acts, ∀ o : Observed, o.Allows a) :
    Run max (acts ++ past) (acts.foldr (fun a o => o.perform a) o) := by
  induction acts with
  | nil => exact h
  | cons a rest ih =>
    obtain ⟨ha, hrest⟩ := List.forall_mem_cons.mp hacts
    exact (ih hrest).step a (ha _)

theorem tracks (h : Run max past o) : o.Tracks := by
  induction h with
  | start =>
    have hsound : Broker.Sound { maxPacketSize := max } :=
      ⟨List.nodup_nil, List.forall_mem_nil _, List.forall_mem_nil _, List.forall_mem_nil _,
        List.forall_mem_nil _⟩
    exact ⟨hsound, List.forall_mem_nil _, rfl, fun _ => le_rfl, List.forall_mem_nil _, rfl,
      fun _ => List.nil_suffix⟩
  | step _ a ha ih => exact ih.perform ha

theorem numbered (h : Run max past o) : o.Numbered [] := by
  induction h with
  | start => exact ⟨.refl _, List.forall_mem_nil _, List.forall_mem_nil _, .nil⟩
  | step _ a _ ih => exact ih.perform a

theorem broker_eq (h : Run max past o) :
    o.broker = Broker.after { maxPacketSize := max } past := by
  induction h with
  | start => rfl
  | step h a _ ih =>
    rw [Observed.broker_perform h.tracks.held_eq, ih]
    rfl

end Run

end Broker

end CommandBus
