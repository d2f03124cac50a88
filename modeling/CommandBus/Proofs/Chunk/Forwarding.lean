import CommandBus.Proofs.Chunk.Handover
import Mathlib

namespace CommandBus

namespace Mailboxes

variable {m : Mailboxes} {d : Delivery} {k id : Nat} {receivers : Receivers}

def hasSender (m : Mailboxes) (id : Nat) : Bool :=
  m.boxes[id]?.elim false Mailbox.hasSender

theorem hasReader_happen {f : Mailbox → Mailbox} (hf : ∀ box, (f box).hasReader = box.hasReader)
    (m : Mailboxes) (id k : Nat) : (m.happen id f).hasReader k = m.hasReader k := by
  simp only [happen, modify, hasReader, List.getElem?_modify]
  cases m.boxes[k]? with
  | none => rfl
  | some box =>
    simp only [Option.map_eq_map, Option.map_some, Option.elim_some]
    split
    · split <;> exact hf box
    · rfl

theorem hasReader_put (m : Mailboxes) (id : Nat) (d : Delivery) (k : Nat) :
    (m.put id d).hasReader k = m.hasReader k := by
  apply hasReader_happen
  intro box
  rfl

theorem hasReader_dropSender (m : Mailboxes) (id k : Nat) :
    (m.dropSender id).hasReader k = m.hasReader k := by
  apply hasReader_happen
  intro box
  rfl

theorem hasSender_happen {f : Mailbox → Mailbox} (m : Mailboxes)
    (hf : id = k → ∀ box, (f box).hasSender = box.hasSender) :
    (m.happen id f).hasSender k = m.hasSender k := by
  simp only [happen, modify, hasSender, List.getElem?_modify]
  cases m.boxes[k]? with
  | none => rfl
  | some box =>
    simp only [Option.map_eq_map, Option.map_some, Option.elim_some]
    split
    next h => split <;> exact hf h box
    next => rfl

theorem length_dropSender (m : Mailboxes) (id : Nat) :
    (m.dropSender id).boxes.length = m.boxes.length := by
  simp [dropSender, happen, modify]

theorem putAll_frame (m : Mailboxes) (receivers : Receivers) (d : Delivery) (k : Nat) :
    (receivers.foldl (fun m (_, id) => m.put id d) m).hasReader k = m.hasReader k ∧
      (receivers.foldl (fun m (_, id) => m.put id d) m).hasSender k = m.hasSender k ∧
      (receivers.foldl (fun m (_, id) => m.put id d) m).boxes.length = m.boxes.length := by
  induction receivers generalizing m with
  | nil => exact ⟨rfl, rfl, rfl⟩
  | cons receiver rest ih =>
    obtain ⟨hr, hs, hl⟩ := ih (m.put receiver.2 d)
    exact ⟨hr.trans (hasReader_put ..), hs.trans (hasSender_happen m fun _ _ => rfl),
      hl.trans (length_put ..)⟩

theorem dropSenders_frame (m : Mailboxes) (receivers : Receivers) (k : Nat) :
    (m.dropSenders receivers).hasReader k = m.hasReader k ∧
      ((∀ r ∈ receivers, r.2 ≠ k) → (m.dropSenders receivers).hasSender k = m.hasSender k) ∧
      (m.dropSenders receivers).boxes.length = m.boxes.length := by
  rw [dropSenders]
  induction receivers generalizing m with
  | nil => exact ⟨rfl, fun _ => rfl, rfl⟩
  | cons receiver rest ih =>
    obtain ⟨hr, hs, hl⟩ := ih (m.dropSender receiver.2)
    refine ⟨hr.trans (hasReader_dropSender ..), fun hne => ?_,
      hl.trans (length_dropSender ..)⟩
    rw [List.forall_mem_cons] at hne
    exact (hs hne.2).trans (hasSender_happen m fun h => absurd h hne.1)

theorem hasReader_deliver (m : Mailboxes) (receivers : Receivers) (d : Delivery) (k : Nat) :
    (m.deliver receivers d).2.2.hasReader k = m.hasReader k :=
  (dropSenders_frame ..).1.trans (putAll_frame ..).1

theorem length_deliver (m : Mailboxes) (receivers : Receivers) (d : Delivery) :
    (m.deliver receivers d).2.2.boxes.length = m.boxes.length :=
  (dropSenders_frame _ _ 0).2.2.trans (putAll_frame _ _ _ 0).2.2

theorem hasSender_deliver (h : m.hasReader k = true) :
    (m.deliver receivers d).2.2.hasSender k = m.hasSender k := by
  refine ((dropSenders_frame _ _ k).2.1 fun r hr heq => ?_).trans (putAll_frame ..).2.1
  have hgone : (!m.hasReader r.2) = true := (List.mem_filter.mp hr).2
  rw [heq, h] at hgone
  cases hgone

def takers (m : Mailboxes) (receivers : Receivers) (topic : String) : Receivers :=
  (receivers.filter fun (f, _) => f.accepts topic).filter fun (_, id) => m.hasReader id

theorem waiting_deliver (h : k < m.boxes.length) (receivers : Receivers) (d : Delivery) :
    (m.deliver receivers d).2.2.waiting k = m.waiting k ++
      List.replicate (((m.takers receivers d.message.topic).map Prod.snd).count k) d := by
  simp only [deliver, waiting_dropSenders]
  exact waiting_putAll h _ d

theorem deliver_congr {m' : Mailboxes} (h : ∀ r ∈ receivers, m'.hasReader r.2 = m.hasReader r.2)
    (d : Delivery) : (m'.deliver receivers d).1 = (m.deliver receivers d).1 ∧
      (m'.deliver receivers d).2.1 = (m.deliver receivers d).2.1 := by
  have hlive : m'.takers receivers d.message.topic = m.takers receivers d.message.topic :=
    List.filter_congr fun r hr => h r (List.mem_of_mem_filter hr)
  refine ⟨congrArg (fun l : Receivers => !l.isEmpty) hlive, List.filter_congr fun r hr => ?_⟩
  show (!r.1.accepts d.message.topic || m'.hasReader r.2) = _
  rw [h r hr]

theorem deliver_of_hasReader (h : ∀ r ∈ receivers, m.hasReader r.2 = true) (d : Delivery) :
    (m.deliver receivers d).1 = !(receivers.filter fun r => r.1.accepts d.message.topic).isEmpty ∧
      (m.deliver receivers d).2.1 = receivers ∧
      m.takers receivers d.message.topic =
        receivers.filter fun r => r.1.accepts d.message.topic := by
  have hlive : m.takers receivers d.message.topic =
      receivers.filter fun r => r.1.accepts d.message.topic :=
    List.filter_eq_self.mpr fun r hr => h r (List.mem_of_mem_filter hr)
  refine ⟨congrArg (fun l : Receivers => !l.isEmpty) hlive, ?_, hlive⟩
  refine List.filter_eq_self.mpr fun r hr => ?_
  show (!r.1.accepts d.message.topic || m.hasReader r.2) = true
  rw [h r hr, Bool.or_true]

theorem take?_eq_some {m' : Mailboxes} (h : m.take? id = some (d, m')) :
    m.waiting id = d :: m'.waiting id ∧ (∀ k, k ≠ id → m'.waiting k = m.waiting k) ∧
      (∀ k, m'.hasReader k = m.hasReader k) ∧ (∀ k, m'.hasSender k = m.hasSender k) ∧
      m'.boxes.length = m.boxes.length := by
  rw [take?] at h
  split at h
  next first rest hasSender hasReader since hbox =>
    cases h
    refine ⟨?_, fun k hk => ?_, fun k => ?_, fun k => ?_, List.length_modify ..⟩
    · simp [waiting, modify, hbox]
    · simp [waiting, modify, Ne.symm hk]
    · simp only [Mailboxes.hasReader, modify, List.getElem?_modify]
      cases m.boxes[k]? with
      | none => rfl
      | some box => by_cases hk : id = k <;> simp [hk]
    · simp only [Mailboxes.hasSender, modify, List.getElem?_modify]
      cases m.boxes[k]? with
      | none => rfl
      | some box => by_cases hk : id = k <;> simp [hk]
  next => cases h

theorem waiting_eq_nil_of_take? (h : m.take? id = none) : m.waiting id = [] := by
  rw [take?] at h
  rw [waiting]
  split at h
  · cases h
  next hne =>
    cases hbox : m.boxes[id]? with
    | none => rfl
    | some box =>
      cases hw : box.waiting with
      | nil => exact hw
      | cons first rest =>
        obtain ⟨waiting, hasSender, hasReader, since⟩ := box
        cases hw
        exact (hne _ _ _ _ _ hbox).elim

theorem getElem?_create (m : Mailboxes) (k : Nat) :
    m.create.2.boxes[k]? = if k = m.boxes.length then some {} else m.boxes[k]? := by
  rw [create]
  obtain hk | rfl | hk := Nat.lt_trichotomy k m.boxes.length
  · rw [List.getElem?_append_left hk, if_neg hk.ne]
  · rw [List.getElem?_concat_length, if_pos rfl]
  · have hl : (m.boxes ++ [({} : Mailbox)]).length ≤ k := by
      rw [List.length_append, List.length_singleton]
      exact hk
    rw [if_neg hk.ne', List.getElem?_eq_none hl, List.getElem?_eq_none hk.le]

theorem waiting_create (m : Mailboxes) (k : Nat) : m.create.2.waiting k = m.waiting k := by
  rw [waiting, getElem?_create]
  split
  next hk => rw [waiting, hk, List.getElem?_eq_none le_rfl, Option.elim_some, Option.elim_none]
  next => rfl

theorem hasReader_create (m : Mailboxes) (k : Nat) :
    m.create.2.hasReader k = if k = m.boxes.length then true else m.hasReader k := by
  rw [hasReader, getElem?_create]
  split <;> rfl

theorem hasSender_create (m : Mailboxes) (k : Nat) :
    m.create.2.hasSender k = if k = m.boxes.length then true else m.hasSender k := by
  rw [hasSender, getElem?_create]
  split <;> rfl

theorem length_create (m : Mailboxes) : m.create.2.boxes.length = m.boxes.length + 1 :=
  List.length_append

theorem waiting_of_length_le (h : m.boxes.length ≤ k) : m.waiting k = [] := by
  rw [waiting, List.getElem?_eq_none h, Option.elim_none]

end Mailboxes

namespace Filter

def everything : Filter where
  levels := []
  isOpen := true

theorem accepts_everything (topic : String) :
    everything.accepts topic = !isReservedTopic topic := by
  simp [accepts, everything, startsLiteral, acceptsLevels]

end Filter

open CommandBus.Filter (isReservedTopic)

/-- The receivers that are behind another mailbox, by which theirs are counted on. -/
def Receivers.behind (receivers : Receivers) : Receivers :=
  receivers.map fun r => (r.1, r.2 + 1)

def Receivers.on (receivers : Receivers) (topic : String) : Receivers :=
  receivers.filter fun r => r.1.accepts topic

def Receivers.share (receivers : Receivers) (topic : String) (k : Nat) : Nat :=
  ((receivers.on topic).map Prod.snd).count k

/-- What a mailbox will get of the deliveries that are yet to be forwarded. -/
def Receivers.due (receivers : Receivers) (k : Nat) (pending : List Delivery) : List Delivery :=
  pending.flatMap fun d => List.replicate (receivers.share d.message.topic k) d

/-- Two lists of mailboxes, the second with one more in front of those that the first ends with. -/
structure Aligned (front : Nat) (direct wrapped : Mailboxes) : Prop where
  length_eq : wrapped.boxes.length = direct.boxes.length + 1
  front_le : front ≤ direct.boxes.length
  hasReader_eq : ∀ k < front, wrapped.hasReader k = direct.hasReader k
  isRead : ∀ k, front ≤ k → k < direct.boxes.length →
    direct.hasReader k = true ∧ wrapped.hasReader (k + 1) = true
  isFrontRead : wrapped.hasReader front = true
  isFrontOpen : wrapped.hasSender front = true

namespace Aligned

variable {front : Nat} {direct wrapped : Mailboxes} {d : Delivery} {k : Nat}

theorem deliver (h : Aligned front direct wrapped) (rs rs' : Receivers) (d d' : Delivery) :
    Aligned front (direct.deliver rs d).2.2 (wrapped.deliver rs' d').2.2 where
  length_eq := by rw [Mailboxes.length_deliver, Mailboxes.length_deliver, h.length_eq]
  front_le := by
    rw [Mailboxes.length_deliver]
    exact h.front_le
  hasReader_eq k hk := by
    rw [Mailboxes.hasReader_deliver, Mailboxes.hasReader_deliver, h.hasReader_eq k hk]
  isRead k hk hlt := by
    rw [Mailboxes.length_deliver] at hlt
    rw [Mailboxes.hasReader_deliver, Mailboxes.hasReader_deliver]
    exact h.isRead k hk hlt
  isFrontRead := by rw [Mailboxes.hasReader_deliver, h.isFrontRead]
  isFrontOpen := by rw [Mailboxes.hasSender_deliver h.isFrontRead, h.isFrontOpen]

theorem ofCreate (m : Mailboxes) : Aligned m.boxes.length m m.create.2 where
  length_eq := Mailboxes.length_create m
  front_le := le_rfl
  hasReader_eq k hk := by rw [Mailboxes.hasReader_create, if_neg hk.ne]
  isRead k hk hlt := absurd hk hlt.not_ge
  isFrontRead := by rw [Mailboxes.hasReader_create, if_pos rfl]
  isFrontOpen := by rw [Mailboxes.hasSender_create, if_pos rfl]

theorem create (h : Aligned front direct wrapped) :
    Aligned front direct.create.2 wrapped.create.2 where
  length_eq := by rw [Mailboxes.length_create, Mailboxes.length_create, h.length_eq]
  front_le := by
    rw [Mailboxes.length_create]
    exact Nat.le_succ_of_le h.front_le
  hasReader_eq k hk := by
    have hle := h.front_le
    have heq := h.length_eq
    rw [Mailboxes.hasReader_create, Mailboxes.hasReader_create, if_neg (by omega),
      if_neg (by omega), h.hasReader_eq k hk]
  isRead k hk hlt := by
    rw [Mailboxes.length_create] at hlt
    rw [Mailboxes.hasReader_create, Mailboxes.hasReader_create, h.length_eq]
    by_cases hnew : k = direct.boxes.length
    · simp [hnew]
    · obtain ⟨hr, hr'⟩ := h.isRead k hk (by omega)
      simp [hnew, hr, hr']
  isFrontRead := by
    rw [Mailboxes.hasReader_create, h.isFrontRead, ite_self]
  isFrontOpen := by
    rw [Mailboxes.hasSender_create, h.isFrontOpen, ite_self]

theorem deliver_front (h : Aligned front direct wrapped) (d : Delivery) :
    (wrapped.deliver [(.everything, front)] d).1 = !isReservedTopic d.message.topic ∧
      (wrapped.deliver [(.everything, front)] d).2.1 = [(.everything, front)] ∧
      (wrapped.deliver [(.everything, front)] d).2.2.waiting front =
        wrapped.waiting front ++ (if isReservedTopic d.message.topic then [] else [d]) ∧
      ∀ k, k ≠ front → (wrapped.deliver [(.everything, front)] d).2.2.waiting k =
        wrapped.waiting k := by
  have hread : ∀ r ∈ [(Filter.everything, front)], wrapped.hasReader r.2 = true :=
    List.forall_mem_singleton.mpr h.isFrontRead
  obtain ⟨hreached, hleft, htakers⟩ := Mailboxes.deliver_of_hasReader hread d
  have hlt : front < wrapped.boxes.length := by
    rw [h.length_eq]
    exact Nat.lt_succ_of_le h.front_le
  have hfilter : ([(.everything, front)] : Receivers).filter
      (fun r => r.1.accepts d.message.topic) =
      if isReservedTopic d.message.topic then [] else [(.everything, front)] := by
    rw [List.filter_singleton, Filter.accepts_everything]
    cases isReservedTopic d.message.topic <;> rfl
  refine ⟨?_, hleft, ?_, fun k hk => ?_⟩
  · rw [hreached, hfilter]
    cases isReservedTopic d.message.topic <;> rfl
  · rw [Mailboxes.waiting_deliver hlt, htakers, hfilter]
    cases isReservedTopic d.message.topic <;> simp
  · by_cases hkl : k < wrapped.boxes.length
    · rw [Mailboxes.waiting_deliver hkl, htakers, hfilter]
      cases isReservedTopic d.message.topic <;> simp [Ne.symm hk]
    · rw [Mailboxes.waiting_of_length_le (not_lt.mp hkl), Mailboxes.waiting_of_length_le]
      rw [Mailboxes.length_deliver]
      exact not_lt.mp hkl

end Aligned

namespace Broker

/-- A message that is acknowledged, or will be at the end of the routing. -/
def Routing.IsSettled (r : Routing) (t : Nat) : Prop :=
  t ∈ r.acks.acknowledged ∨ ∃ ack ∈ r.unclaimed, t ∈ ack.messages

def IsUntaken (receivers : Receivers) (pending : List Delivery) (t : Nat) : Prop :=
  ∃ d ∈ pending, receivers.on d.message.topic = [] ∧ t ∈ d.ack.messages

def IsReservedAt (receivers : Receivers) (m : Mailboxes) (t : Nat) : Prop :=
  ∃ r ∈ receivers, ∃ d ∈ m.waiting r.2, isReservedTopic d.message.topic = true ∧ t ∈ d.ack.messages

/-- The same messages have been routed to receivers directly, and to a mailbox in front of them.
Behind that they get what is not on reserved topics; nobody gets the rest. -/
structure Mirrors (front : Nat) (receivers : Receivers) (direct wrapped : Routing) : Prop where
  issued_eq : wrapped.acks.issued = direct.acks.issued
  aligned : Aligned front direct.mailboxes wrapped.mailboxes
  inRange : ∀ r ∈ receivers, front ≤ r.2 ∧ r.2 < direct.mailboxes.boxes.length
  pending : ∀ d ∈ wrapped.mailboxes.waiting front, isReservedTopic d.message.topic = false ∧
    d.message.userProperty? ChunkMetadata.key = none
  waits : ∀ r ∈ receivers, wrapped.mailboxes.waiting (r.2 + 1) ++
      receivers.due r.2 (wrapped.mailboxes.waiting front) =
    (direct.mailboxes.waiting r.2).filter fun d => !isReservedTopic d.message.topic
  settled_iff : ∀ t,
    wrapped.IsSettled t ∨ IsUntaken receivers (wrapped.mailboxes.waiting front) t ↔
      direct.IsSettled t ∨ IsReservedAt receivers direct.mailboxes t

variable {front : Nat} {receivers : Receivers} {direct wrapped : Routing} {d : Delivery}

theorem share_pos_iff {topic : String} :
    receivers.on topic ≠ [] ↔ ∃ r ∈ receivers, 0 < receivers.share topic r.2 := by
  rw [← List.isEmpty_eq_false_iff, List.isEmpty_eq_false_iff_exists_mem]
  constructor
  · rintro ⟨r, hr⟩
    exact ⟨r, List.mem_of_mem_filter hr, List.count_pos_iff.mpr (List.mem_map_of_mem hr)⟩
  · rintro ⟨r, -, hr⟩
    obtain ⟨r', hr', -⟩ := List.mem_map.mp (List.count_pos_iff.mp hr)
    exact ⟨r', hr'⟩

theorem due_append (k : Nat) (pending later : List Delivery) :
    receivers.due k (pending ++ later) = receivers.due k pending ++ receivers.due k later :=
  List.flatMap_append

theorem due_singleton (k : Nat) (d : Delivery) :
    receivers.due k [d] = List.replicate (receivers.share d.message.topic k) d :=
  List.flatMap_singleton ..

theorem isUntaken_cons (d : Delivery) (pending : List Delivery) (t : Nat) :
    IsUntaken receivers (d :: pending) t ↔
      receivers.on d.message.topic = [] ∧ t ∈ d.ack.messages ∨ IsUntaken receivers pending t := by
  simp [IsUntaken]

theorem isUntaken_append (pending : List Delivery) (d : Delivery) (t : Nat) :
    IsUntaken receivers (pending ++ if isReservedTopic d.message.topic then [] else [d]) t ↔
      IsUntaken receivers pending t ∨ isReservedTopic d.message.topic = false ∧
        receivers.on d.message.topic = [] ∧ t ∈ d.ack.messages := by
  cases isReservedTopic d.message.topic <;> simp [IsUntaken, or_and_right, exists_or]

theorem isReservedAt_delivered {m m' : Mailboxes} {d : Delivery}
    (h : ∀ r ∈ receivers, m'.waiting r.2 = m.waiting r.2 ++
      List.replicate (receivers.share d.message.topic r.2) d) (t : Nat) :
    IsReservedAt receivers m' t ↔ IsReservedAt receivers m t ∨
      isReservedTopic d.message.topic = true ∧ receivers.on d.message.topic ≠ [] ∧
        t ∈ d.ack.messages := by
  rw [share_pos_iff]
  constructor
  · rintro ⟨r, hr, d', hd', hres, ht⟩
    rw [h r hr] at hd'
    obtain hd' | hd' := List.mem_append.mp hd'
    · exact .inl ⟨r, hr, d', hd', hres, ht⟩
    · obtain ⟨hpos, rfl⟩ := List.mem_replicate.mp hd'
      exact .inr ⟨hres, ⟨r, hr, Nat.pos_of_ne_zero hpos⟩, ht⟩
  · rintro (⟨r, hr, d', hd', hres, ht⟩ | ⟨hres, ⟨r, hr, hpos⟩, ht⟩)
    · exact ⟨r, hr, d', h r hr ▸ List.mem_append_left _ hd', hres, ht⟩
    · exact ⟨r, hr, d, h r hr ▸
        List.mem_append_right _ (List.mem_replicate.mpr ⟨hpos.ne', rfl⟩), hres, ht⟩

/-- What a session does with a message that found a receiver or did not. -/
def Routing.handed (r : Routing) (mailboxes : Mailboxes) (reached : Bool) (ack : AckToken) :
    Routing :=
  { r with mailboxes, unclaimed := if reached then r.unclaimed else r.unclaimed ++ [ack] }

theorem isSettled_handed (r : Routing) (mailboxes : Mailboxes) (reached : Bool) (ack : AckToken)
    (t : Nat) : (r.handed mailboxes reached ack).IsSettled t ↔
      r.IsSettled t ∨ reached = false ∧ t ∈ ack.messages := by
  cases reached with
  | true => simp [Routing.handed, Routing.IsSettled]
  | false =>
    simp only [Routing.handed, Routing.IsSettled, Bool.false_eq_true, if_false, List.mem_append,
      List.mem_singleton, or_and_right, exists_or, exists_eq_left, true_and, or_assoc]

namespace Mirrors

theorem ofCreate (r : Routing) :
    Mirrors r.mailboxes.boxes.length [] r { r with mailboxes := r.mailboxes.create.2 } where
  issued_eq := rfl
  aligned := .ofCreate r.mailboxes
  inRange := List.forall_mem_nil _
  pending := by
    rw [Mailboxes.waiting_create, Mailboxes.waiting_of_length_le le_rfl]
    exact List.forall_mem_nil _
  waits := List.forall_mem_nil _
  settled_iff t := by
    rw [Mailboxes.waiting_create, Mailboxes.waiting_of_length_le le_rfl]
    simp [IsUntaken, IsReservedAt, Routing.IsSettled]

theorem elsewhere (h : Mirrors front receivers direct wrapped) {rs : Receivers}
    (hrs : ∀ r ∈ rs, r.2 < front) (d : Delivery) :
    (wrapped.mailboxes.deliver rs d).1 = (direct.mailboxes.deliver rs d).1 ∧
      (wrapped.mailboxes.deliver rs d).2.1 = (direct.mailboxes.deliver rs d).2.1 ∧
      Mirrors front receivers
        (direct.handed (direct.mailboxes.deliver rs d).2.2 (direct.mailboxes.deliver rs d).1 d.ack)
        (wrapped.handed (wrapped.mailboxes.deliver rs d).2.2 (direct.mailboxes.deliver rs d).1
          d.ack) := by
  have hreader (r) (hr : r ∈ rs) :
      wrapped.mailboxes.hasReader r.2 = direct.mailboxes.hasReader r.2 :=
    h.aligned.hasReader_eq _ (hrs r hr)
  obtain ⟨hreached, hleft⟩ := Mailboxes.deliver_congr hreader d
  have hbehind (m : Mailboxes) {k : Nat} (hk : front ≤ k) :
      (m.deliver rs d).2.2.waiting k = m.waiting k := by
    by_cases hlt : k < m.boxes.length
    · rw [Mailboxes.waiting_deliver hlt, List.count_eq_zero_of_not_mem, List.replicate_zero,
        List.append_nil]
      intro hmem
      obtain ⟨r, hr, rfl⟩ := List.mem_map.mp hmem
      exact absurd (hrs r (List.mem_of_mem_filter (List.mem_of_mem_filter hr))) hk.not_gt
    · rw [Mailboxes.waiting_of_length_le (not_lt.mp hlt), Mailboxes.waiting_of_length_le]
      rw [Mailboxes.length_deliver]
      exact not_lt.mp hlt
  refine ⟨hreached, hleft, h.issued_eq, h.aligned.deliver rs rs d d, fun r hr => ?_, ?_,
    fun r hr => ?_, fun t => ?_⟩
  · show front ≤ r.2 ∧ r.2 < (direct.mailboxes.deliver rs d).2.2.boxes.length
    rw [Mailboxes.length_deliver]
    exact h.inRange r hr
  · show ∀ d' ∈ (wrapped.mailboxes.deliver rs d).2.2.waiting front, _
    rw [hbehind _ le_rfl]
    exact h.pending
  · obtain ⟨hle, -⟩ := h.inRange r hr
    show (wrapped.mailboxes.deliver rs d).2.2.waiting (r.2 + 1) ++
      receivers.due r.2 ((wrapped.mailboxes.deliver rs d).2.2.waiting front) =
        ((direct.mailboxes.deliver rs d).2.2.waiting r.2).filter _
    rw [hbehind _ le_rfl, hbehind _ hle, hbehind _ (Nat.le_succ_of_le hle)]
    exact h.waits r hr
  · have hsettled := h.settled_iff t
    have hreserved : IsReservedAt receivers (direct.mailboxes.deliver rs d).2.2 t ↔
        IsReservedAt receivers direct.mailboxes t := by
      refine exists_congr fun r => and_congr_right fun hr => ?_
      rw [hbehind _ (h.inRange r hr).1]
    rw [isSettled_handed, isSettled_handed]
    show _ ∨ IsUntaken receivers ((wrapped.mailboxes.deliver rs d).2.2.waiting front) t ↔
      _ ∨ IsReservedAt receivers (direct.mailboxes.deliver rs d).2.2 t
    rw [hreserved, hbehind _ le_rfl]
    tauto

theorem arrives (h : Mirrors front receivers direct wrapped) {d : Delivery}
    (hplain : d.message.userProperty? ChunkMetadata.key = none) :
    (wrapped.mailboxes.deliver [(.everything, front)] d).2.1 = [(.everything, front)] ∧
      (direct.mailboxes.deliver receivers d).2.1 = receivers ∧
      Mirrors front receivers
        (direct.handed (direct.mailboxes.deliver receivers d).2.2
          (direct.mailboxes.deliver receivers d).1 d.ack)
        (wrapped.handed (wrapped.mailboxes.deliver [(.everything, front)] d).2.2
          (wrapped.mailboxes.deliver [(.everything, front)] d).1 d.ack) := by
  have hread (r) (hr : r ∈ receivers) : direct.mailboxes.hasReader r.2 = true :=
    (h.aligned.isRead _ (h.inRange r hr).1 (h.inRange r hr).2).1
  obtain ⟨hreached, hleft, htakers⟩ := Mailboxes.deliver_of_hasReader hread d
  obtain ⟨hreached', hleft', hfront, hbehind⟩ := h.aligned.deliver_front d
  have hdirect (r : Filter × Nat) (hr : r ∈ receivers) :
      (direct.mailboxes.deliver receivers d).2.2.waiting r.2 = direct.mailboxes.waiting r.2 ++
        List.replicate (receivers.share d.message.topic r.2) d := by
    rw [Mailboxes.waiting_deliver (h.inRange r hr).2, htakers]
    rfl
  refine ⟨hleft', hleft, h.issued_eq, h.aligned.deliver _ _ d d, fun r hr => ?_, ?_,
    fun r hr => ?_, fun t => ?_⟩
  · show front ≤ r.2 ∧ r.2 < (direct.mailboxes.deliver receivers d).2.2.boxes.length
    rw [Mailboxes.length_deliver]
    exact h.inRange r hr
  · show ∀ d' ∈ (wrapped.mailboxes.deliver [(.everything, front)] d).2.2.waiting front, _
    rw [hfront]
    intro d' hd'
    obtain hd' | hd' := List.mem_append.mp hd'
    · exact h.pending d' hd'
    · cases hres : isReservedTopic d.message.topic with
      | true => simp [hres] at hd'
      | false =>
        simp only [hres, Bool.false_eq_true, if_false, List.mem_singleton] at hd'
        rw [hd']
        exact ⟨hres, hplain⟩
  · show (wrapped.mailboxes.deliver [(.everything, front)] d).2.2.waiting (r.2 + 1) ++
      receivers.due r.2
        ((wrapped.mailboxes.deliver [(.everything, front)] d).2.2.waiting front) =
          ((direct.mailboxes.deliver receivers d).2.2.waiting r.2).filter _
    rw [hfront, hbehind _ (Nat.lt_succ_of_le (h.inRange r hr).1).ne', hdirect r hr, due_append,
      ← List.append_assoc, h.waits r hr, List.filter_append]
    congr 1
    cases hres : isReservedTopic d.message.topic with
    | true => simp [hres, Receivers.due]
    | false => simp [hres, due_singleton]
  · have hsettled := h.settled_iff t
    rw [isSettled_handed, isSettled_handed, hreached, hreached']
    show _ ∨ IsUntaken receivers
        ((wrapped.mailboxes.deliver [(.everything, front)] d).2.2.waiting front) t ↔
      _ ∨ IsReservedAt receivers (direct.mailboxes.deliver receivers d).2.2 t
    have hempty : (!(receivers.filter fun r => r.1.accepts d.message.topic).isEmpty) = false ↔
        receivers.on d.message.topic = [] := by
      rw [Bool.not_eq_false', List.isEmpty_iff]
      rfl
    -- On a reserved topic it is settled here and received there; otherwise it is pending here, and
    -- nobody takes it from there exactly if nobody receives it.
    rw [hfront, isUntaken_append, isReservedAt_delivered hdirect, hempty, Bool.not_eq_false', ne_eq]
    grind only

theorem share_behind (receivers : Receivers) (topic : String) (k : Nat) :
    receivers.behind.share topic (k + 1) = receivers.share topic k := by
  have h : (receivers.behind.on topic).map Prod.snd =
      ((receivers.on topic).map Prod.snd).map Nat.succ := by
    rw [Receivers.on, Receivers.behind, List.filter_map, List.map_map, List.map_map]
    rfl
  rw [Receivers.share, h]
  exact List.count_map_of_injective _ _ Nat.succ_injective _

theorem forwarded (h : Mirrors front receivers direct wrapped) {d : Delivery} {m : Mailboxes}
    (ht : wrapped.mailboxes.take? front = some (d, m)) :
    (m.deliver receivers.behind d).2.1 = receivers.behind ∧
      (m.deliver receivers.behind d).2.2.waiting front = m.waiting front ∧
      Mirrors front receivers direct
        (wrapped.handed (m.deliver receivers.behind d).2.2 (m.deliver receivers.behind d).1
          d.ack) := by
  obtain ⟨hwaiting, hother, hreader, hsender, hlength⟩ := Mailboxes.take?_eq_some ht
  have haligned : Aligned front direct.mailboxes m :=
    { h.aligned with
      length_eq := hlength.trans h.aligned.length_eq
      hasReader_eq := fun k hk => (hreader k).trans (h.aligned.hasReader_eq k hk)
      isRead := fun k hk hlt => by
        rw [hreader]
        exact h.aligned.isRead k hk hlt
      isFrontRead := (hreader front).trans h.aligned.isFrontRead
      isFrontOpen := (hsender front).trans h.aligned.isFrontOpen }
  have hlive : ∀ r ∈ receivers.behind, m.hasReader r.2 = true := by
    intro r hr
    obtain ⟨r₀, hr₀, rfl⟩ := List.mem_map.mp hr
    exact (haligned.isRead _ (h.inRange r₀ hr₀).1 (h.inRange r₀ hr₀).2).2
  obtain ⟨hreached, hleft, htakers⟩ := Mailboxes.deliver_of_hasReader hlive d
  have hbehind (r : Filter × Nat) (hr : r ∈ receivers) :
      (m.deliver receivers.behind d).2.2.waiting (r.2 + 1) =
        wrapped.mailboxes.waiting (r.2 + 1) ++
          List.replicate (receivers.share d.message.topic r.2) d := by
    obtain ⟨hle, hlt⟩ := h.inRange r hr
    rw [Mailboxes.waiting_deliver (by rw [haligned.length_eq]; omega), htakers,
      hother _ (Nat.lt_succ_of_le hle).ne', ← share_behind]
    rfl
  have hfront : (m.deliver receivers.behind d).2.2.waiting front = m.waiting front := by
    have hlt : front < m.boxes.length := by
      rw [haligned.length_eq]
      exact Nat.lt_succ_of_le h.aligned.front_le
    rw [Mailboxes.waiting_deliver hlt, List.count_eq_zero_of_not_mem, List.replicate_zero,
      List.append_nil]
    rw [htakers]
    intro hmem
    obtain ⟨r, hr, heq⟩ := List.mem_map.mp hmem
    obtain ⟨r₀, hr₀, rfl⟩ := List.mem_map.mp (List.mem_of_mem_filter hr)
    exact absurd heq (Nat.lt_succ_of_le (h.inRange r₀ hr₀).1).ne'
  refine ⟨hleft, hfront, h.issued_eq, haligned.deliver [] receivers.behind d d, h.inRange, ?_,
    fun r hr => ?_, fun t => ?_⟩
  · show ∀ d' ∈ (m.deliver receivers.behind d).2.2.waiting front, _
    rw [hfront]
    exact fun d' hd' => h.pending d' (hwaiting ▸ List.mem_cons_of_mem _ hd')
  · have hwaits := h.waits r hr
    rw [hwaiting, ← List.singleton_append, due_append, due_singleton, ← List.append_assoc] at hwaits
    show (m.deliver receivers.behind d).2.2.waiting (r.2 + 1) ++
      receivers.due r.2 ((m.deliver receivers.behind d).2.2.waiting front) = _
    rw [hbehind r hr, hfront, hwaits]
  · have hsettled := h.settled_iff t
    have hempty : (m.deliver receivers.behind d).1 = false ↔
        receivers.on d.message.topic = [] := by
      rw [hreached, Bool.not_eq_false', List.isEmpty_iff, Receivers.behind, List.filter_map,
        List.map_eq_nil_iff]
      rfl
    rw [isSettled_handed]
    show _ ∨ IsUntaken receivers ((m.deliver receivers.behind d).2.2.waiting front) t ↔ _
    rw [hfront, hempty]
    rw [hwaiting, isUntaken_cons] at hsettled
    grind only

theorem opened (h : Mirrors front receivers direct wrapped)
    (hempty : wrapped.mailboxes.waiting front = []) (f : Filter) :
    Mirrors front (receivers ++ [(f, direct.mailboxes.boxes.length)])
      { direct with mailboxes := direct.mailboxes.create.2 }
      { wrapped with mailboxes := wrapped.mailboxes.create.2 } := by
  have hfront : wrapped.mailboxes.create.2.waiting front = [] := by
    rw [Mailboxes.waiting_create, hempty]
  refine ⟨h.issued_eq, h.aligned.create, fun r hr => ?_, ?_, fun r hr => ?_, fun t => ?_⟩
  · show front ≤ r.2 ∧ r.2 < direct.mailboxes.create.2.boxes.length
    rw [Mailboxes.length_create]
    obtain hr | hr := List.mem_append.mp hr
    · obtain ⟨hle, hlt⟩ := h.inRange r hr
      exact ⟨hle, Nat.lt_succ_of_lt hlt⟩
    · rw [List.mem_singleton.mp hr]
      exact ⟨h.aligned.front_le, Nat.lt_succ_self _⟩
  · show ∀ d' ∈ wrapped.mailboxes.create.2.waiting front, _
    rw [hfront]
    exact fun _ hd => absurd hd List.not_mem_nil
  · show wrapped.mailboxes.create.2.waiting (r.2 + 1) ++
      Receivers.due _ r.2 (wrapped.mailboxes.create.2.waiting front) =
        (direct.mailboxes.create.2.waiting r.2).filter _
    rw [hfront, Mailboxes.waiting_create, Mailboxes.waiting_create]
    obtain hr | hr := List.mem_append.mp hr
    · have hwaits := h.waits r hr
      rw [hempty] at hwaits
      exact hwaits
    · rw [List.mem_singleton.mp hr, Mailboxes.waiting_of_length_le le_rfl,
        Mailboxes.waiting_of_length_le h.aligned.length_eq.le]
      rfl
  · have hsettled := h.settled_iff t
    have hreserved : IsReservedAt (receivers ++ [(f, direct.mailboxes.boxes.length)])
        direct.mailboxes.create.2 t ↔ IsReservedAt receivers direct.mailboxes t := by
      simp only [IsReservedAt, Mailboxes.waiting_create, List.mem_append, List.mem_singleton,
        or_and_right, exists_or, exists_eq_left, Mailboxes.waiting_of_length_le le_rfl,
        List.not_mem_nil, false_and, exists_false, or_false]
    show wrapped.IsSettled t ∨ IsUntaken _ (wrapped.mailboxes.create.2.waiting front) t ↔
      direct.IsSettled t ∨ IsReservedAt _ direct.mailboxes.create.2 t
    rw [hreserved, hfront, ← hsettled, hempty]
    simp [IsUntaken]

theorem congr (h : Mirrors front receivers direct wrapped) {direct' wrapped' : Routing}
    (hissued : direct'.acks.issued = direct.acks.issued)
    (hissued' : wrapped'.acks.issued = wrapped.acks.issued)
    (hmailboxes : direct'.mailboxes = direct.mailboxes)
    (hmailboxes' : wrapped'.mailboxes = wrapped.mailboxes)
    (hsettled : ∀ t, direct'.IsSettled t ↔ direct.IsSettled t)
    (hsettled' : ∀ t, wrapped'.IsSettled t ↔ wrapped.IsSettled t) :
    Mirrors front receivers direct' wrapped' where
  issued_eq := hissued'.trans (h.issued_eq.trans hissued.symm)
  aligned := hmailboxes ▸ hmailboxes' ▸ h.aligned
  inRange := hmailboxes ▸ h.inRange
  pending := hmailboxes' ▸ h.pending
  waits := hmailboxes ▸ hmailboxes' ▸ h.waits
  settled_iff t := by
    rw [hsettled, hsettled', hmailboxes, hmailboxes']
    exact h.settled_iff t

end Mirrors

end Broker

end CommandBus
