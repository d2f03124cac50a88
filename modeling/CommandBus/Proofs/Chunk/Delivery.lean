import CommandBus.Proofs.Association
import CommandBus.Proofs.Chunk.Assembly
import Mathlib

namespace CommandBus

namespace Inbound

theorem lookup_remove (i : Inbound) (removed id : String) :
    (i.remove removed).assemblers.lookup id =
      if id = removed then none else i.assemblers.lookup id :=
  Association.lookup_filter_ne i.assemblers removed id

theorem lookup_put_self (i : Inbound) (id : String) (a : Assembler) :
    (i.put id a).assemblers.lookup id = some a := by
  rw [put, List.lookup_append, lookup_remove, if_pos rfl]
  simp

theorem lookup_put_of_ne (i : Inbound) {id other : String} (a : Assembler) (h : other ≠ id) :
    (i.put id a).assemblers.lookup other = i.assemblers.lookup other := by
  rw [put, List.lookup_append, lookup_remove, if_neg h]
  simp [List.lookup_cons, beq_false_of_ne h]

theorem handle_plain (i : Inbound) (now : Nat) {d : Delivery}
    (h : d.message.userProperty? ChunkMetadata.key = none) :
    i.handle now d = (.dispatch d, i) := by
  rw [handle, ChunkMetadata.ofMessage, h, Option.map_none]

end Inbound

namespace Chunk

variable {ι : Type} {algorithm : ChecksumAlgorithm}

inductive Arrival (sent : ι → SplitMessage algorithm)
  | chunk (source : ι) (index : Fin (sent source).pieces.length) (ack : AckToken)
  | plain (d : Delivery) (h : d.message.userProperty? ChunkMetadata.key = none)

variable {sent : ι → SplitMessage algorithm}

def Arrival.delivery : Arrival sent → Delivery
  | .chunk source index ack => ⟨(sent source).pieces[index], ack⟩
  | .plain d _ => d

def IsWhole (sent : ι → SplitMessage algorithm) (source : ι) (held : Finset Nat) : Prop :=
  held = Finset.range (sent source).pieces.length

instance (source : ι) (held : Finset Nat) : Decidable (IsWhole sent source held) :=
  inferInstanceAs (Decidable (held = _))

section Received

variable [DecidableEq ι]

/-- One more arrival; the chunks that make a message whole leave together. -/
def receive (held : ι → Finset Nat) : Arrival sent → ι → Finset Nat
  | .plain _ _ => held
  | .chunk source index _ =>
    let now := insert index.val (held source)
    Function.update held source (if IsWhole sent source now then ∅ else now)

/-- The numbers of the chunks received of each message since it last came out. -/
def received (history : List (Nat × Arrival sent)) : ι → Finset Nat :=
  history.foldl (fun held event => receive held event.2) fun _ => ∅

end Received

/-- The inbound side after these deliveries, each with the time at which it is handled. -/
def after (i : Inbound) (history : List (Nat × Arrival sent)) : Inbound :=
  history.foldl (fun i event => (i.handle event.1 event.2.delivery).2) i

/-- Messages that are under way have an assembler with what was received of them, all others
have none. -/
structure Collects (sent : ι → SplitMessage algorithm) (i : Inbound) (held : ι → Finset Nat) :
    Prop where
  algorithm_eq : i.algorithm = algorithm
  absent : ∀ source, held source = ∅ → i.assemblers.lookup (sent source).id = none
  present : ∀ source, held source ≠ ∅ →
    ∃ a, i.assemblers.lookup (sent source).id = some a ∧ Holds (sent source) a (held source)
  not_whole : ∀ source, ¬ IsWhole sent source (held source)

namespace Collects

variable {i : Inbound} {held : ι → Finset Nat}

theorem not_isWhole_empty (source : ι) : ¬ IsWhole sent source ∅ := fun h => by
  have hp := (sent source).length_pos
  exact hp.ne (Finset.range_eq_empty_iff.mp h.symm).symm

theorem start (h : i.algorithm = algorithm) (he : i.assemblers = []) :
    Collects sent i fun _ => ∅ :=
  ⟨h, fun _ _ => by rw [he]; rfl, fun _ hne => absurd rfl hne, not_isWhole_empty⟩

theorem holds_assembler (h : Collects sent i held) (source : ι) (now : Nat) :
    Holds (sent source) (i.assembler (sent source).id now) (held source) := by
  by_cases he : held source = ∅
  · rw [Inbound.assembler, h.absent source he, he, h.algorithm_eq]
    exact Holds.empty _ now
  · obtain ⟨a, hl, ha⟩ := h.present source he
    rw [Inbound.assembler, hl]
    exact ha

variable [DecidableEq ι]

theorem remove (h : Collects sent i held) (hid : Function.Injective fun x => (sent x).id)
    (source : ι) :
    Collects sent (i.remove (sent source).id) (Function.update held source ∅) := by
  have hl : ∀ x, x ≠ source → (i.remove (sent source).id).assemblers.lookup (sent x).id =
      i.assemblers.lookup (sent x).id := fun x hx => by
    rw [Inbound.lookup_remove, if_neg fun he => hx (hid he)]
  refine ⟨h.algorithm_eq, fun x hx => ?_, fun x hx => ?_, fun x => ?_⟩
  · by_cases hs : x = source
    · rw [hs, Inbound.lookup_remove, if_pos rfl]
    · rw [Function.update_of_ne hs] at hx
      rw [hl x hs]
      exact h.absent x hx
  · have hs : x ≠ source := fun hs => hx (by rw [hs, Function.update_self])
    rw [Function.update_of_ne hs] at hx ⊢
    rw [hl x hs]
    exact h.present x hx
  · by_cases hs : x = source
    · rw [hs, Function.update_self]
      exact not_isWhole_empty source
    · rw [Function.update_of_ne hs]
      exact h.not_whole x

theorem put (h : Collects sent i held) (hid : Function.Injective fun x => (sent x).id)
    {source : ι} {a : Assembler} {now : Finset Nat} (ha : Holds (sent source) a now)
    (hne : now ≠ ∅) (hw : ¬ IsWhole sent source now) :
    Collects sent (i.put (sent source).id a) (Function.update held source now) := by
  have hl : ∀ x, x ≠ source → (i.put (sent source).id a).assemblers.lookup (sent x).id =
      i.assemblers.lookup (sent x).id := fun x hx =>
    Inbound.lookup_put_of_ne i a fun he => hx (hid he)
  refine ⟨h.algorithm_eq, fun x hx => ?_, fun x hx => ?_, fun x => ?_⟩
  · have hs : x ≠ source := fun hs => hne (by rwa [hs, Function.update_self] at hx)
    rw [Function.update_of_ne hs] at hx
    rw [hl x hs]
    exact h.absent x hx
  · by_cases hs : x = source
    · subst hs
      rw [Function.update_self]
      exact ⟨a, Inbound.lookup_put_self i _ a, ha⟩
    · rw [Function.update_of_ne hs] at hx ⊢
      rw [hl x hs]
      exact h.present x hx
  · by_cases hs : x = source
    · subst hs
      rwa [Function.update_self]
    · rw [Function.update_of_ne hs]
      exact h.not_whole x

theorem handle_chunk (h : Collects sent i held) (hid : Function.Injective fun x => (sent x).id)
    (now : Nat) (source : ι) (index : Fin (sent source).pieces.length) (ack : AckToken) :
    (if IsWhole sent source (insert index.val (held source)) then
        ∃ token, (i.handle now (Arrival.chunk source index ack).delivery).1 =
          .dispatch ⟨(sent source).whole, token⟩
      else (i.handle now (Arrival.chunk source index ack).delivery).1 = .acknowledge ack) ∧
    Collects sent (i.handle now (Arrival.chunk source index ack).delivery).2
      (receive held (Arrival.chunk source index ack)) := by
  have hm := (sent source).ofMessage_getElem index.val index.isLt
  have ha := h.holds_assembler source now
  have hid' : ((sent source).info index).messageId = (sent source).id := rfl
  have hindex : ((sent source).info index).index = index.val.toUInt32 := rfl
  simp only [Arrival.delivery, Inbound.handle, Fin.getElem_fin, hm, hid', hindex, receive]
  by_cases hk : index.val ∈ held source
  · rw [ha.add?_of_mem hk, Finset.insert_eq_of_mem hk, if_neg (h.not_whole source),
      if_neg (h.not_whole source), Function.update_eq_self]
    exact ⟨rfl, h⟩
  obtain ⟨a, hadd, hlearn⟩ := ha.add?_of_notMem index.isLt hk (d := ⟨_, ack⟩) rfl
  rw [hadd]
  by_cases hw : IsWhole sent source (insert index.val (held source))
  · rw [if_pos hw, if_pos hw]
    rw [hw] at hlearn
    obtain ⟨token, hr⟩ := hlearn.reassemble?_full
    simp only [hr]
    exact ⟨⟨token, rfl⟩, h.remove hid source⟩
  · rw [if_neg hw, if_neg hw]
    simp only [hlearn.reassemble?_partial hw]
    exact ⟨trivial, h.put hid hlearn (Finset.insert_nonempty ..).ne_empty hw⟩

theorem handle (h : Collects sent i held) (hid : Function.Injective fun x => (sent x).id)
    (now : Nat) (arrival : Arrival sent) :
    Collects sent (i.handle now arrival.delivery).2 (receive held arrival) := by
  cases arrival with
  | chunk source index ack => exact (h.handle_chunk hid now source index ack).2
  | plain d hd =>
    rw [Arrival.delivery, i.handle_plain now hd]
    exact h

theorem after (h : Collects sent i held) (hid : Function.Injective fun x => (sent x).id)
    (history : List (Nat × Arrival sent)) :
    Collects sent (Chunk.after i history)
      (history.foldl (fun held event => receive held event.2) held) := by
  induction history generalizing i held with
  | nil => exact h
  | cons event rest ih => exact ih (h.handle hid event.1 event.2)

end Collects

/-- After any history, a message that is not a chunk comes out at once as it is, and a chunk
brings out its whole message exactly if it completes what was received since the last time. -/
theorem deliveries_exact [DecidableEq ι] (hid : Function.Injective fun x => (sent x).id)
    {i : Inbound} (halgorithm : i.algorithm = algorithm) (hempty : i.assemblers = [])
    (history : List (Nat × Arrival sent)) (now : Nat) :
    (∀ d : Delivery, d.message.userProperty? ChunkMetadata.key = none →
      (after i history).handle now d = (.dispatch d, after i history)) ∧
    ∀ (source : ι) (index : Fin (sent source).pieces.length) (ack : AckToken),
      if IsWhole sent source (insert index.val (received history source)) then
        ∃ token, ((after i history).handle now ⟨(sent source).pieces[index], ack⟩).1 =
          .dispatch ⟨(sent source).whole, token⟩
      else ((after i history).handle now ⟨(sent source).pieces[index], ack⟩).1 =
        .acknowledge ack := by
  have hstart : Collects sent i fun _ => ∅ := .start halgorithm hempty
  have h := hstart.after hid history
  refine ⟨fun d hd => Inbound.handle_plain _ now hd, fun source index ack => ?_⟩
  exact (h.handle_chunk hid now source index ack).1

/-- Two bytes as two chunks, by the smallest packet that has room for one byte. -/
def twoBytes : SplitMessage .sha256 where
  message := { topic := "t", payload := [1, 2] }
  id := "a"
  overhead := 127
  maxPacketSize := 128
  pieces := (slices 1 2 [1, 2]).zipIdx.map fun (payload, index) =>
    piece { topic := "t", payload := [1, 2] }
      (metadata "a" (Checksum.compute .sha256 [1, 2]) 2 index) payload
  split_eq := rfl
  length_lt := by decide

def secondArrived : List (Nat × Arrival fun _ : Unit => twoBytes) :=
  [(0, .chunk () ⟨1, by decide⟩ .none)]

theorem last_chunk_first_delivered :
    IsWhole (fun _ : Unit => twoBytes) () (insert 0 (received secondArrived ())) ∧
    ∃ token, ((after { algorithm := .sha256, timeout := ⟨0⟩ } secondArrived).handle 1
        ⟨twoBytes.pieces.get ⟨0, by decide⟩, .none⟩).1 = .dispatch ⟨twoBytes.whole, token⟩ := by
  have hw : IsWhole (fun _ : Unit => twoBytes) () (insert 0 (received secondArrived ())) := by
    decide
  have h := (deliveries_exact (fun _ _ _ => rfl) (i := { algorithm := .sha256, timeout := ⟨0⟩ })
    rfl rfl secondArrived 1).2 () ⟨0, by decide⟩ .none
  rw [if_pos hw] at h
  exact ⟨hw, h⟩

end Chunk

end CommandBus
