import CommandBus.Proofs.Chunk.Metadata
import CommandBus.Proofs.Chunk.Reception
import Mathlib

namespace CommandBus

namespace Assembler

variable {a a' : Assembler} {index : UInt32} {d : Delivery}

theorem createdAt_of_add? (h : a.add? index d = some a') : a'.createdAt = a.createdAt := by
  rw [add?] at h
  split at h
  · cases h
  · rw [← Option.some.inj h]

theorem le_of_not_hasExpired {now secs : Nat} (h : a.hasExpired now (.ofSecs secs) = false) :
    now ≤ a.createdAt + 1000 * secs := by
  have hspan := of_decide_eq_false h
  simp only [Duration.ofSecs, Duration.ofMillis] at hspan
  omega

end Assembler

namespace Inbound

variable {i : Inbound} {now : Nat} {d : Delivery} {entry : String × Assembler}

theorem createdAt_learn (m : ChunkMetadata) (a : Assembler) :
    (learn m a).createdAt = a.createdAt := by
  rw [learn]
  split
  · split
    · rfl
    · rfl
  · rfl

theorem createdAt_assembler (i : Inbound) (id : String) (now : Nat) :
    (i.assembler id now).createdAt = now ∨
      ∃ old ∈ i.assemblers, old.2.createdAt = (i.assembler id now).createdAt := by
  rw [assembler]
  cases hl : i.assemblers.lookup id with
  | none => exact .inl rfl
  | some a =>
    exact .inr ⟨(id, a), Association.mem_of_lookup hl, rfl⟩

/-- The first chunk to arrive is kept until others do, unless it is the one that tells the total. -/
theorem handle_first (now : Nat) {m : ChunkMetadata}
    (hm : ChunkMetadata.ofMessage d.message = some (.ok m))
    (htotal : m.total = none) (hnew : i.assemblers.lookup m.messageId = none) :
    i.handle now d = (.acknowledge d.ack, i.put m.messageId
      { algorithm := i.algorithm, createdAt := now, chunks := [(m.index, d)] }) := by
  simp [handle, hm, assembler, hnew, Assembler.add?, Assembler.contains, Assembler.insertChunk,
    learn, htotal, Assembler.reassemble?, Assembler.isComplete]

theorem createdAt_handle (h : entry ∈ (i.handle now d).2.assemblers) :
    entry.2.createdAt = now ∨
      ∃ old ∈ i.assemblers, old.2.createdAt = entry.2.createdAt := by
  have hh := handled i now d
  generalize i.handle now d = outcome at h hh
  cases hh with
  | plain | malformed | repeated => exact .inr ⟨entry, h, rfl⟩
  | completed => exact .inr ⟨entry, List.mem_of_mem_filter h, rfl⟩
  | @kept m a hm ha hr =>
    obtain h | h := List.mem_append.mp h
    · exact .inr ⟨entry, List.mem_of_mem_filter h, rfl⟩
    · obtain rfl := List.mem_singleton.mp h
      rw [createdAt_learn, Assembler.createdAt_of_add? ha]
      exact createdAt_assembler i m.messageId now

theorem timeout_handle (i : Inbound) (now : Nat) (d : Delivery) :
    (i.handle now d).2.timeout = i.timeout := by
  have hh := handled i now d
  generalize i.handle now d = outcome at hh
  cases hh with
  | plain | malformed | repeated | kept | completed => rfl

end Inbound

/-- A client that looks through its incomplete messages does so before any of them is overdue. -/
structure ChunkingClient.Watches (c : ChunkingClient) (o : ChunkingOptions) (now : Nat) : Prop where
  options_eq : c.options = o
  timeout_eq : c.inbound.timeout = .ofSecs o.timeoutSecs
  next : ∃ time, c.nextSweep = some time ∧ time ≤ now + o.sweepInterval ∧
    ∀ entry ∈ c.inbound.assemblers,
      time ≤ entry.2.createdAt + 1000 * o.timeoutSecs + o.sweepInterval

namespace ChunkingClient.Watches

variable {c : ChunkingClient} {o : ChunkingOptions} {now later : Nat}

theorem create (link box now : Nat) (h : o.enabled = true) :
    (ChunkingClient.create link box now o).Watches o now where
  options_eq := rfl
  timeout_eq := rfl
  next := ⟨now, if_pos h, Nat.le_add_right .., List.forall_mem_nil _⟩

theorem pass (h : c.Watches o now) (hle : now ≤ later) : c.Watches o later := by
  obtain ⟨time, htime, hsoon, hall⟩ := h.next
  exact { h with next := ⟨time, htime, by omega, hall⟩ }

theorem handle (h : c.Watches o now) (d : Delivery) (receivers : Receivers) :
    Watches { c with inbound := (c.inbound.handle now d).2, receivers } o now where
  options_eq := h.options_eq
  timeout_eq := (Inbound.timeout_handle ..).trans h.timeout_eq
  next := by
    obtain ⟨time, htime, hsoon, hall⟩ := h.next
    refine ⟨time, htime, hsoon, fun entry he => ?_⟩
    obtain hnew | ⟨old, ho, hold⟩ := Inbound.createdAt_handle he
    · omega
    · rw [← hold]
      exact hall old ho

theorem sweep (h : c.Watches o now) : (c.sweep now).Watches o now where
  options_eq := h.options_eq
  timeout_eq := h.timeout_eq
  next := by
    refine ⟨now + o.sweepInterval, by rw [ChunkingClient.sweep, h.options_eq], Nat.le_refl _, ?_⟩
    intro entry he
    -- What is kept has not expired by now, so the next time comes soon enough.
    obtain ⟨-, hkept⟩ := List.mem_filter.mp he
    rw [h.timeout_eq, Bool.not_eq_true'] at hkept
    have hage := Assembler.le_of_not_hasExpired hkept
    omega

end ChunkingClient.Watches

namespace Network

structure Moment where
  network : Network
  now : Nat

variable {n n' : Network} {id now : Nat} {m m' : Moment} {c : ChunkingClient} {o : ChunkingOptions}

/-- Whatever happens apart from the background work of a chunking client leaves it with the same
incomplete messages and the same time to look through them, unless it is cancelled. -/
def LeavesWork (id : Nat) (n n' : Network) : Prop :=
  ∀ c', n'.chunkers[id]? = some c' → c'.isCancelled = false →
    ∃ c, n.chunkers[id]? = some c ∧ c.isCancelled = false ∧ c'.options = c.options ∧
      c'.inbound = c.inbound ∧ c'.nextSweep = c.nextSweep

namespace LeavesWork

theorem ofChunkers (h : n'.chunkers = n.chunkers) : LeavesWork id n n' := by
  intro c hc hactive
  exact ⟨c, h ▸ hc, hactive, rfl, rfl, rfl⟩

theorem ofModifyChunker (n : Network) (k : Nat) {f : ChunkingClient → ChunkingClient}
    (h : ∀ c, (f c).isCancelled = false → c.isCancelled = false ∧ (f c).options = c.options ∧
      (f c).inbound = c.inbound ∧ (f c).nextSweep = c.nextSweep) :
    LeavesWork id n (n.modifyChunker k f) := by
  intro c' hc' hactive
  rw [modifyChunker, List.getElem?_modify] at hc'
  obtain ⟨c, hc, rfl⟩ := Option.map_eq_some_iff.mp hc'
  by_cases hk : k = id
  · simp only [if_pos hk] at hactive ⊢
    exact ⟨c, hc, h c hactive⟩
  · simp only [if_neg hk] at hactive ⊢
    exact ⟨c, hc, hactive, rfl, rfl, rfl⟩

theorem cancel (id : Nat) (n : Network) (k : Nat) :
    LeavesWork id n (n.modifyChunker k ({ · with isCancelled := true })) :=
  ofModifyChunker n k nofun

theorem endCollecting (id : Nat) (n : Network) (k : Nat) :
    LeavesWork id n (n.endCollecting k) := by
  rw [Network.endCollecting]
  split
  · exact ofChunkers rfl
  · exact ofModifyChunker (n.modifyMailboxes _) k fun _ h => ⟨h, rfl, rfl, rfl⟩

theorem receiver (id : Nat) (n : Network) (k : Nat) (filter : String) :
    LeavesWork id n (n.receiver (.chunking k) filter).2 := by
  rw [Network.receiver]
  split
  · exact ofChunkers rfl
  · split
    · exact ofChunkers rfl
    · exact ofModifyChunker (n.modifyMailboxes _) k fun _ h => ⟨h, rfl, rfl, rfl⟩

end LeavesWork

/-- The background work of a chunking client goes on at times of its own, while time passes and
other things happen. -/
inductive Moment.Step (id : Nat) : Moment → Moment → Prop
  | collect {n n' : Network} {now : Nat} (h : n.stepCollect? id now = some n') :
      Step id ⟨n, now⟩ ⟨n', now⟩
  | sweep {n n' : Network} {now : Nat} (h : n.stepSweep? id now = some n') :
      Step id ⟨n, now⟩ ⟨n', now⟩
  | elsewhere {n n' : Network} {now : Nat} (h : LeavesWork id n n') : Step id ⟨n, now⟩ ⟨n', now⟩
  | pass (n : Network) (now span : Nat) : Step id ⟨n, now⟩ ⟨n, now + span⟩

def Moment.Run (id : Nat) : Moment → Moment → Prop :=
  Relation.ReflTransGen (Step id)

structure Moment.IsSettled (m : Moment) (id : Nat) : Prop where
  collect_eq : m.network.stepCollect? id m.now = none
  sweep_eq : m.network.stepSweep? id m.now = none

/-- Unless it is cancelled, a chunking client looks through its incomplete messages in time. -/
def Moment.IsWatched (m : Moment) (id : Nat) (o : ChunkingOptions) : Prop :=
  ∀ c, m.network.chunkers[id]? = some c → c.isCancelled = false → c.Watches o m.now

namespace Moment.IsWatched

theorem elsewhere (h : IsWatched ⟨n, now⟩ id o) (hleaves : LeavesWork id n n') :
    IsWatched ⟨n', now⟩ id o := by
  intro c' hc' hactive
  obtain ⟨c, hc, hactive', hoptions, hinbound, hnext⟩ := hleaves c' hc' hactive
  have hw := h c hc hactive'
  exact ⟨hoptions ▸ hw.options_eq, hinbound ▸ hw.timeout_eq, by rw [hnext, hinbound]; exact hw.next⟩

theorem collect (h : IsWatched ⟨n, now⟩ id o) (d : Delivery) :
    IsWatched ⟨n.collect id now d, now⟩ id o := by
  cases hc : n.chunkers[id]? with
  | none =>
    rw [Network.collect, hc]
    exact h
  | some c =>
    have hinbound := getElem?_withInbound hc (c.inbound.handle now d).2
    intro c' hc' hactive
    cases ha : (c.inbound.handle now d).1 with
    | acknowledge ack =>
      obtain rfl := Inbound.ack_eq_of_handle ha
      rw [collect_of_acknowledge hc ha] at hc'
      obtain rfl := Option.some.inj (hinbound.symm.trans hc')
      exact (h c hc hactive).handle d c.receivers
    | dispatch whole =>
      rw [collect_of_dispatch hc ha, (dispatch_frame hinbound whole).2.2] at hc'
      obtain rfl := Option.some.inj hc'
      exact (h c hc hactive).handle d _

theorem step (h : m.IsWatched id o) (hstep : Step id m m') : m'.IsWatched id o := by
  cases hstep with
  | @collect n n' now hstep =>
    obtain rfl | ⟨d, taken, box, ht, rfl⟩ := stepCollect?_cases hstep
    · exact h.elsewhere (.endCollecting id n id)
    · obtain ⟨taken', -, heq⟩ := Option.map_eq_some_iff.mp ht
      obtain ⟨rfl, rfl⟩ := Prod.mk.inj heq
      have htaken : LeavesWork id n (n.modifyMailboxes fun _ => taken'.2) := .ofChunkers rfl
      exact (h.elsewhere htaken).collect _
  | @sweep n n' now hstep =>
    intro c' hc' hactive
    obtain ⟨c, time, hc, -, ⟨hcancelled, rfl⟩ | ⟨-, rfl⟩⟩ := stepSweep?_cases hstep
    · rw [getElem?_modifyChunker hc] at hc'
      obtain rfl := Option.some.inj hc'
      rw [hcancelled] at hactive
      cases hactive
    · rw [getElem?_modifyChunker hc] at hc'
      obtain rfl := Option.some.inj hc'
      exact (h c hc hactive).sweep
  | elsewhere hleaves => exact h.elsewhere hleaves
  | pass n now span => exact fun c hc hactive => (h c hc hactive).pass (Nat.le_add_right ..)

theorem run (h : m.IsWatched id o) (hrun : Run id m m') : m'.IsWatched id o := by
  induction hrun with
  | refl => exact h
  | tail _ hstep ih => exact ih.step hstep

theorem ofChunk {link : Nat} (henabled : o.enabled = true)
    (h : n.chunk link now o = (.ok id, n')) : IsWatched ⟨n', now⟩ id o := by
  rw [chunk] at h
  split at h
  next => cases h
  next =>
    split at h
    next => cases h
    next box after _ =>
      obtain ⟨hid, rfl⟩ := Prod.mk.inj h
      obtain rfl := Except.ok.inj hid
      intro c hc _
      rw [List.getElem?_concat_length] at hc
      obtain rfl := Option.some.inj hc
      exact .create link box now henabled

end Moment.IsWatched

theorem stepSweep?_eq_none (hc : n.chunkers[id]? = some c) (h : c.nextSweep = none) :
    n.stepSweep? id now = none := by
  simp [stepSweep?, hc, h]

theorem le_of_isWatched (h : m.IsWatched id o) (hsettled : m.IsSettled id)
    (hc : m.network.chunkers[id]? = some c) (hactive : c.isCancelled = false)
    {entry : String × Assembler} (he : entry ∈ c.inbound.assemblers) :
    m.now ≤ entry.2.createdAt + 1000 * (o.timeoutSecs + max 1 o.sweepSecs) := by
  obtain ⟨time, htime, -, hall⟩ := (h c hc hactive).next
  have hlater : m.now < time := by
    have hnone := hsettled.sweep_eq
    rw [stepSweep?, hc] at hnone
    simpa [htime, hactive] using hnone
  have hbound := hall entry he
  rw [ChunkingOptions.sweepInterval] at hbound
  omega

def unwrapped : Network :=
  (connect {} "c").2

/-- A chunking client over it that does not look through what is incomplete. -/
def unwatched (o : ChunkingOptions) : Network :=
  { (unwrapped.receiverOn 0 "#").2 with chunkers := [ChunkingClient.create 0 0 0 o] }

theorem chunk_unwrapped (h : o.enabled = false) :
    unwrapped.chunk 0 0 o = (.ok 0, unwatched o) := by
  have hcheck : o.check (unwrapped.maxPacketSize 0) = .ok () := by
    rw [ChunkingOptions.check, h]
    rfl
  rw [chunk, hcheck]
  rfl

def strayMetadata : ChunkMetadata where
  messageId := "m"
  index := 1
  total := none
  checksum := none

def stray : Delivery where
  message := Chunk.piece { topic := "t", qos := .atLeastOnce } strayMetadata []
  ack := ⟨[0]⟩

theorem ofMessage_stray : ChunkMetadata.ofMessage stray.message = some (.ok strayMetadata) :=
  congrArg some (ChunkMetadata.parse_eq_check strayMetadata)

def strayArrived (o : ChunkingOptions) : Network :=
  (unwatched o).modifyMailboxes (·.put 0 stray)

def strayTaken (o : ChunkingOptions) : Network :=
  (strayArrived o).modifyMailboxes (·.modify 0 ({ · with waiting := [] }))

theorem keeps_stray (h : o.enabled = false) (now : Nat) : ∃ n,
    Moment.Run 0 ⟨unwatched o, 0⟩ ⟨n, now⟩ ∧ Moment.IsSettled ⟨n, now⟩ 0 ∧
      ∃ c, n.chunkers[0]? = some c ∧ c.isCancelled = false ∧
        ∃ a, c.inbound.assemblers = [("m", a)] ∧ a.createdAt = 0 := by
  have hnew : (strayTaken o).chunkers[0]? = some (ChunkingClient.create 0 0 0 o) := rfl
  have hhandle := Inbound.handle_first (i := (ChunkingClient.create 0 0 0 o).inbound) 0
    ofMessage_stray rfl rfl
  have hcollect := collect_of_acknowledge hnew (congrArg Prod.fst hhandle)
  have hinbound := getElem?_withInbound hnew
    ((ChunkingClient.create 0 0 0 o).inbound.handle 0 stray).2
  rw [hhandle] at hcollect hinbound
  have hstep : (strayArrived o).stepCollect? 0 0 = some ((strayTaken o).collect 0 0 stray) := rfl
  rw [hcollect] at hstep
  have harrive : LeavesWork 0 (unwatched o) (strayArrived o) := .ofChunkers rfl
  have hrun := (Relation.ReflTransGen.single (Moment.Step.elsewhere harrive)).tail
    (Moment.Step.collect hstep)
  have hpass := hrun.tail (Moment.Step.pass _ 0 now)
  rw [Nat.zero_add] at hpass
  have hnever : (ChunkingClient.create 0 0 0 o).nextSweep = none := by
    rw [ChunkingClient.create, h]
    rfl
  exact ⟨_, hpass, ⟨rfl, stepSweep?_eq_none hinbound hnever⟩, _, hinbound, rfl, _, rfl, rfl⟩

/-- At settled instants no chunk of an incomplete message has been kept for longer than the timeout
and one interval, exactly for the options that have incomplete messages looked through. -/
theorem partial_message_bounded_iff (o : ChunkingOptions) :
    (∀ (n start : Network) (link id begun : Nat) (m : Moment),
      n.chunk link begun o = (.ok id, start) → Moment.Run id ⟨start, begun⟩ m → m.IsSettled id →
      ∀ c, m.network.chunkers[id]? = some c → c.isCancelled = false →
        ∀ entry ∈ c.inbound.assemblers,
          m.now ≤ entry.2.createdAt + 1000 * (o.timeoutSecs + max 1 o.sweepSecs)) ↔
      o.enabled = true := by
  constructor
  · intro hbounded
    by_contra hdisabled
    rw [Bool.not_eq_true] at hdisabled
    obtain ⟨n, hrun, hsettled, c, hc, hactive, a, hkept, ha⟩ :=
      keeps_stray hdisabled (1000 * (o.timeoutSecs + max 1 o.sweepSecs) + 1)
    have he : ("m", a) ∈ c.inbound.assemblers := hkept ▸ List.mem_singleton_self _
    have hbound := hbounded unwrapped _ 0 0 0 _ (chunk_unwrapped hdisabled) hrun hsettled c hc
      hactive _ he
    dsimp only at hbound
    omega
  · intro henabled n start link id begun m hchunk hrun hsettled c hc hactive entry he
    have hwatched := (Moment.IsWatched.ofChunk henabled hchunk).run hrun
    exact le_of_isWatched hwatched hsettled hc hactive he

/-- A client that only reassembles keeps a chunk for twenty seconds and more, with a timeout of ten
seconds and an interval of five. -/
theorem stray_outlives_timeout : ∃ (start : Network) (m : Moment),
    unwrapped.chunk 0 0 { enabled := false } = (.ok 0, start) ∧ Moment.Run 0 ⟨start, 0⟩ m ∧
      m.IsSettled 0 ∧ m.now = 20000 ∧
      ∃ c, m.network.chunkers[0]? = some c ∧ c.isCancelled = false ∧ c.pending = 1 ∧
        ∃ entry ∈ c.inbound.assemblers, entry.2.createdAt + 1000 * (10 + max 1 5) < m.now := by
  have hdisabled : ({ enabled := false } : ChunkingOptions).enabled = false := rfl
  obtain ⟨n, hrun, hsettled, c, hc, hactive, a, hkept, ha⟩ := keeps_stray hdisabled 20000
  have he : ("m", a) ∈ c.inbound.assemblers := hkept ▸ List.mem_singleton_self _
  have hlate : 0 + 1000 * (10 + max 1 5) < 20000 := by decide
  refine ⟨_, _, chunk_unwrapped hdisabled, hrun, hsettled, rfl, c, hc, hactive, ?_, _, he, ?_⟩
  · exact congrArg List.length hkept
  · rwa [ha]

end Network

end CommandBus
