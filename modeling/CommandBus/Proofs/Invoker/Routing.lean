import CommandBus.Invoker.Call
import CommandBus.Proofs.Association
import CommandBus.Proofs.Chunk.Handover
import CommandBus.Proofs.Text.Identifier
import Mathlib

namespace CommandBus

namespace InvokerState

variable {s s' : InvokerState} {id : Bytes} {isCancelled : Bool}

/-- What may come of waiting for a response to an invocation. A response, the shutdown of the
invoker and the cancellation of the call may be there together, and any of them may be noticed. -/
inductive Receives (s : InvokerState) (id : Bytes) (isCancelled : Bool) :
    Except ProtocolError Message → InvokerState → Prop
  | response {m : Message} {router : Router} (h : s.router.take? id = some (m, router)) :
    Receives s id isCancelled (.ok m) { s with router }
  | shutDown (h : s.router.isCancelled = true) :
    Receives s id isCancelled (.error (ProtocolError.cancellation.withText
      "invoker shut down while awaiting response")) s
  | cancelled (h : isCancelled = true) : Receives s id isCancelled (.error .cancellation) s

theorem receives_of_receive? {result : Except ProtocolError Message}
    (h : s.receive? id isCancelled = some (result, s')) : s.Receives id isCancelled result s' := by
  unfold receive? at h
  split at h
  next htake =>
    cases h
    exact .response htake
  split at h
  next hshutDown =>
    cases h
    exact .shutDown hshutDown
  split at h <;> cases h
  next hcancelled => exact .cancelled hcancelled

theorem Receives.take? {m : Message} (h : s.Receives id isCancelled (.ok m) s') :
    s.router.take? id = some (m, s'.router) := by
  cases h with
  | response htake => exact htake

theorem receive?_eq_none_iff :
    s.receive? id isCancelled = none ↔
      s.router.take? id = none ∧ s.router.isCancelled = false ∧ isCancelled = false := by
  unfold receive?
  split
  next htake => simp [htake]
  next htake =>
    simp only [htake, true_and]
    split
    next hshutDown => simp [hshutDown]
    next hopen => simp [hopen]

end InvokerState

namespace Router

variable {r r' : Router} {m : Message} {id : Bytes} {topic : String} {n n' : Network}

/-- The delivery that the next step of a route takes, if it takes one. -/
def arrival? (r : Router) (route : Nat) (n : Network) : Option Delivery := do
  let state ← r.routes[route]?
  if state.isOver || r.isCancelled then none else (n.take? state.box).map Prod.fst

theorem stepRoute?_cases {route : Nat} (h : r.stepRoute? route n = some (r', n')) :
    (∃ d taken, r.arrival? route n = some d ∧ r' = r.deliver d.message ∧
        n' = Network.acknowledge taken d.ack) ∨
      r.arrival? route n = none ∧ r' = r.endRoute route := by
  unfold stepRoute? at h
  cases hs : r.routes[route]? with
  | none => simp [hs] at h
  | some state =>
    simp only [hs, Option.bind_eq_bind, Option.bind_some] at h
    split at h
    · cases h
    next hover =>
      split at h
      next hcancelled =>
        cases h
        exact .inr ⟨by simp [arrival?, hs, hcancelled], rfl⟩
      next hcancelled =>
        split at h
        next d taken ht =>
          cases h
          exact .inl ⟨d, taken, by simp [arrival?, hs, hover, hcancelled, ht], rfl, rfl⟩
        next ht =>
          split at h
          · cases h
            exact .inr ⟨by simp [arrival?, hs, ht], rfl⟩
          · cases h

theorem pending_stepEnsure? {c : Client} {filter : String} {step step' : Ensuring}
    {route : Option Nat} (h : r.stepEnsure? c filter n step = some (step', r', n', route)) :
    r'.pending = r.pending := by
  unfold stepEnsure? at h
  split at h
  · split at h
    · cases h
    split at h
    · cases h
      rfl
    split at h <;> cases h <;> rfl
  · split at h
    · cases h
      rfl
    split at h <;> cases h <;> rfl
  · split at h <;> cases h <;> rfl
  · cases h
    rfl
  · cases h

theorem pending_stepStop? {c : Client} {step step' : Stopping}
    (h : r.stepStop? c n step = some (step', r', n')) : r'.pending = r.pending := by
  unfold stepStop? at h
  split at h
  · cases h
    rfl
  · cases h
    rfl
  · cases h
    rfl
  · split at h
    · cases h
      rfl
    · cases h
  · split at h
    · cases h
    · cases h
      rfl
  · cases h
    rfl
  · cases h
    rfl
  · cases h

theorem register_eq_ok_iff :
    r.register id topic = .ok r' ↔
      r.pending.lookup id = none ∧ r' = { r with pending := r.pending ++ [(id, { topic })] } := by
  unfold register
  cases h : r.pending.lookup id <;> simp [eq_comm]

theorem exists_register_eq_error_iff :
    (∃ e, r.register id topic = .error e) ↔ (r.pending.lookup id).isSome = true := by
  unfold register
  cases h : r.pending.lookup id <;> simp

theorem pending_deliver (h : ∀ p ∈ r.pending, p.1.length = correlationSize) (m : Message) :
    (r.deliver m).pending = r.pending.map fun (id, a) =>
      (id, if m.correlationData = some id ∧ a.topic = m.topic then
        { a with responses := a.responses ++ [m] } else a) := by
  unfold deliver
  cases hm : m.correlationData with
  | none => simp
  | some data =>
    dsimp only
    split
    next hsize =>
      refine List.map_congr_left fun p _ => ?_
      by_cases hid : p.1 = data
      · simp [hid]
      · simp [hid, Ne.symm hid]
    next hsize =>
      refine (List.map_id' _).symm.trans (List.map_congr_left fun p hp => ?_)
      have hne : data ≠ p.1 := by
        rintro rfl
        exact hsize (h p hp)
      simp [hne]

theorem deliver_eq_self
    (h : ∀ p ∈ r.pending, ¬(m.correlationData = some p.1 ∧ p.2.topic = m.topic)) :
    r.deliver m = r := by
  unfold deliver
  cases hm : m.correlationData with
  | none => rfl
  | some data =>
    dsimp only
    split
    · have heq : (r.pending.map fun (k, a) => (k, if k = data then
          (if a.topic = m.topic then { a with responses := a.responses ++ [m] } else a)
          else a)) = r.pending := by
        refine (List.map_congr_left fun p hp => ?_).trans (List.map_id' _)
        by_cases hid : p.1 = data
        · have ht : p.2.topic ≠ m.topic := fun ht => h p hp ⟨by rw [hm, hid], ht⟩
          simp [hid, ht]
          rw [← hid]
        · simp [hid]
      rw [modifyPending, heq]
    · rfl

theorem take?_eq_some_iff :
    r.take? id = some (m, r') ↔ ∃ a rest, r.pending.lookup id = some a ∧ a.responses = m :: rest ∧
      r' = r.modifyPending id ({ · with responses := rest }) := by
  unfold take?
  cases h : r.pending.lookup id with
  | none => simp
  | some a =>
    cases hr : a.responses with
    | nil => simp [hr]
    | cons first rest =>
      simp [hr]
      grind

/-- An invocation that has been registered with a router, also after it has ended. -/
structure Invocation where
  id : Bytes
  topic : String
  /-- How many messages had arrived when it was registered. -/
  since : Nat
  /-- How many messages had arrived when it ended, if it has. -/
  ended : Option Nat := none
  /-- What it was given. -/
  received : List Message := []

namespace Invocation

def isLive (i : Invocation) : Bool :=
  i.ended.isNone

/-- The message carries the id of the invocation and was sent to its topic. -/
def expects (i : Invocation) (m : Message) : Bool :=
  m.correlationData = some i.id && m.topic = i.topic

def finish (arrivals : Nat) (i : Invocation) : Invocation :=
  { i with ended := some arrivals }

def give (m : Message) (i : Invocation) : Invocation :=
  { i with received := i.received ++ [m] }

def modifyLive (id : Bytes) (f : Invocation → Invocation) (invocations : List Invocation) :
    List Invocation :=
  invocations.map fun i => if i.isLive = true ∧ i.id = id then f i else i

variable {invocations : List Invocation}

theorem filter_give (id : Bytes) (m : Message) :
    (modifyLive id (give m) invocations).filter isLive =
      (invocations.filter isLive).map fun i => if i.id = id then i.give m else i := by
  induction invocations with
  | nil => rfl
  | cons i rest ih =>
    rw [modifyLive] at ih ⊢
    cases hi : i.isLive
    · simp [hi, ih]
    · have hgive : (i.give m).isLive = true := hi
      by_cases hid : i.id = id
      · simp [hi, hid, hgive, ih]
      · simp [hi, hid, ih]

theorem filter_finish (id : Bytes) (arrivals : Nat) :
    (modifyLive id (finish arrivals) invocations).filter isLive =
      (invocations.filter isLive).filter (·.id != id) := by
  induction invocations with
  | nil => rfl
  | cons i rest ih =>
    rw [modifyLive] at ih ⊢
    cases hi : i.isLive
    · simp [hi, ih]
    · have hfinish : (i.finish arrivals).isLive = false := rfl
      by_cases hid : i.id = id
      · simp [hi, hid, hfinish, ih]
      · simp [hi, hid, ih]

end Invocation

end Router

/-- What an invoker works with, all that its routes have taken, and everyone who has waited. -/
structure Correspondence where
  state : InvokerState
  arrivals : List Message := []
  invocations : List Router.Invocation := []

namespace Correspondence

open Router

variable {c c' : Correspondence} {i j : Invocation} {id : Bytes} {topic : String} {m : Message}
  {router : Router} {state : InvokerState}

def live (c : Correspondence) : List Invocation :=
  c.invocations.filter Invocation.isLive

/-- What arrived for an invocation: the messages that it expects among those that came after it was
registered and before it ended. -/
def arrived (c : Correspondence) (i : Invocation) : List Message :=
  ((c.arrivals.take (i.ended.getD c.arrivals.length)).drop i.since).filter i.expects

def enroll (c : Correspondence) (id : Bytes) (topic : String) (router : Router) : Correspondence :=
  { c with
    state := { c.state with router }
    invocations := c.invocations ++ [{ id, topic, since := c.arrivals.length }] }

def dismiss (c : Correspondence) (i : Invocation) : Correspondence :=
  { c with
    state := c.state.deregister i.id
    invocations := Invocation.modifyLive i.id (.finish c.arrivals.length) c.invocations }

def give (c : Correspondence) (i : Invocation) (m : Message) (state : InvokerState) :
    Correspondence :=
  { c with state, invocations := Invocation.modifyLive i.id (.give m) c.invocations }

/-- A route has taken a step, and with it the next message if there was one. -/
def arrive (c : Correspondence) (arrival : Option Message) (state : InvokerState) :
    Correspondence :=
  { c with state, arrivals := c.arrivals ++ arrival.toList }

/-- One change: an invocation is registered or ends, a route takes a step, an invocation is given a
message, subscriptions come and go, or something else goes on with the invoker. -/
inductive Step (c : Correspondence) : Correspondence → Prop
  | register {id : Bytes} {topic : String} {router : Router} (hsize : id.length = correlationSize)
    (h : c.state.router.register id topic = .ok router) : Step c (c.enroll id topic router)
  | drop {i : Invocation} (hi : i ∈ c.live) : Step c (c.dismiss i)
  | route {route : Nat} {router : Router} {network : Network}
    (h : c.state.router.stepRoute? route c.state.network = some (router, network)) :
    Step c (c.arrive ((c.state.router.arrival? route c.state.network).map Delivery.message)
      { c.state with router, network })
  | receive {i : Invocation} {isCancelled : Bool} {m : Message} {state : InvokerState}
    (hi : i ∈ c.live) (h : c.state.receive? i.id isCancelled = some (.ok m, state)) :
    Step c (c.give i m state)
  | ensure {client : Client} {filter : String} {step step' : Ensuring} {router : Router}
    {network : Network} {route : Option Nat}
    (h : c.state.router.stepEnsure? client filter c.state.network step =
      some (step', router, network, route)) :
    Step c { c with state := { c.state with router, network } }
  | stop {client : Client} {step step' : Stopping} {router : Router} {network : Network}
    (h : c.state.router.stepStop? client c.state.network step = some (step', router, network)) :
    Step c { c with state := { c.state with router, network } }
  | elsewhere (clock : Clock) (network : Network) (now : Nat) (wall : Int) :
    Step c { c with state := { c.state with clock, network, now, wall } }

def Run : Correspondence → Correspondence → Prop :=
  Relation.ReflTransGen Step

/-- The promise of an invocation: what has arrived and was not given to it yet. -/
def promise (c : Correspondence) (i : Invocation) : Bytes × Awaiting :=
  (i.id, { topic := i.topic, responses := (c.arrived i).drop i.received.length })

structure Agrees (c : Correspondence) : Prop where
  pending : c.state.router.pending = c.live.map c.promise
  nodup : (c.live.map Invocation.id).Nodup
  size : ∀ i ∈ c.live, i.id.length = correlationSize
  since : ∀ i ∈ c.invocations, i.since ≤ c.arrivals.length
  ended : ∀ i ∈ c.invocations, ∀ n, i.ended = some n → n ≤ c.arrivals.length
  received : ∀ i ∈ c.invocations, i.received <+: c.arrived i

theorem mem_live : i ∈ c.live ↔ i ∈ c.invocations ∧ i.isLive = true := by
  rw [live, List.mem_filter]

theorem ended_of_mem_live (hi : i ∈ c.live) : i.ended = none := by
  simpa [Invocation.isLive] using (mem_live.mp hi).2

namespace Agrees

theorem keys (h : c.Agrees) : c.state.router.pending.map Prod.fst = c.live.map Invocation.id := by
  rw [h.pending, List.map_map]
  rfl

theorem eq_of_id_eq (h : c.Agrees) (hi : i ∈ c.live) (hj : j ∈ c.live)
    (hid : j.id = i.id) : j = i :=
  List.inj_on_of_nodup_map h.nodup hj hi hid

theorem lookup (h : c.Agrees) (hi : i ∈ c.live) :
    c.state.router.pending.lookup i.id = some (c.promise i).2 := by
  refine Association.lookup_of_mem (h.keys ▸ h.nodup) ?_
  rw [h.pending]
  exact List.mem_map_of_mem hi

theorem lookup_isSome_iff (h : c.Agrees) (id : Bytes) :
    (c.state.router.pending.lookup id).isSome = true ↔ ∃ i ∈ c.live, i.id = id := by
  constructor
  · intro hs
    by_contra hn
    have hkey : id ∉ c.state.router.pending.map Prod.fst := by
      rw [h.keys, List.mem_map]
      exact hn
    have hnone : c.state.router.pending.lookup id = none :=
      List.lookup_eq_none_iff.mpr fun p hp => by
        simpa using fun heq : id = p.1 => hkey (heq ▸ List.mem_map_of_mem hp)
    rw [hnone] at hs
    cases hs
  · rintro ⟨i, hi, rfl⟩
    rw [h.lookup hi]
    rfl

end Agrees

theorem Agrees.congr (h : c.Agrees) (hp : c'.state.router.pending = c.state.router.pending)
    (ha : c'.arrivals = c.arrivals) (hi : c'.invocations = c.invocations) : c'.Agrees := by
  have hl : c'.live = c.live := by rw [live, live, hi]
  have harrived : c'.arrived = c.arrived := by
    funext i
    rw [arrived, arrived, ha]
  have hpromise : c'.promise = c.promise := by
    funext i
    rw [promise, promise, harrived]
  constructor
  · rw [hp, hl, hpromise, h.pending]
  · rw [hl]
    exact h.nodup
  · rw [hl]
    exact h.size
  · rw [hi, ha]
    exact h.since
  · rw [hi, ha]
    exact h.ended
  · rw [hi, harrived]
    exact h.received

theorem live_enroll (c : Correspondence) (id : Bytes) (topic : String) (router : Router) :
    (c.enroll id topic router).live = c.live ++ [{ id, topic, since := c.arrivals.length }] := by
  simp [enroll, live, Invocation.isLive]

theorem live_dismiss (c : Correspondence) (i : Invocation) :
    (c.dismiss i).live = c.live.filter (·.id != i.id) :=
  Invocation.filter_finish _ _

theorem live_give (c : Correspondence) (i : Invocation) (m : Message) (state : InvokerState) :
    (c.give i m state).live = c.live.map fun j => if j.id = i.id then j.give m else j :=
  Invocation.filter_give _ _

theorem Agrees.enroll (h : c.Agrees) (hsize : id.length = correlationSize)
    (hr : c.state.router.register id topic = .ok router) :
    (c.enroll id topic router).Agrees := by
  obtain ⟨hnone, rfl⟩ := register_eq_ok_iff.mp hr
  have hfree : ∀ i ∈ c.live, i.id ≠ id := by
    intro i hi hid
    have hsome := (h.lookup_isSome_iff id).mpr ⟨i, hi, hid⟩
    rw [hnone] at hsome
    cases hsome
  have hcases {j : Invocation} (hj : j ∈ (c.enroll id topic
      { c.state.router with
        pending := c.state.router.pending ++ [(id, { topic })] }).invocations) :
      j ∈ c.invocations ∨ j = { id, topic, since := c.arrivals.length } := by
    simpa [Correspondence.enroll] using hj
  constructor
  case pending =>
    rw [live_enroll, List.map_append]
    change c.state.router.pending ++ _ = _
    rw [h.pending]
    simp [promise, arrived, Correspondence.enroll]
  case nodup =>
    rw [live_enroll, List.map_append, List.nodup_append]
    refine ⟨h.nodup, List.nodup_singleton _, ?_⟩
    simpa using hfree
  case size =>
    intro i hi
    rw [live_enroll, List.mem_append, List.mem_singleton] at hi
    obtain hi | rfl := hi
    · exact h.size i hi
    · exact hsize
  case since =>
    intro i hi
    obtain hi | rfl := hcases hi
    · exact h.since i hi
    · exact le_rfl
  case ended =>
    intro i hi n hn
    obtain hi | rfl := hcases hi
    · exact h.ended i hi n hn
    · cases hn
  case received =>
    intro i hi
    obtain hi | rfl := hcases hi
    · exact h.received i hi
    · exact List.nil_prefix

theorem Agrees.dismiss (h : c.Agrees) (i : Invocation) : (c.dismiss i).Agrees := by
  have hcases {j : Invocation} (hj : j ∈ (c.dismiss i).invocations) :
      j ∈ c.invocations ∨ ∃ k ∈ c.live, j = k.finish c.arrivals.length := by
    obtain ⟨k, hk, rfl⟩ := List.mem_map.mp hj
    by_cases hcond : k.isLive = true ∧ k.id = i.id
    · rw [if_pos hcond]
      exact .inr ⟨k, mem_live.mpr ⟨hk, hcond.1⟩, rfl⟩
    · rw [if_neg hcond]
      exact .inl hk
  constructor
  case pending =>
    rw [live_dismiss]
    change (c.state.router.deregister i.id).pending = _
    rw [deregister, h.pending, List.filter_map]
    rfl
  case nodup =>
    rw [live_dismiss]
    exact h.nodup.sublist (List.filter_sublist.map _)
  case size =>
    intro j hj
    rw [live_dismiss] at hj
    exact h.size j (List.mem_of_mem_filter hj)
  case since =>
    intro j hj
    obtain hj | ⟨k, hk, rfl⟩ := hcases hj
    · exact h.since j hj
    · exact h.since k (mem_live.mp hk).1
  case ended =>
    intro j hj n hn
    obtain hj | ⟨k, hk, rfl⟩ := hcases hj
    · exact h.ended j hj n hn
    · cases hn
      exact le_rfl
  case received =>
    intro j hj
    obtain hj | ⟨k, hk, rfl⟩ := hcases hj
    · exact h.received j hj
    · have hr := h.received k (mem_live.mp hk).1
      rw [arrived, ended_of_mem_live hk] at hr
      exact hr

theorem arrived_arrive (h : c.Agrees) (hi : i ∈ c.invocations) (m : Message)
    (state : InvokerState) :
    (c.arrive (some m) state).arrived i =
      c.arrived i ++ (if i.isLive = true ∧ i.expects m = true then [m] else []) := by
  have hsince := h.since i hi
  rw [arrived, arrived, arrive, Option.toList_some]
  cases he : i.ended with
  | none =>
    have hl : i.isLive = true := by rw [Invocation.isLive, he, Option.isNone_none]
    simp only [Option.getD_none, List.take_length, List.drop_append_of_le_length hsince,
      List.filter_append, hl, true_and]
    cases hm : i.expects m <;> simp [hm]
  | some n =>
    have hl : i.isLive = false := by rw [Invocation.isLive, he, Option.isNone_some]
    have hn := h.ended i hi n he
    simp [List.take_append_of_le_length hn, hl]

theorem Agrees.keys_size (h : c.Agrees) :
    ∀ p ∈ c.state.router.pending, p.1.length = correlationSize := by
  intro p hp
  rw [h.pending] at hp
  obtain ⟨i, hi, rfl⟩ := List.mem_map.mp hp
  exact h.size i hi

theorem Agrees.arrive (h : c.Agrees)
    (hs : state.router.pending = (c.state.router.deliver m).pending) :
    (c.arrive (some m) state).Agrees := by
  constructor
  case pending =>
    -- Router and invocations ask the same of a message, so both or neither of them count it.
    change state.router.pending = List.map _ c.live
    rw [hs, pending_deliver h.keys_size, h.pending, List.map_map]
    refine List.map_congr_left fun i hi => ?_
    obtain ⟨hmem, hl⟩ := mem_live.mp hi
    have hle := (h.received i hmem).length_le
    have harrived := arrived_arrive h hmem m state
    by_cases hm : i.expects m = true
    · rw [if_pos ⟨hl, hm⟩] at harrived
      simp only [Invocation.expects, Bool.and_eq_true, decide_eq_true_eq] at hm
      simp [promise, harrived, hm, List.drop_append_of_le_length hle]
    · rw [if_neg fun hc => hm hc.2, List.append_nil] at harrived
      have hne : ¬(m.correlationData = some i.id ∧ i.topic = m.topic) := by
        rintro ⟨hd, ht⟩
        exact hm (by simp [Invocation.expects, hd, ht])
      simp [promise, harrived, hne]
  case nodup =>
    exact h.nodup
  case size =>
    exact h.size
  case since =>
    intro i hi
    have hsince := h.since i hi
    simp only [Correspondence.arrive, List.length_append]
    omega
  case ended =>
    intro i hi n hn
    have hended := h.ended i hi n hn
    simp only [Correspondence.arrive, List.length_append]
    omega
  case received =>
    intro i hi
    rw [arrived_arrive h hi]
    exact (h.received i hi).trans (List.prefix_append _ _)

theorem Agrees.give (h : c.Agrees) (hi : i ∈ c.live)
    (ht : c.state.router.take? i.id = some (m, router)) (hs : state.router = router) :
    (c.give i m state).Agrees := by
  obtain ⟨a, rest, hlookup, hresponses, rfl⟩ := take?_eq_some_iff.mp ht
  rw [h.lookup hi, Option.some_inj] at hlookup
  subst hlookup
  have hdrop : (c.arrived i).drop i.received.length = m :: rest := hresponses
  have hmem := (mem_live.mp hi).1
  have hcases {j : Invocation} (hj : j ∈ (c.give i m state).invocations) :
      j ∈ c.invocations ∨ j = i.give m := by
    obtain ⟨k, hk, rfl⟩ := List.mem_map.mp hj
    by_cases hcond : k.isLive = true ∧ k.id = i.id
    · rw [if_pos hcond, h.eq_of_id_eq hi (mem_live.mpr ⟨hk, hcond.1⟩) hcond.2]
      exact .inr rfl
    · rw [if_neg hcond]
      exact .inl hk
  constructor
  case pending =>
    change state.router.pending = _
    rw [hs, live_give, modifyPending, h.pending, List.map_map, List.map_map]
    refine List.map_congr_left fun j hj => ?_
    rw [Function.comp_apply, Function.comp_apply]
    by_cases hid : j.id = i.id
    · obtain rfl := h.eq_of_id_eq hi hj hid
      have hlen : (j.give m).received.length = j.received.length + 1 := by
        simp [Invocation.give]
      have hnext : rest = (c.arrived j).drop (j.give m).received.length := by
        rw [hlen, ← List.drop_drop, hdrop]
        rfl
      rw [if_pos rfl]
      exact Prod.ext rfl ((if_pos rfl).trans
        (congrArg (fun responses => { topic := j.topic, responses : Awaiting }) hnext))
    · rw [if_neg hid]
      exact Prod.ext rfl (if_neg hid)
  case nodup =>
    rw [live_give, List.map_map]
    convert h.nodup using 1
    refine List.map_congr_left fun j _ => ?_
    by_cases hid : j.id = i.id <;> simp [hid, Invocation.give]
  case size =>
    intro j hj
    rw [live_give] at hj
    obtain ⟨k, hk, rfl⟩ := List.mem_map.mp hj
    have hlen := h.size k hk
    by_cases hid : k.id = i.id <;> simpa [hid, Invocation.give] using hlen
  case since =>
    intro j hj
    obtain hj | rfl := hcases hj
    · exact h.since j hj
    · exact h.since i hmem
  case ended =>
    intro j hj n hn
    obtain hj | rfl := hcases hj
    · exact h.ended j hj n hn
    · exact h.ended i hmem n hn
  case received =>
    intro j hj
    obtain hj | rfl := hcases hj
    · exact h.received j hj
    · obtain ⟨suffix, hsuffix⟩ := h.received i hmem
      change i.received ++ [m] <+: c.arrived i
      rw [← hsuffix, List.drop_left] at hdrop
      rw [← hsuffix, hdrop]
      exact ⟨rest, by simp⟩

theorem receive?_eq_ok_iff {isCancelled : Bool} :
    (∃ next, state.receive? id isCancelled = some (.ok m, next)) ↔
      ∃ router, state.router.take? id = some (m, router) := by
  constructor
  · rintro ⟨next, h⟩
    exact ⟨_, (InvokerState.receives_of_receive? h).take?⟩
  · rintro ⟨router, h⟩
    rw [InvokerState.receive?, h]
    exact ⟨_, rfl⟩

theorem Agrees.step (h : c.Agrees) (hs : c.Step c') : c'.Agrees := by
  cases hs with
  | register hsize hr => exact h.enroll hsize hr
  | drop hi => exact h.dismiss _
  | receive hi hr => exact h.give hi (InvokerState.receives_of_receive? hr).take? rfl
  | ensure he => exact h.congr (pending_stepEnsure? he) rfl rfl
  | stop hs => exact h.congr (pending_stepStop? hs) rfl rfl
  | elsewhere => exact h.congr rfl rfl rfl
  | route hr =>
    obtain ⟨d, taken, ha, rfl, -⟩ | ⟨ha, rfl⟩ := stepRoute?_cases hr
    · rw [ha]
      exact h.arrive rfl
    · rw [ha]
      exact h.congr rfl (List.append_nil _) rfl

structure IsFresh (c : Correspondence) : Prop where
  pending : c.state.router.pending = []
  arrivals : c.arrivals = []
  invocations : c.invocations = []

theorem IsFresh.agrees (h : c.IsFresh) : c.Agrees := by
  have hlive : c.live = [] := by rw [live, h.invocations, List.filter_nil]
  constructor <;> simp [hlive, h.pending, h.invocations]

theorem Agrees.run (h : c.Agrees) (hr : c.Run c') : c'.Agrees := by
  induction hr with
  | refl => exact h
  | tail _ hs ih => exact ih.step hs

theorem register_dismiss (c : Correspondence) (i : Invocation) (topic : String) :
    ∃ router, (c.dismiss i).state.router.register i.id topic = .ok router := by
  refine ⟨_, register_eq_ok_iff.mpr ⟨?_, rfl⟩⟩
  change (c.state.router.pending.filter (·.1 != i.id)).lookup i.id = none
  rw [Association.lookup_filter_ne, if_pos rfl]

theorem Agrees.nodup_texts (h : c.Agrees) : (c.live.map fun i => Uuid.text i.id).Nodup := by
  have htexts : ((c.live.map Invocation.id).map Uuid.text).Nodup := by
    refine h.nodup.map_on fun a ha b hb heq => ?_
    obtain ⟨i, hi, rfl⟩ := List.mem_map.mp ha
    obtain ⟨j, hj, rfl⟩ := List.mem_map.mp hb
    exact Uuid.text_injOn (h.size i hi) (h.size j hj) heq
  rwa [List.map_map] at htexts

theorem Agrees.receives_iff (h : c.Agrees) (hi : i ∈ c.live) (isCancelled : Bool) (m : Message) :
    (∃ next, c.state.receive? i.id isCancelled = some (.ok m, next)) ↔
      ((c.arrived i).drop i.received.length).head? = some m := by
  rw [receive?_eq_ok_iff]
  simp only [take?_eq_some_iff, h.lookup hi, Option.some_inj]
  constructor
  · rintro ⟨router, a, rest, rfl, hrest, -⟩
    change (c.promise i).2.responses.head? = _
    rw [hrest, List.head?_cons]
  · intro hhead
    obtain ⟨rest, hrest⟩ := List.head?_eq_some_iff.mp hhead
    exact ⟨_, _, rest, rfl, hrest, rfl⟩

theorem Agrees.route_arrival (h : c.Agrees) {route : Nat} {router : Router} {network : Network}
    (hr : c.state.router.stepRoute? route c.state.network = some (router, network)) {d : Delivery}
    (hd : c.state.router.arrival? route c.state.network = some d) :
    network.broker.acks.isAcknowledged d.ack = true ∧
      ((∀ i ∈ c.live, i.expects d.message = false) → router = c.state.router) := by
  obtain ⟨d', taken, ha, rfl, rfl⟩ | ⟨ha, -⟩ := stepRoute?_cases hr
  · rw [hd, Option.some_inj] at ha
    subst ha
    refine ⟨AckLedger.isAcknowledged_iff.mpr fun n hn =>
      AckLedger.mem_acknowledge.mpr (.inr hn), fun hnobody => deliver_eq_self ?_⟩
    intro p hp
    rw [h.pending] at hp
    obtain ⟨i, hi, rfl⟩ := List.mem_map.mp hp
    rintro ⟨hdata, htopic⟩
    have hmissed := hnobody i hi
    simp [Invocation.expects, hdata, ← htopic, promise] at hmissed
  · rw [hd] at ha
    cases ha

/-- However invocations, responses and receipts interleave: the router has one promise for each live
invocation and none besides, so that registering fails exactly for the ids in use, and each id is
free once its invocation has ended; an invocation is given what arrived for it, in that order
and once each; every response is acknowledged, and one that is nobody's has no effect. -/
theorem responses_reach_their_invocation {start : Correspondence} (hstart : start.IsFresh)
    (hrun : start.Run c) :
    (c.state.router.pending.map fun p => (p.1, p.2.topic)) =
        c.live.map (fun i => (i.id, i.topic)) ∧
    (c.live.map fun i => Uuid.text i.id).Nodup ∧
    (∀ id topic, (∃ e, c.state.router.register id topic = .error e) ↔
      ∃ i ∈ c.live, i.id = id) ∧
    (∀ i ∈ c.live, ∀ topic, ∃ router,
      (c.dismiss i).state.router.register i.id topic = .ok router) ∧
    (∀ i ∈ c.invocations, i.received <+: c.arrived i ∧
      ∀ m ∈ i.received, m.correlationData = some i.id ∧ m.topic = i.topic) ∧
    (∀ i ∈ c.live, ∀ isCancelled m,
      (∃ next, c.state.receive? i.id isCancelled = some (.ok m, next)) ↔
        ((c.arrived i).drop i.received.length).head? = some m) ∧
    ∀ route router network,
      c.state.router.stepRoute? route c.state.network = some (router, network) →
      ∀ d, c.state.router.arrival? route c.state.network = some d →
        network.broker.acks.isAcknowledged d.ack = true ∧
          ((∀ i ∈ c.live, i.expects d.message = false) → router = c.state.router) := by
  have h := hstart.agrees.run hrun
  refine ⟨?_, h.nodup_texts, fun id topic => ?_, fun i _ topic => register_dismiss c i topic,
    fun i hi => ⟨h.received i hi, fun m hm => ?_⟩, fun i hi => h.receives_iff hi,
    fun _ _ _ hr _ hd => h.route_arrival hr hd⟩
  · rw [h.pending, List.map_map]
    rfl
  · rw [exists_register_eq_error_iff, h.lookup_isSome_iff]
  · have hexpects := List.of_mem_filter ((h.received i hi).subset hm)
    simpa [Invocation.expects] using hexpects

def responseTo (byte : UInt8) : Delivery where
  message := { topic := "r", correlationData := some (List.replicate 16 byte) }
  ack := ⟨[byte.toNat]⟩

/-- An invoker with one route, in whose mailbox two responses wait. -/
def twoArriving : Correspondence where
  state := {
    router := { routes := [{ box := 0 }] }
    clock := Clock.start "c" 0 (.ofSecs 1)
    network := { broker := { mailboxes := { boxes := [{
      waiting := [responseTo 1, responseTo 2] }] } } }
    now := 0
    wall := 0 }

def firstAwaited : Correspondence :=
  twoArriving.enroll (.replicate 16 1) "r" { twoArriving.state.router with
    pending := [(.replicate 16 1, { topic := "r" })] }

/-- The invocation is given the response for it, and its id stays in use. The other response is
acknowledged, and changes nothing. -/
theorem response_received_once : ∃ c, twoArriving.IsFresh ∧ twoArriving.Run c ∧
    (c.live.map fun i => (i.id, i.received)) =
      [(List.replicate 16 1, [(responseTo 1).message])] ∧
    (∃ e, c.state.router.register (.replicate 16 1) "other" = .error e) ∧
    ∃ router network, c.state.router.stepRoute? 0 c.state.network = some (router, network) ∧
      network.broker.acks.isAcknowledged ⟨[2]⟩ = true ∧ router = c.state.router := by
  have hfresh : twoArriving.IsFresh := ⟨rfl, rfl, rfl⟩
  have hregister : twoArriving.Step firstAwaited := .register rfl rfl
  have hroute := @Step.route firstAwaited 0 _ _ rfl
  have hrun := ((Relation.ReflTransGen.single hregister).tail hroute).tail
    (@Step.receive _ { id := .replicate 16 1, topic := "r", since := 0 } false _ _
      (List.mem_singleton_self _) rfl)
  obtain ⟨-, -, hinUse, -, -, -, hroutes⟩ := responses_reach_their_invocation hfresh hrun
  obtain ⟨hack, hsame⟩ := hroutes 0 _ _ rfl (responseTo 2) rfl
  exact ⟨_, hfresh, hrun, rfl, (hinUse _ _).mpr ⟨_, List.mem_singleton_self _, rfl⟩, _, _, rfl,
    hack, hsame (by decide)⟩

end Correspondence

end CommandBus
