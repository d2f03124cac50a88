import CommandBus.Proofs.Stream.Requests
import CommandBus.Proofs.Stream.Transcript
import CommandBus.Proofs.Text.Identifier
import Mathlib

namespace CommandBus

theorem Router.lookup_deliver {id : Bytes} (h : id.length = correlationSize) (r : Router)
    (m : Message) : (r.deliver m).pending.lookup id = (r.pending.lookup id).map fun a =>
      if m.correlationData = some id ∧ a.topic = m.topic then
        { a with responses := a.responses ++ [m] }
      else a := by
  unfold deliver
  cases hm : m.correlationData with
  | none => simp
  | some data =>
    dsimp only
    split
    next hsize =>
      rw [modifyPending, Association.lookup_map_value r.pending
        (fun k a => if k = data then
          if a.topic = m.topic then { a with responses := a.responses ++ [m] } else a else a) id]
      by_cases hid : id = data
      · simp [hid]
      · simp [hid, Ne.symm hid]
    next hsize =>
      have hne : data ≠ id := by
        rintro rfl
        exact hsize h
      simp [hne]

theorem Router.lookup_take? {id : Bytes} {r r' : Router} {m : Message} {a : Awaiting}
    (h : r.take? id = some (m, r')) (ha : r.pending.lookup id = some a) :
    ∃ rest, a.responses = m :: rest ∧
      r'.pending.lookup id = some { a with responses := rest } := by
  obtain ⟨a', rest, ha', hrest, rfl⟩ := take?_eq_some_iff.mp h
  cases ha.symm.trans ha'
  refine ⟨rest, hrest, ?_⟩
  rw [modifyPending, Association.lookup_map_value r.pending
    (fun k a => if k = id then { a with responses := rest } else a) id, ha]
  simp

namespace Stream

variable {V : Type} {c : Channel V} {st st' : Stream V} {s s' : InvokerState} {m : Message}
  {e : ProtocolError} {sent : Option Message}

def Answers (c : Channel V) (position : Nat) (m : Message)
    (result : Except ProtocolError (StreamItem V)) : Prop :=
  ∃ (clock : Clock) (wall : Int),
    result = ((indexOf m position).bind fun index =>
      (Response.read c.responseCodec m clock wall).1.map fun response =>
        { response, index, isLast := isMarkedLast m }).mapError (·.withCommand c.commandName)

theorem answers_readItem {result : Except ProtocolError (StreamItem V)}
    (h : readItem c st s m = (result, st', s')) :
    Answers c st.received m (result.mapError (·.withCommand c.commandName)) ∧
      st' = { st with
        received := st.received + 1
        isDone := st.isDone || isMarkedLast m } ∧
      s'.router = s.router := by
  unfold readItem at h
  dsimp only at h
  split at h
  next e he =>
    cases h
    exact ⟨⟨s.clock, s.wall, by rw [he]; rfl⟩, rfl, rfl⟩
  next index hindex =>
    cases h
    exact ⟨⟨s.clock, s.wall, by rw [hindex]; rfl⟩, rfl, rfl⟩

theorem Answers.of_ok {position : Nat} {item : StreamItem V} (h : Answers c position m (.ok item)) :
    item.isLast = isMarkedLast m ∧
      (m.userProperty? Property.streamIndex.key = none → item.index = position.toUInt64) ∧
      ∀ text, m.userProperty? Property.streamIndex.key = some text →
        Text.readUInt64 text = some item.index := by
  obtain ⟨clock, wall, h⟩ := h
  cases hindex : indexOf m position with
  | error e =>
    rw [hindex] at h
    cases h
  | ok index =>
    rw [hindex] at h
    cases hread : (Response.read c.responseCodec m clock wall).1 with
    | error e =>
      simp only [hread] at h
      cases h
    | ok response =>
      simp only [hread] at h
      cases h
      refine ⟨rfl, fun hnone => ?_, fun text htext => ?_⟩
      · rw [indexOf, hnone] at hindex
        cases hindex
        rfl
      · rw [indexOf, htext] at hindex
        dsimp only at hindex
        split at hindex
        next hnumber =>
          cases hindex
          exact hnumber
        next => cases hindex

theorem correlationId_of_prepare {request : StreamRequest V} {id : Bytes} {route : StreamRoute}
    (h : prepare c request id = .ok route) : route.correlationId = id := by
  simp only [prepare, bind, Except.bind] at h
  split at h
  · cases h
  split at h
  · cases h
  split at h
  · cases h
  cases h
  rfl

theorem Interrupts.exists_sender (h : Interrupts c st s e s' sent) : ∃ t, st.sender = some t := by
  cases h with
  | senderFailed ht | shutDown ht | cancelled ht | expired ht => exact ⟨_, ht⟩

theorem step?_of_stepSender? {t : Sender} (ht : st.sender = some t)
    (h : st.stepSender? c s = some (st', s')) :
    ∃ t' input, t.step? c st.isCancelled st.input s = some (t', input, s') ∧
      st' = { st with sender := some t', input } := by
  simp only [stepSender?, Option.bind_eq_bind] at h
  split at h
  · cases h
  · rw [ht, Option.bind_some] at h
    obtain ⟨⟨t', input, s''⟩, hs, heq⟩ := Option.bind_eq_some_iff.mp h
    cases heq
    exact ⟨t', input, hs, rfl⟩

theorem Interrupts.router_eq (h : Interrupts c st s e s' sent) : s'.router = s.router := by
  cases h with
  | senderFailed | shutDown | expired => rfl
  | cancelled => exact s.router_send c _

def Opening.route? : Opening → Option StreamRoute
  | .awaitingInput route | .subscribing route _ => some route
  | _ => none

end Stream

namespace Transcript

variable {V : Type} {c : Channel V} {r₀ r r' : Transcript V} {t : Sender}
  {failure : Option ProtocolError} {request : StreamRequest V} {stream : Stream V}
  {state : InvokerState} {m : Message} {item : Stream.Item V} {sent : Option Message}

def taken (r : Transcript V) : List Message :=
  r.arrived.take r.stream.received

structure Unserved (r : Transcript V) : Prop where
  sender_eq : r.stream.sender = none
  opening_ne : r.stream.opening ≠ .opened
  size : ∀ route, r.stream.opening.route? = some route →
    route.correlationId.length = Router.correlationSize
  isDropped_eq : (∀ e, r.stream.opening ≠ .failed e) → r.stream.isDropped = false
  isSending_eq : r.stream.isSending = true
  received_eq : r.stream.received = 0
  isDone_eq : r.stream.isDone = false
  arrived_eq : r.arrived = []
  items_eq : r.items = []
  hasEnded_eq : r.hasEnded = true → r.stream.isDropped = true

/-- What an open exchange has yielded: an item for each response that has been taken, of which none
but the latest can be marked last, and at most one error of its own. The responses that have come
since then wait. -/
structure Served (c : Channel V) (r₀ r : Transcript V) (t : Sender)
    (failure : Option ProtocolError) : Prop where
  sender_eq : r.stream.sender = some t
  opening_eq : r.stream.opening = .opened
  size : t.route.correlationId.length = Router.correlationSize
  received_le : r.stream.received ≤ r.arrived.length
  pending : r.stream.isDropped = false →
    r.state.router.pending.lookup t.route.correlationId =
      some { topic := t.route.responseTopic, responses := r.arrived.drop r.stream.received }
  items : ∃ answers,
    r.items = answers ++ (failure.map fun e => .error (e.withCommand c.commandName)).toList ∧
      List.Forall₂ (fun p result => Stream.Answers c p.2 p.1 result) r.taken.zipIdx answers
  unmarked : ∀ m ∈ r.taken.dropLast, Stream.isMarkedLast m = false
  isDone_iff : r.stream.isDone = true ↔
    failure.isSome = true ∨ ∃ m, r.taken.getLast? = some m ∧ Stream.isMarkedLast m = true
  isDone_of_isDropped : r.stream.isDropped = true → r.stream.isDone = true
  isDone_of_hasEnded : r.hasEnded = true → r.stream.isDone = true
  isDone_or : r.stream.isSending = false → r.stream.isDone = true ∨ t.phase = .finished (.ok ())
  /-- The error has a reason. -/
  interrupted : ∀ e, failure = some e → ∃ u state sent, Run c r₀ u ∧ Run c u r ∧
    Stream.Interrupts c u.stream u.state e state sent

theorem Unserved.start (request : StreamRequest V) (state : InvokerState) :
    Unserved (start request state) where
  sender_eq := rfl
  opening_ne h := by cases h
  size _ h := by cases h
  isDropped_eq _ := rfl
  isSending_eq := rfl
  received_eq := rfl
  isDone_eq := rfl
  arrived_eq := rfl
  items_eq := rfl
  hasEnded_eq h := by cases h

theorem Unserved.fail (h : Unserved r) (e : ProtocolError) :
    Unserved (r.act (r.stream.fail c e) state sent) where
  sender_eq := h.sender_eq
  opening_ne h := by cases h
  size _ h := by cases h
  isDropped_eq hnot := absurd rfl (hnot _)
  isSending_eq := h.isSending_eq
  received_eq := h.received_eq
  isDone_eq := h.isDone_eq
  arrived_eq := h.arrived_eq
  items_eq := h.items_eq
  hasEnded_eq _ := rfl

theorem Unserved.goOn (h : Unserved r) (hnot : ∀ e, r.stream.opening ≠ .failed e)
    (opening : Stream.Opening) (deadline : Nat) {route : StreamRoute}
    (hroute : opening.route? = some route)
    (hsize : route.correlationId.length = Router.correlationSize) :
    Unserved (r.act { r.stream with opening, deadline } state sent) where
  sender_eq := h.sender_eq
  opening_ne heq := by
    have hopened : opening = .opened := heq
    rw [hopened] at hroute
    cases hroute
  size route' h' := by
    have hroute' : opening.route? = some route' := h'
    cases hroute.symm.trans hroute'
    exact hsize
  isDropped_eq _ := h.isDropped_eq hnot
  isSending_eq := h.isSending_eq
  received_eq := h.received_eq
  isDone_eq := h.isDone_eq
  arrived_eq := h.arrived_eq
  items_eq := h.items_eq
  hasEnded_eq := h.hasEnded_eq

theorem Served.start (hsender : r.stream.sender = some t) (hopening : r.stream.opening = .opened)
    (hsize : t.route.correlationId.length = Router.correlationSize)
    (hpending : r.state.router.pending.lookup t.route.correlationId =
      some { topic := t.route.responseTopic })
    (hdropped : r.stream.isDropped = false) (hsending : r.stream.isSending = true)
    (hreceived : r.stream.received = 0) (hdone : r.stream.isDone = false)
    (harrived : r.arrived = []) (hitems : r.items = []) (hended : r.hasEnded = false) :
    Served c r₀ r t none := by
  have htaken : r.taken = [] := by rw [taken, harrived, List.take_nil]
  exact {
    sender_eq := hsender
    opening_eq := hopening
    size := hsize
    received_le := hreceived ▸ Nat.zero_le _
    pending := fun _ => by rw [hpending, harrived, List.drop_nil]
    items := ⟨[], hitems, by rw [htaken]; exact .nil⟩
    unmarked := by simp [htaken]
    isDone_iff := by simp [htaken, hdone]
    isDone_of_isDropped := by simp [hdropped]
    isDone_of_hasEnded := by simp [hended]
    isDone_or := by simp [hsending]
    interrupted := by simp }

theorem Unserved.open {route : StreamRoute} {router : Router} (h : Unserved r)
    (hopening : r.stream.opening = .subscribing route (.done (.ok ())))
    (hr : r.state.router.register route.correlationId route.responseTopic = .ok router) :
    Served c r₀
      (r.act
        { r.stream with
          opening := .opened
          sender := some { route, userData := r.stream.request.userData } }
        { r.state with router } sent)
      { route, userData := r.stream.request.userData } none := by
  obtain ⟨hnone, rfl⟩ := Router.register_eq_ok_iff.mp hr
  have hkept := h.isDropped_eq (by simp [hopening])
  have hended : r.hasEnded = false := by
    rw [← Bool.not_eq_true]
    intro hended
    exact absurd (hkept.symm.trans (h.hasEnded_eq hended)) Bool.false_ne_true
  have hlookup : (r.state.router.pending ++
      [(route.correlationId, ({ topic := route.responseTopic } : Awaiting))]).lookup
        route.correlationId = some { topic := route.responseTopic } := by
    rw [List.lookup_append, hnone, Option.none_or, List.lookup_cons_self]
  exact .start rfl rfl (h.size route (by rw [hopening]; rfl)) hlookup hkept h.isSending_eq
    h.received_eq h.isDone_eq h.arrived_eq h.items_eq hended

theorem Unserved.advance (h : Unserved r)
    (ha : Stream.Advances c r.stream r.state stream state) :
    Unserved (r.act stream state none) ∨ ∃ t, Served c r₀ (r.act stream state none) t none := by
  cases ha with
  | begun hchecking =>
    have hnot : ∀ e, r.stream.opening ≠ .failed e := by simp [hchecking]
    have hid : r.state.network.freshId.1.length = Router.correlationSize := Uuid.length_ofIndex _
    rw [Stream.begin]
    generalize r.state.network.freshId = fresh at hid
    obtain ⟨id, network⟩ := fresh
    dsimp only at hid ⊢
    split
    next e _ => exact .inl (h.fail e)
    next route hprepare =>
      have hroute := Stream.correlationId_of_prepare hprepare
      exact .inl (h.goOn hnot (.awaitingInput route) _ rfl (hroute ▸ hid))
  | @awaited route stream hopening hawaits =>
    have hnot : ∀ e, r.stream.opening ≠ .failed e := by simp [hopening]
    have hsize := h.size route (by rw [hopening]; rfl)
    cases hawaits with
    | cancelled | ended | expired => exact .inl (h.fail _)
    | ready => exact .inl (h.goOn hnot (.subscribing route .locking) r.stream.deadline rfl hsize)
  | @ensured route _ step _ _ _ hopening =>
    have hnot : ∀ e, r.stream.opening ≠ .failed e := by simp [hopening]
    have hsize := h.size route (by rw [hopening]; rfl)
    exact .inl (h.goOn hnot (.subscribing route step) r.stream.deadline rfl hsize)
  | failed => exact .inl (h.fail _)
  | opened hopening hr => exact .inr ⟨_, h.open hopening hr⟩

structure SameService (r r' : Transcript V) (t t' : Sender) : Prop where
  sender_eq : r'.stream.sender = some t'
  route_eq : t'.route = t.route
  opening_eq : r'.stream.opening = r.stream.opening
  received_eq : r'.stream.received = r.stream.received
  isDone_eq : r'.stream.isDone = r.stream.isDone
  isDropped_eq : r'.stream.isDropped = r.stream.isDropped
  arrived_eq : r'.arrived = r.arrived
  items_eq : r'.items = r.items
  hasEnded_eq : r'.hasEnded = r.hasEnded
  pending_eq : r.stream.isDropped = false →
    r'.state.router.pending.lookup t.route.correlationId =
      r.state.router.pending.lookup t.route.correlationId

namespace Served

theorem interrupted_step (h : Served c r₀ r t failure) (hstep : Step c r r') :
    ∀ e, failure = some e → ∃ u state sent, Run c r₀ u ∧ Run c u r' ∧
      Stream.Interrupts c u.stream u.state e state sent := fun e he => by
  obtain ⟨u, state, sent, hu, hu', hi⟩ := h.interrupted e he
  exact ⟨u, state, sent, hu, hu'.tail hstep, hi⟩

theorem same {t' : Sender} (h : Served c r₀ r t failure) (hs : SameService r r' t t')
    (hstep : Step c r r')
    (hor : r'.stream.isSending = false → r.stream.isDone = true ∨ t'.phase = .finished (.ok ())) :
    Served c r₀ r' t' failure := by
  have htaken : r'.taken = r.taken := by rw [taken, taken, hs.arrived_eq, hs.received_eq]
  exact {
    sender_eq := hs.sender_eq
    opening_eq := hs.opening_eq.trans h.opening_eq
    size := hs.route_eq ▸ h.size
    received_le := by rw [hs.received_eq, hs.arrived_eq]; exact h.received_le
    pending := fun hkept => by
      rw [hs.isDropped_eq] at hkept
      rw [hs.route_eq, hs.pending_eq hkept, hs.arrived_eq, hs.received_eq]
      exact h.pending hkept
    items := by rw [hs.items_eq, htaken]; exact h.items
    unmarked := by rw [htaken]; exact h.unmarked
    isDone_iff := by rw [hs.isDone_eq, htaken]; exact h.isDone_iff
    isDone_of_isDropped := by rw [hs.isDropped_eq, hs.isDone_eq]; exact h.isDone_of_isDropped
    isDone_of_hasEnded := by rw [hs.hasEnded_eq, hs.isDone_eq]; exact h.isDone_of_hasEnded
    isDone_or := by rw [hs.isDone_eq]; exact hor
    interrupted := h.interrupted_step hstep }

theorem of_not_isDone (h : Served c r₀ r t failure) (hopen : r.stream.isDone = false) :
    failure = none ∧ ∀ m ∈ r.taken, Stream.isMarkedLast m = false := by
  have hnot : ¬(failure.isSome = true ∨
      ∃ m, r.taken.getLast? = some m ∧ Stream.isMarkedLast m = true) := fun hor => by
    rw [← h.isDone_iff, hopen] at hor
    cases hor
  rw [not_or, Option.not_isSome_iff_eq_none] at hnot
  refine ⟨hnot.1, fun m hm => ?_⟩
  obtain ⟨earlier, last, heq⟩ : ∃ earlier last, r.taken = earlier ++ [last] :=
    ⟨_, _, (List.dropLast_append_getLast (List.ne_nil_of_mem hm)).symm⟩
  have hunmarked := h.unmarked
  rw [heq, List.dropLast_concat] at hunmarked
  rw [heq] at hm
  obtain hm | hm := List.mem_append.mp hm
  · exact hunmarked m hm
  · obtain rfl := List.mem_singleton.mp hm
    rw [← Bool.not_eq_true]
    exact fun hmarked => hnot.2 ⟨m, by rw [heq, List.getLast?_concat], hmarked⟩

theorem respond (h : Served c r₀ r t failure)
    (hkept : r.stream.isDropped = false) (hopen : r.stream.isDone = false) {router : Router}
    (hm : r.state.router.take? t.route.correlationId = some (m, router))
    {result : Except ProtocolError (StreamItem V)}
    (ha : Stream.Answers c r.stream.received m result)
    (hsender : r'.stream.sender = some t) (hopening : r'.stream.opening = .opened)
    (hreceived : r'.stream.received = r.stream.received + 1)
    (hdone : r'.stream.isDone = Stream.isMarkedLast m)
    (hdropped : r'.stream.isDropped = false) (harrived : r'.arrived = r.arrived)
    (hitems : r'.items = r.items ++ [result]) (hended : r'.hasEnded = r.hasEnded)
    (hrouter : r'.state.router = router)
    (hor : r'.stream.isSending = r.stream.isSending ∨ t.phase = .finished (.ok ())) :
    Served c r₀ r' t none := by
  obtain ⟨rest, hrest, hpending⟩ := Router.lookup_take? hm (h.pending hkept)
  dsimp only at hrest hpending
  have hnext : r.arrived[r.stream.received]? = some m := by
    rw [← List.head?_drop, hrest, List.head?_cons]
  have hlt : r.stream.received < r.arrived.length := (List.getElem?_eq_some_iff.mp hnext).1
  have htaken : r'.taken = r.taken ++ [m] := by
    rw [taken, harrived, hreceived, List.take_add_one, hnext, Option.toList_some, taken]
  have hlength : r.taken.length = r.stream.received := by
    rw [taken, List.length_take, min_eq_left h.received_le]
  obtain ⟨rfl, hunmarked⟩ := h.of_not_isDone hopen
  obtain ⟨answers, hyielded, hanswers⟩ := h.items
  rw [Option.map_none, Option.toList_none, List.append_nil] at hyielded
  exact {
    sender_eq := hsender
    opening_eq := hopening
    size := h.size
    received_le := by rw [hreceived, harrived]; exact hlt
    pending := fun _ => by
      rw [hrouter, hpending, harrived, hreceived, ← List.tail_drop, hrest, List.tail_cons]
    items := by
      refine ⟨answers ++ [result], by simp [hitems, hyielded], ?_⟩
      rw [htaken, List.zipIdx_append]
      refine List.rel_append hanswers (.cons ?_ .nil)
      simpa [hlength] using ha
    unmarked := by rw [htaken, List.dropLast_concat]; exact hunmarked
    isDone_iff := by simp [hdone, htaken]
    isDone_of_isDropped := by simp [hdropped]
    isDone_of_hasEnded := fun h' => by
      rw [hended] at h'
      rw [h.isDone_of_hasEnded h'] at hopen
      cases hopen
    isDone_or := fun hoff => .inr <| hor.elim (fun hsame => by
      rw [hsame] at hoff
      refine (h.isDone_or hoff).resolve_left fun hdone => ?_
      rw [hdone] at hopen
      cases hopen) id
    interrupted := by simp }

theorem interrupt {e : ProtocolError} (h : Served c r₀ r t failure) (hrun : Run c r₀ r)
    (hkept : r.stream.isDropped = false) (hopen : r.stream.isDone = false)
    (hi : Stream.Interrupts c r.stream r.state e state sent) (isSending : Bool) :
    Served c r₀ ((r.act { r.stream with isSending, isDone := true } state sent).yield
      (.item (.error (e.withCommand c.commandName)))) t (some e) where
  sender_eq := h.sender_eq
  opening_eq := h.opening_eq
  size := h.size
  received_le := h.received_le
  pending _ := by
    refine Eq.trans ?_ (h.pending hkept)
    exact congrArg (fun router : Router => router.pending.lookup t.route.correlationId) hi.router_eq
  items := by
    obtain ⟨rfl, -⟩ := h.of_not_isDone hopen
    obtain ⟨answers, hyielded, hanswers⟩ := h.items
    rw [Option.map_none, Option.toList_none, List.append_nil] at hyielded
    exact ⟨answers, congrArg (· ++ _) hyielded, hanswers⟩
  unmarked := h.unmarked
  isDone_iff := iff_of_true rfl (.inl rfl)
  isDone_of_isDropped _ := rfl
  isDone_of_hasEnded _ := rfl
  isDone_or _ := .inl rfl
  interrupted e' he := by
    cases he
    exact ⟨r, state, sent, hrun,
      .single (.poll (.interrupted hkept hopen hi isSending)), hi⟩

theorem finish (h : Served c r₀ r t failure) (hdone : r.stream.isDone = true)
    (hstep : Step c r ((r.act (r.stream.drop r.state).1 (r.stream.drop r.state).2 none).yield
      .ended)) :
    Served c r₀ ((r.act (r.stream.drop r.state).1 (r.stream.drop r.state).2 none).yield .ended) t
      failure where
  sender_eq := h.sender_eq
  opening_eq := h.opening_eq
  size := h.size
  received_le := h.received_le
  pending hkept := by cases hkept
  items := h.items
  unmarked := h.unmarked
  isDone_iff := h.isDone_iff
  isDone_of_isDropped _ := hdone
  isDone_of_hasEnded _ := hdone
  isDone_or := h.isDone_or
  interrupted := h.interrupted_step hstep

theorem stay (h : Served c r₀ r t failure) (hdropped : r.stream.isDropped = true)
    (hstep : Step c r ((r.act r.stream r.state none).yield .ended)) :
    Served c r₀ ((r.act r.stream r.state none).yield .ended) t failure where
  sender_eq := h.sender_eq
  opening_eq := h.opening_eq
  size := h.size
  received_le := h.received_le
  pending := h.pending
  items := h.items
  unmarked := h.unmarked
  isDone_iff := h.isDone_iff
  isDone_of_isDropped := h.isDone_of_isDropped
  isDone_of_hasEnded _ := h.isDone_of_isDropped hdropped
  isDone_or := h.isDone_or
  interrupted := h.interrupted_step hstep

theorem poll (h : Served c r₀ r t failure) (hrun : Run c r₀ r)
    (hp : Stream.Polls c r.stream r.state item stream state sent) :
    ∃ failure, Served c r₀ ((r.act stream state sent).yield item) t failure := by
  have hstep : Step c r ((r.act stream state sent).yield item) := .poll hp
  cases hp with
  | gone hdropped => exact ⟨_, h.stay hdropped hstep⟩
  | exhausted _ hdone => exact ⟨_, h.finish hdone hstep⟩
  | interrupted hkept hopen hi isSending => exact ⟨_, h.interrupt hrun hkept hopen hi isSending⟩
  | response hkept hopen ht hm hn hr =>
    obtain rfl := Option.some.inj (h.sender_eq.symm.trans ht)
    obtain ⟨hanswers, rfl, hrouter⟩ := Stream.answers_readItem hr
    refine ⟨none, h.respond hkept hopen hm hanswers h.sender_eq h.opening_eq rfl ?_ hkept rfl rfl
      rfl hrouter (hn.imp_right And.right)⟩
    exact (congrArg (· || _) hopen).trans (Bool.false_or _)

theorem expects_iff (h : Served c r₀ r t failure) (hkept : r.stream.isDropped = false)
    (m : Message) : r.expects m = true ↔
      m.correlationData = some t.route.correlationId ∧ t.route.responseTopic = m.topic := by
  simp only [expects, hkept, h.sender_eq, Bool.not_false, Bool.true_and, Option.elim_some,
    Bool.and_eq_true, beq_iff_eq]
  exact and_congr_right' eq_comm

theorem route (h : Served c r₀ r t failure) (m : Message) : Served c r₀ (r.route m) t failure := by
  have harrived : ∃ more, (r.route m).arrived = r.arrived ++ more := by
    rw [Transcript.route]
    dsimp only
    split
    · exact ⟨[m], rfl⟩
    · exact ⟨[], (List.append_nil _).symm⟩
  obtain ⟨more, hmore⟩ := harrived
  have htaken : (r.route m).taken = r.taken := by
    rw [taken, taken, hmore]
    exact List.take_append_of_le_length h.received_le
  exact {
    sender_eq := h.sender_eq
    opening_eq := h.opening_eq
    size := h.size
    received_le := by
      rw [hmore, List.length_append]
      exact h.received_le.trans (Nat.le_add_right _ _)
    pending := fun hkept => by
      refine (Router.lookup_deliver h.size r.state.router m).trans ?_
      rw [h.pending hkept, Option.map_some, Transcript.route]
      by_cases hexpects : r.expects m = true
      · rw [if_pos ((h.expects_iff hkept m).mp hexpects)]
        dsimp only
        rw [if_pos hexpects, List.drop_append_of_le_length h.received_le]
      · rw [if_neg fun hand => hexpects ((h.expects_iff hkept m).mpr hand)]
        dsimp only
        rw [if_neg hexpects]
    items := by rw [htaken]; exact h.items
    unmarked := by rw [htaken]; exact h.unmarked
    isDone_iff := by rw [htaken]; exact h.isDone_iff
    isDone_of_isDropped := h.isDone_of_isDropped
    isDone_of_hasEnded := h.isDone_of_hasEnded
    isDone_or := h.isDone_or
    interrupted := h.interrupted_step (.route m) }

end Served

def Accounted (c : Channel V) (r₀ r : Transcript V) : Prop :=
  Unserved r ∨ ∃ t failure, Served c r₀ r t failure

theorem Unserved.polls (h : Unserved r)
    (hp : Stream.Polls c r.stream r.state item stream state sent) :
    r.stream.isDropped = true ∧ item = .ended ∧ stream = r.stream ∧ state = r.state ∧
      sent = none := by
  have hnone := h.sender_eq
  cases hp with
  | gone hdropped => exact ⟨hdropped, rfl, rfl, rfl, rfl⟩
  | exhausted _ hdone =>
    rw [h.isDone_eq] at hdone
    cases hdone
  | interrupted _ _ hi =>
    obtain ⟨t, ht⟩ := hi.exists_sender
    rw [hnone] at ht
    cases ht
  | response _ _ ht =>
    rw [hnone] at ht
    cases ht

theorem Unserved.yield_ended (h : Unserved r) (hdropped : r.stream.isDropped = true) :
    Unserved ((r.act r.stream r.state none).yield .ended) where
  sender_eq := h.sender_eq
  opening_ne := h.opening_ne
  size := h.size
  isDropped_eq := h.isDropped_eq
  isSending_eq := h.isSending_eq
  received_eq := h.received_eq
  isDone_eq := h.isDone_eq
  arrived_eq := h.arrived_eq
  items_eq := h.items_eq
  hasEnded_eq _ := hdropped

theorem Unserved.step (h : Unserved r) (hstep : Step c r r') : Accounted c r₀ r' := by
  cases hstep with
  | push | close | cancel | elsewhere => exact .inl { h with }
  | opening ha => exact (h.advance ha).imp_right fun ⟨t, ht⟩ => ⟨t, none, ht⟩
  | sender ht =>
    rw [h.sender_eq] at ht
    cases ht
  | poll hp =>
    obtain ⟨hdropped, rfl, rfl, rfl, rfl⟩ := h.polls hp
    exact .inl (h.yield_ended hdropped)
  | route m =>
    have hexpects : r.expects m = false := by simp [expects, h.sender_eq]
    have harrived : (r.route m).arrived = [] := by
      rw [Transcript.route]
      dsimp only
      rw [hexpects, h.arrived_eq]
      rfl
    exact .inl { h with arrived_eq := harrived }

theorem Served.step (h : Served c r₀ r t failure) (hrun : Run c r₀ r) (hstep : Step c r r') :
    Accounted c r₀ r' := by
  have hstep' := hstep
  cases hstep with
  | push | close | cancel =>
    exact .inr ⟨t, failure, h.same
      ⟨h.sender_eq, rfl, rfl, rfl, rfl, rfl, rfl, rfl, rfl, fun _ => rfl⟩ hstep' h.isDone_or⟩
  | elsewhere state hkeeps =>
    exact .inr ⟨t, failure, h.same ⟨h.sender_eq, rfl, rfl, rfl, rfl, rfl, rfl, rfl, rfl,
      fun hkept => hkeeps hkept t h.sender_eq⟩ hstep' h.isDone_or⟩
  | opening ha =>
    have hopened := h.opening_eq
    cases ha with
    | begun hopening | awaited hopening | ensured hopening | failed hopening | opened hopening =>
      rw [hopening] at hopened
      cases hopened
  | sender ht hs =>
    obtain rfl := Option.some.inj (h.sender_eq.symm.trans ht)
    obtain ⟨t', input, hs', rfl⟩ := Stream.step?_of_stepSender? ht hs
    obtain ⟨hroute, hrouter⟩ := Sender.frame_of_step? hs'
    refine .inr ⟨t', failure, h.same ⟨rfl, hroute, rfl, rfl, rfl, rfl, rfl, rfl, rfl, fun _ =>
      congrArg (fun router : Router => router.pending.lookup t.route.correlationId) hrouter⟩ hstep'
      fun hoff => (h.isDone_or hoff).imp_right fun hphase => ?_⟩
    -- a sender that has finished takes no step
    rw [Sender.step?_of_isFinished (by rw [Sender.isFinished, hphase])] at hs'
    cases hs'
  | poll hp =>
    obtain ⟨failure, h'⟩ := h.poll hrun hp
    exact .inr ⟨t, failure, h'⟩
  | route m => exact .inr ⟨t, failure, h.route m⟩

theorem Accounted.run (hrun : Run c (.start request state) r) :
    Accounted c (.start request state) r := by
  induction hrun with
  | refl => exact .inl (.start request state)
  | tail hrun hstep ih =>
    obtain h | ⟨t, failure, h⟩ := ih
    · exact h.step hstep
    · exact h.step hrun hstep

/-- The last item has been yielded: an error of the exchange, or what answers a response that is
marked last. -/
def IsComplete (r : Transcript V) (failure : Option ProtocolError) : Prop :=
  failure.isSome = true ∨ ∃ m, r.taken.getLast? = some m ∧ Stream.isMarkedLast m = true

namespace Served

theorem length_taken (h : Served c r₀ r t failure) : r.taken.length = r.stream.received := by
  rw [taken, List.length_take, min_eq_left h.received_le]

theorem ends (h : Served c r₀ r t failure) (hcomplete : r.IsComplete failure) :
    (r.stream.next? c r.state).isSome = true ∧ ∀ item stream state sent,
      Stream.Polls c r.stream r.state item stream state sent → item = .ended := by
  have hdone : r.stream.isDone = true := h.isDone_iff.mpr hcomplete
  refine ⟨?_, fun item stream state sent hp => ?_⟩
  · rw [Stream.next?, if_pos hdone]
    split <;> rfl
  · cases hp with
    | gone | exhausted => rfl
    | interrupted _ hopen | response _ hopen =>
      rw [hdone] at hopen
      cases hopen

theorem isDone_eq_false (h : Served c r₀ r t failure) (hcomplete : ¬r.IsComplete failure) :
    r.stream.isDone = false ∧ r.stream.isDropped = false := by
  have hopen : r.stream.isDone = false := by
    rw [← Bool.not_eq_true]
    exact fun hdone => hcomplete (h.isDone_iff.mp hdone)
  refine ⟨hopen, ?_⟩
  rw [← Bool.not_eq_true]
  intro hdropped
  rw [h.isDone_of_isDropped hdropped] at hopen
  cases hopen

theorem isSome_take?_iff (h : Served c r₀ r t failure) (hkept : r.stream.isDropped = false) :
    (∀ m router, r.state.router.take? t.route.correlationId = some (m, router) →
      r.arrived[r.taken.length]? = some m) ∧
    ((r.state.router.take? t.route.correlationId).isSome = true ↔
      r.taken.length < r.arrived.length) := by
  have hpending := h.pending hkept
  have hnext : ∀ m router, r.state.router.take? t.route.correlationId = some (m, router) →
      r.arrived[r.taken.length]? = some m := fun m router hm => by
    obtain ⟨rest, hrest, -⟩ := Router.lookup_take? hm hpending
    dsimp only at hrest
    rw [h.length_taken, ← List.head?_drop, hrest, List.head?_cons]
  refine ⟨hnext, fun hsome => ?_, fun hlt => ?_⟩
  · obtain ⟨⟨m, router⟩, hm⟩ := Option.isSome_iff_exists.mp hsome
    exact (List.getElem?_eq_some_iff.mp (hnext m router hm)).1
  · rw [h.length_taken] at hlt
    have hdrop := List.drop_eq_getElem_cons hlt
    rw [Router.take?, hpending, Option.map_some, hdrop]
    rfl

theorem exists_interrupts_iff (h : Served c r₀ r t failure) (hopen : r.stream.isDone = false) :
    (∃ e state sent, Stream.Interrupts c r.stream r.state e state sent) ↔
      (∃ e, t.phase = .finished (.error e)) ∨ r.stream.deadline ≤ r.state.now ∨
        r.stream.isCancelled = true ∨ r.state.router.isCancelled = true := by
  constructor
  · rintro ⟨e, state, sent, hi⟩
    cases hi with
    | senderFailed ht _ hphase =>
      cases h.sender_eq.symm.trans ht
      exact .inl ⟨e, hphase⟩
    | shutDown _ _ hrouter => exact .inr (.inr (.inr hrouter))
    | cancelled _ hcancelled => exact .inr (.inr (.inl hcancelled))
    | expired _ hdue => exact .inr (.inl hdue)
  · rintro (⟨e, hphase⟩ | hdue | hcancelled | hrouter)
    · -- the failure has not been noticed yet, since it would have ended the exchange
      have hsending : r.stream.isSending = true := by
        rw [← Bool.not_eq_false]
        intro hoff
        obtain hdone | hphase' := h.isDone_or hoff
        · rw [hdone] at hopen
          cases hopen
        · rw [hphase] at hphase'
          cases hphase'
      exact ⟨e, _, _, .senderFailed h.sender_eq hsending hphase⟩
    · exact ⟨_, _, _, .expired h.sender_eq hdue⟩
    · exact ⟨_, _, _, .cancelled h.sender_eq hcancelled⟩
    · cases hcancelled : r.stream.isCancelled with
      | true => exact ⟨_, _, _, .cancelled h.sender_eq hcancelled⟩
      | false => exact ⟨_, _, _, .shutDown h.sender_eq hcancelled hrouter⟩

theorem goesOn (h : Served c r₀ r t failure) (hcomplete : ¬r.IsComplete failure) :
    (∀ item stream state sent, Stream.Polls c r.stream r.state item stream state sent →
      (∃ m result, r.arrived[r.taken.length]? = some m ∧
        Stream.Answers c r.taken.length m result ∧ item = .item result) ∨
      ∃ e, Stream.Interrupts c r.stream r.state e state sent ∧
        item = .item (.error (e.withCommand c.commandName))) ∧
    ((r.stream.next? c r.state).isSome = true ↔ r.taken.length < r.arrived.length ∨
      ∃ e state sent, Stream.Interrupts c r.stream r.state e state sent) := by
  obtain ⟨hopen, hkept⟩ := h.isDone_eq_false hcomplete
  obtain ⟨hnext, hwaits⟩ := h.isSome_take?_iff hkept
  have hpolls : ∀ item stream state sent,
      Stream.Polls c r.stream r.state item stream state sent →
        (∃ m result, r.arrived[r.taken.length]? = some m ∧
          Stream.Answers c r.taken.length m result ∧ item = .item result) ∨
        ∃ e, Stream.Interrupts c r.stream r.state e state sent ∧
          item = .item (.error (e.withCommand c.commandName)) := fun item stream state sent hp => by
    cases hp with
    | gone hdropped =>
      rw [hkept] at hdropped
      cases hdropped
    | exhausted _ hdone =>
      rw [hopen] at hdone
      cases hdone
    | interrupted _ _ hi => exact .inr ⟨_, hi, rfl⟩
    | response _ _ ht hm _ hr =>
      cases h.sender_eq.symm.trans ht
      obtain ⟨hanswers, -, -⟩ := Stream.answers_readItem hr
      rw [← h.length_taken] at hanswers
      exact .inl ⟨_, _, hnext _ _ hm, hanswers, rfl⟩
  refine ⟨hpolls, fun hsome => ?_, fun hor => ?_⟩
  · obtain ⟨⟨item, stream, state⟩, hitem⟩ := Option.isSome_iff_exists.mp hsome
    obtain ⟨sent, hp⟩ := Stream.polls_of_next? hitem
    obtain ⟨m, result, hm, -⟩ | ⟨e, hi, -⟩ := hpolls item stream state sent hp
    · exact .inl (List.getElem?_eq_some_iff.mp hm).1
    · exact .inr ⟨e, state, sent, hi⟩
  · exact Stream.isSome_next? h.sender_eq (hor.imp_left hwaits.mpr)

theorem of_ok (h : Served c r₀ r t failure) {k : Nat} {m : Message} {item : StreamItem V}
    (hm : r.taken[k]? = some m) (hitem : r.items[k]? = some (.ok item)) :
    item.isLast = Stream.isMarkedLast m ∧
      (m.userProperty? Property.streamIndex.key = none → item.index = k.toUInt64) ∧
      ∀ text, m.userProperty? Property.streamIndex.key = some text →
        Text.readUInt64 text = some item.index := by
  obtain ⟨answers, hitems, hanswers⟩ := h.items
  obtain ⟨hk, rfl⟩ := List.getElem?_eq_some_iff.mp hm
  have hlength := hanswers.length_eq
  rw [List.length_zipIdx] at hlength
  rw [hitems, List.getElem?_append_left (hlength ▸ hk)] at hitem
  obtain ⟨hk', hitem⟩ := List.getElem?_eq_some_iff.mp hitem
  have ha := hanswers.get (by rwa [List.length_zipIdx]) hk'
  simp only [List.get_eq_getElem, List.getElem_zipIdx, Nat.zero_add, hitem] at ha
  exact ha.of_ok

end Served

/-- The responses of an exchange are yielded in the order in which they came, one item for each, up
to the first that is marked last; errors among them do not end the stream unless they are marked. A
success has the index that its response says, or else the number of responses before it. If the
sender fails, the deadline passes, or the exchange is cancelled or its invoker shut down, one error
of its own follows the items that have been yielded by then, unless one of them was the last. After
the last item there is nothing but the end. -/
theorem responses_yielded (hrun : Run c (.start request state) r) :
    (r.stream.sender = none → r.arrived = [] ∧ r.items = []) ∧
    ∀ t, r.stream.sender = some t → ∃ answers failure,
      r.items = answers ++ (failure.map fun e => .error (e.withCommand c.commandName)).toList ∧
      r.taken <+: r.arrived ∧
      List.Forall₂ (fun p result => Stream.Answers c p.2 p.1 result) r.taken.zipIdx answers ∧
      (∀ (k : Nat) (m : Message) (item : StreamItem V), r.taken[k]? = some m →
        r.items[k]? = some (.ok item) → item.isLast = Stream.isMarkedLast m ∧
          (m.userProperty? Property.streamIndex.key = none → item.index = k.toUInt64) ∧
          ∀ text, m.userProperty? Property.streamIndex.key = some text →
            Text.readUInt64 text = some item.index) ∧
      (∀ m ∈ r.taken.dropLast, Stream.isMarkedLast m = false) ∧
      (∀ e, failure = some e → ∃ u s sent, Run c (.start request state) u ∧ Run c u r ∧
        Stream.Interrupts c u.stream u.state e s sent) ∧
      (r.hasEnded = true → r.IsComplete failure) ∧
      (r.IsComplete failure → (r.stream.next? c r.state).isSome = true ∧
        ∀ item stream s sent, Stream.Polls c r.stream r.state item stream s sent →
          item = .ended) ∧
      (¬r.IsComplete failure →
        (∀ item stream s sent, Stream.Polls c r.stream r.state item stream s sent →
          (∃ m result, r.arrived[r.taken.length]? = some m ∧
            Stream.Answers c r.taken.length m result ∧ item = .item result) ∨
          ∃ e, Stream.Interrupts c r.stream r.state e s sent ∧
            item = .item (.error (e.withCommand c.commandName))) ∧
        ((r.stream.next? c r.state).isSome = true ↔ r.taken.length < r.arrived.length ∨
          ∃ e s sent, Stream.Interrupts c r.stream r.state e s sent) ∧
        ((∃ e s sent, Stream.Interrupts c r.stream r.state e s sent) ↔
          (∃ e, t.phase = .finished (.error e)) ∨ r.stream.deadline ≤ r.state.now ∨
            r.stream.isCancelled = true ∨ r.state.router.isCancelled = true)) := by
  obtain h | ⟨t, failure, h⟩ := Accounted.run hrun
  · refine ⟨fun _ => ⟨h.arrived_eq, h.items_eq⟩, fun t ht => ?_⟩
    rw [h.sender_eq] at ht
    cases ht
  · refine ⟨fun hnone => ?_, fun t' ht' => ?_⟩
    · rw [h.sender_eq] at hnone
      cases hnone
    · obtain rfl := Option.some.inj (h.sender_eq.symm.trans ht')
      obtain ⟨answers, hitems, hanswers⟩ := h.items
      refine ⟨answers, failure, hitems, List.take_prefix _ _, hanswers,
        fun k m item hm hitem => h.of_ok hm hitem, h.unmarked, h.interrupted,
        fun hended => h.isDone_iff.mp (h.isDone_of_hasEnded hended), h.ends, fun hcomplete => ?_⟩
      obtain ⟨hpolls, hnext⟩ := h.goesOn hcomplete
      exact ⟨hpolls, hnext, h.exists_interrupts_iff (h.isDone_eq_false hcomplete).1⟩

def success (marks : UserProperties) : Message where
  topic := "sum/invoker"
  payload := [3]
  correlationData := some (Uuid.ofIndex 0)
  userProperties := (Property.status.key, "200") :: marks

def total : Response Bytes where
  payload := [3]
  contentType := none
  format := .unspecifiedBytes
  userData := []
  timestamp := none

/-- The exchange of one request is open, and nothing has come for it. -/
def exchange : Transcript Bytes where
  stream := {
    request := Stream.unhurried
    input := { payloads := [[1]] }
    opening := .opened
    deadline := 10000
    sender := some {
      route := {
        topic := "sum", responseTopic := "sum/invoker"
        correlationId := Uuid.ofIndex 0, expiry := 10 }
      userData := [] } }
  state := { Stream.subscribed with
    router := {
      subscribed := ["sum/invoker"]
      pending := [(Uuid.ofIndex 0, { topic := "sum/invoker" })] }
    network := Stream.subscribed.network.freshId.2 }
  inputs := [[1]]

theorem run_exchange : ∃ steps, Run Stream.bytesChannel
    (.start Stream.unhurried Stream.subscribed) { exchange with steps } := by
  have hopened := ((((Relation.ReflTransGen.single (@Step.push _ Stream.bytesChannel
    (.start Stream.unhurried Stream.subscribed) [1] rfl rfl)).tail
    (.opening (Stream.advances_of_stepOpening? rfl))).tail
    (.opening (Stream.advances_of_stepOpening? rfl))).tail
    (.opening (Stream.advances_of_stepOpening? rfl))).tail
    (.opening (Stream.advances_of_stepOpening? rfl))
  exact ⟨_, hopened⟩

theorem two_responses_yielded : ∃ r,
    Run Stream.bytesChannel (.start Stream.unhurried Stream.subscribed) r ∧
      r.arrived = [success [], success [(Property.isLast.key, "TRUE")], success []] ∧
      r.items = [.ok ⟨total, 0, false⟩, .ok ⟨total, 1, true⟩] ∧
      ∀ item stream s sent, Stream.Polls Stream.bytesChannel r.stream r.state item stream s sent →
        item = .ended := by
  obtain ⟨steps, hopened⟩ := run_exchange
  have hrouted := ((hopened.tail (.route (success []))).tail
    (.route (success [(Property.isLast.key, "TRUE")]))).tail (.route (success []))
  generalize hr : Transcript.route _ _ = r at hrouted
  obtain ⟨st₁, s₁, st₂, s₂, hfirst, hsecond, hsender, hreceived⟩ : ∃ st₁ s₁ st₂ s₂,
      r.stream.next? Stream.bytesChannel r.state = some (.item (.ok ⟨total, 0, false⟩), st₁, s₁) ∧
      st₁.next? Stream.bytesChannel s₁ = some (.item (.ok ⟨total, 1, true⟩), st₂, s₂) ∧
      st₂.sender = exchange.stream.sender ∧ st₂.received = 2 := by
    rw [← hr]
    exact ⟨_, _, _, _, rfl, rfl, rfl, rfl⟩
  obtain ⟨sent₁, hfirst⟩ := Stream.polls_of_next? hfirst
  obtain ⟨sent₂, hsecond⟩ := Stream.polls_of_next? hsecond
  have hyielded := (hrouted.tail (.poll hfirst)).tail (.poll hsecond)
  obtain ⟨answers, failure, -, -, -, -, -, -, -, hends, -⟩ :=
    (responses_yielded hyielded).2 _ hsender
  rw [← hr] at hyielded hends
  refine ⟨_, hyielded, rfl, rfl,
    (hends (.inr ⟨success [(Property.isLast.key, "TRUE")], ?_, rfl⟩)).2⟩
  exact (congrArg (fun n => (List.take n _).getLast?) hreceived).trans rfl

/-- A response that has come is yielded first, even once it is too late; if it is marked last, the
stream ends without an error. -/
theorem no_error_after_deadline : ∃ r stream state stream' state',
    Run Stream.bytesChannel (.start Stream.unhurried Stream.subscribed) r ∧
      r.items = [] ∧ r.stream.deadline ≤ r.state.now ∧
      r.stream.next? Stream.bytesChannel r.state =
        some (.item (.ok ⟨total, 0, true⟩), stream, state) ∧
      stream.next? Stream.bytesChannel state = some (.ended, stream', state') := by
  obtain ⟨steps, hopened⟩ := run_exchange
  have hrouted := hopened.tail (.route (success [(Property.isLast.key, "true")]))
  have hlate := hrouted.tail (.elsewhere
    { (exchange.route (success [(Property.isLast.key, "true")])).state with now := 10000 }
    fun _ _ _ => rfl)
  exact ⟨_, _, _, _, _, hlate, rfl, le_rfl, rfl, rfl⟩

end Transcript

end CommandBus
