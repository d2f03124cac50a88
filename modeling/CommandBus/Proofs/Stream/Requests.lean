import CommandBus.Proofs.Stream.Choices
import Mathlib

namespace CommandBus

namespace Stream

variable {V : Type} {c : Channel V} {st st' : Stream V} {s s' : InvokerState}

/-- All that can come of a step of opening. The user data are checked first. -/
inductive Opens (c : Channel V) (st : Stream V) : Stream V → Prop
  | goesOn (opening : Opening) (deadline : Nat) (hnot : ∀ e, st.opening ≠ .failed e)
      (hdata : st.opening = .checking → st.request.userData.validate = .ok ())
      (hnext : opening ≠ .opened) : Opens c st { st with opening, deadline }
  | opened (route : StreamRoute) (hnot : ∀ e, st.opening ≠ .failed e)
      (hchecked : st.opening ≠ .checking) :
      Opens c st { st with
        opening := .opened
        sender := some { route, userData := st.request.userData } }
  | failed (e : ProtocolError) : Opens c st (st.fail c e)

theorem Opens.isCancelled_eq (h : Opens c st st') : st'.isCancelled = st.isCancelled := by
  cases h <;> rfl

theorem validate_of_prepare {r : StreamRequest V} {id : Bytes} {route : StreamRoute}
    (h : prepare c r id = .ok route) : r.userData.validate = .ok () := by
  simp only [prepare, bind, Except.bind] at h
  cases hexpiry : expiryInterval r.timeout with
  | error e =>
    rw [hexpiry] at h
    cases h
  | ok expiry =>
    cases hdata : r.userData.validate with
    | error e =>
      rw [hexpiry, hdata] at h
      cases h
    | ok => rfl

theorem opens_of_advances (h : Advances c st s st' s') : Opens c st st' := by
  cases h with
  | begun hchecking =>
    unfold begin
    dsimp only
    split
    next e _ => exact .failed e
    next route hroute =>
      exact .goesOn (.awaitingInput route) _ (by simp [hchecking])
        (fun _ => validate_of_prepare hroute) (by simp)
  | @awaited route _ hawaiting ha =>
    cases ha with
    | cancelled | ended | expired => exact .failed _
    | ready =>
      exact .goesOn (.subscribing route .locking) st.deadline (by simp [hawaiting])
        (by simp [hawaiting]) (by simp)
  | @ensured route _ step' _ _ _ hsubscribing =>
    exact .goesOn (.subscribing route step') st.deadline (by simp [hsubscribing])
      (by simp [hsubscribing]) (by simp)
  | failed => exact .failed _
  | @opened route _ hsubscribing =>
    exact .opened route (by simp [hsubscribing]) (by simp [hsubscribing])

/-- Taking an item of a stream that is not given up by it leaves the requests alone. -/
structure SameRequests (st st' : Stream V) : Prop where
  request_eq : st'.request = st.request
  input_eq : st'.input = st.input
  sender_eq : st'.sender = st.sender
  opening_eq : st'.opening = st.opening
  isCancelled_eq : st'.isCancelled = st.isCancelled
  isDropped_eq : st'.isDropped = st.isDropped

theorem sameRequests_of_polls {item : Item V} {sent : Option Message}
    (h : Polls c st s item st' s' sent) (hkept : st'.isDropped = false) : SameRequests st st' := by
  cases h with
  | gone => exact ⟨rfl, rfl, rfl, rfl, rfl, rfl⟩
  | exhausted => cases hkept
  | interrupted => exact ⟨rfl, rfl, rfl, rfl, rfl, rfl⟩
  | response _ _ _ _ _ hr =>
    unfold readItem at hr
    dsimp only at hr
    split at hr <;> cases hr <;> exact ⟨rfl, rfl, rfl, rfl, rfl, rfl⟩

theorem sent_eq_none_of_polls {item : Item V} {sent : Option Message}
    (h : Polls c st s item st' s' sent) (hactive : st.isCancelled = false) : sent = none := by
  cases h with
  | gone | exhausted | response => rfl
  | interrupted _ _ hi =>
    cases hi with
    | senderFailed | shutDown | expired => rfl
    | cancelled _ hcancelled =>
      rw [hactive] at hcancelled
      cases hcancelled

theorem stepSender?_eq {t : Sender} (hsender : st.sender = some t) (hkept : st.isDropped = false)
    (hactive : st.isCancelled = false) : st.stepSender? c s =
      (t.step? c false st.input s).map fun (t, input, s) =>
        ({ st with sender := some t, input }, s) := by
  simp only [stepSender?, hkept, hsender, hactive, Bool.false_eq_true, if_false,
    Option.bind_eq_bind, Option.bind_some]
  cases t.step? c false st.input s with
  | none => rfl
  | some result => rfl

structure Record (V : Type) extends Sender.Log V where
  stream : Stream V
  state : InvokerState

namespace Record

def start (request : StreamRequest V) (state : InvokerState) : Record V where
  stream := { request, input := {} }
  state

/-- The sender takes a payload, or notices the end, and what it sends is published. -/
inductive SenderStep (c : Channel V) (r : Record V) : Record V → Prop
  | take {t : Sender} {index : Nat} {stream : Stream V} {state : InvokerState}
      (hsender : r.stream.sender = some t) (hphase : t.phase = .taking index)
      (h : r.stream.stepSender? c r.state = some (stream, state)) :
      SenderStep c r
        { r with stream, state, endKnown := r.stream.input.knowsEnd r.endKnown }
  | publish {t : Sender} {index : Nat} {body : Serialized} {isLast : Bool} {message : Message}
      {stream : Stream V} {state : InvokerState}
      (hsender : r.stream.sender = some t) (hphase : t.phase = .sending index body isLast)
      (hpublished : r.state.Publishes c (t.outgoing index body isLast) message)
      (h : r.stream.stepSender? c r.state = some (stream, state)) :
      SenderStep c r { r with stream, state, published := r.published ++ [message] }

inductive OwnStep (c : Channel V) (r : Record V) : Record V → Prop
  | opening {stream : Stream V} {state : InvokerState}
    (h : Advances c r.stream r.state stream state) : OwnStep c r { r with stream, state }
  | sender {r' : Record V} (h : SenderStep c r r') : OwnStep c r r'
  | next {item : Item V} {stream : Stream V} {state : InvokerState} {sent : Option Message}
    (h : Polls c r.stream r.state item stream state sent) (hkept : stream.isDropped = false) :
    OwnStep c r { r with stream, state, published := r.published ++ sent.toList }

/-- What may happen to it. All else that its invoker works with may change at any time. -/
inductive Step (c : Channel V) (r : Record V) : Record V → Prop
  | push (payload : V) (hread : r.stream.input.isRead = true)
    (hopen : r.stream.input.isClosed = false) :
    Step c r { r with
      inputs := r.inputs ++ [payload]
      stream := { r.stream with
        input := { r.stream.input with payloads := r.stream.input.payloads ++ [payload] } } }
  | close : Step c r
    { r with stream := { r.stream with input := { r.stream.input with isClosed := true } } }
  | own {r' : Record V} (h : OwnStep c r r') : Step c r r'
  | elsewhere (state : InvokerState) : Step c r { r with state }

theorem SenderStep.exists_sender {r r' : Record V} (h : SenderStep c r r') :
    ∃ t, r.stream.sender = some t := by
  cases h with
  | take hsender | publish hsender => exact ⟨_, hsender⟩

theorem SenderStep.transmits {r r' : Record V} (h : SenderStep c r r')
    (hkept : r.stream.isDropped = false) (hactive : r.stream.isCancelled = false) :
    ∃ sent, r'.published = r.published ++ Option.toList sent ∧
      r.state.Transmits c sent r'.state := by
  cases h with
  | @take t index _ _ hsender hphase hstep =>
    rw [stepSender?_eq hsender hkept hactive] at hstep
    obtain ⟨⟨t', input, s'⟩, hstep, heq⟩ := Option.map_eq_some_iff.mp hstep
    have hsent := Sender.transmits_of_step? hstep
    rw [Sender.handed?, hphase] at hsent
    cases heq
    exact ⟨none, (List.append_nil _).symm, hsent⟩
  | @publish t index body isLast message _ _ hsender hphase hpublished hstep =>
    rw [stepSender?_eq hsender hkept hactive] at hstep
    obtain ⟨⟨t', input, s'⟩, hstep, heq⟩ := Option.map_eq_some_iff.mp hstep
    have hsent := Sender.transmits_of_step? hstep
    rw [Sender.handed?, hphase] at hsent
    dsimp only at hsent
    rw [InvokerState.handed?_of_publishes hpublished] at hsent
    cases heq
    exact ⟨some message, rfl, hsent⟩

theorem Step.inputs_subset {r r' : Record V} (h : Step c r r') : r.inputs ⊆ r'.inputs := by
  cases h with
  | push => exact List.subset_append_left ..
  | close | elsewhere => exact List.Subset.refl _
  | own h =>
    cases h with
    | opening | next => exact List.Subset.refl _
    | sender h =>
      cases h with
      | take | publish => exact List.Subset.refl _

def Run (c : Channel V) : Record V → Record V → Prop :=
  Relation.ReflTransGen (Step c)

/-- The steps that the sender takes at most if nothing more is put into its input. -/
def effort (r : Record V) : Nat :=
  r.stream.sender.elim 0 fun t => t.effort r.stream.input

end Record

variable {body : V → Serialized} {log : Sender.Log V} {input : StreamInput V} {t : Sender}

structure Unopened (r : Record V) : Prop where
  sender_eq : r.stream.sender = none
  published_eq : r.published = []
  endKnown_eq : r.endKnown = false
  opening_ne : r.stream.opening ≠ .opened
  begun : (∃ e, r.stream.opening = .failed e) ∨
    r.stream.isDropped = false ∧ r.inputs = r.stream.input.payloads ∧
      (r.stream.opening = .checking ∨
        ∀ p ∈ r.stream.request.userData, UserProperties.isReserved p.1 = false)

structure Opened (body : V → Serialized) (r : Record V) (t : Sender) : Prop where
  sender_eq : r.stream.sender = some t
  opening_eq : r.stream.opening = .opened
  isDropped_eq : r.stream.isDropped = false
  isCustom : ∀ p ∈ t.userData, UserProperties.isReserved p.1 = false
  progress : Sender.Progress body r.toLog r.stream.input t

variable {r r' : Record V} {request : StreamRequest V} {state : InvokerState}

theorem Opened.advance (h : Opened body r t) {t' : Sender} (hdata : t'.userData = t.userData)
    (hprogress : Sender.Progress body log input t') :
    Opened body
      { toLog := log, stream := { r.stream with sender := some t', input }, state } t' where
  sender_eq := rfl
  opening_eq := h.opening_eq
  isDropped_eq := h.isDropped_eq
  isCustom := hdata ▸ h.isCustom
  progress := hprogress

theorem Record.effort_eq (h : r.stream.sender = some t) : r.effort = t.effort r.stream.input := by
  rw [effort, h, Option.elim_some]

theorem Opened.senderStep (h : Opened body r t) (hactive : r.stream.isCancelled = false)
    (hencodes : ∀ p ∈ r.inputs, c.encode p = .ok (body p)) (hstep : Record.SenderStep c r r') :
    (∃ t', Opened body r' t') ∧ r'.stream.isCancelled = false ∧ r'.effort < r.effort := by
  rw [Record.effort_eq h.sender_eq]
  cases hstep with
  | take hsender hphase hstep =>
    obtain rfl := Option.some.inj (h.sender_eq.symm.trans hsender)
    rw [stepSender?_eq hsender h.isDropped_eq hactive] at hstep
    obtain ⟨⟨t', input, s'⟩, hstep, heq⟩ := Option.map_eq_some_iff.mp hstep
    obtain ⟨hprogress, heffort, hdata⟩ := h.progress.take hphase hencodes hstep
    cases heq
    exact ⟨⟨t', h.advance hdata hprogress⟩, hactive, heffort⟩
  | publish hsender hphase hpublished hstep =>
    obtain rfl := Option.some.inj (h.sender_eq.symm.trans hsender)
    rw [stepSender?_eq hsender h.isDropped_eq hactive] at hstep
    obtain ⟨⟨t', input, s'⟩, hstep, heq⟩ := Option.map_eq_some_iff.mp hstep
    obtain ⟨hprogress, heffort, hdata⟩ := h.progress.publish hphase h.isCustom hpublished hstep
    cases heq
    exact ⟨⟨t', h.advance hdata hprogress⟩, hactive, heffort⟩

theorem Unopened.push (h : Unopened r) (payload : V) :
    Unopened { r with
      inputs := r.inputs ++ [payload]
      stream := { r.stream with
        input := { r.stream.input with payloads := r.stream.input.payloads ++ [payload] } } } where
  sender_eq := h.sender_eq
  published_eq := h.published_eq
  endKnown_eq := h.endKnown_eq
  opening_ne := h.opening_ne
  begun := h.begun.imp_right fun ⟨hkept, hwaits, hdata⟩ =>
    ⟨hkept, congrArg (· ++ [payload]) hwaits, hdata⟩

theorem Unopened.opening {stream : Stream V} (h : Unopened r) (hopens : Opens c r.stream stream) :
    Unopened { r with stream, state } ∨ ∃ t, Opened body { r with stream, state } t := by
  have hbegun (hnot : ∀ e, r.stream.opening ≠ .failed e) :=
    h.begun.resolve_left fun ⟨e, he⟩ => hnot e he
  cases hopens with
  | goesOn opening deadline hnot hdata hnext =>
    obtain ⟨hkept, hwaits, hcustom⟩ := hbegun hnot
    have hcustom' := hcustom.elim (fun h => UserProperties.validate_eq_ok_iff.mp (hdata h)) id
    exact .inl ⟨h.sender_eq, h.published_eq, h.endKnown_eq, hnext,
      .inr ⟨hkept, hwaits, .inr hcustom'⟩⟩
  | opened route hnot hchecked =>
    obtain ⟨hkept, hwaits, hcustom⟩ := hbegun hnot
    have hsent : Sender.HasSent body r.toLog
        { route, userData := r.stream.request.userData } [] := by
      constructor
      · rw [h.published_eq]
        exact List.forall_mem_nil _
      · rw [h.published_eq]
        exact .nil _
    exact .inr ⟨_, rfl, rfl, hkept, hcustom.resolve_left hchecked,
      .taking [] hsent rfl h.endKnown_eq hwaits⟩
  | failed e =>
    exact .inl ⟨h.sender_eq, h.published_eq, h.endKnown_eq, nofun, .inl ⟨_, rfl⟩⟩

theorem Unopened.same {stream : Stream V} (h : Unopened r) (hsame : SameRequests r.stream stream) :
    Unopened { r with stream, state } where
  sender_eq := hsame.sender_eq.trans h.sender_eq
  published_eq := h.published_eq
  endKnown_eq := h.endKnown_eq
  opening_ne := hsame.opening_eq ▸ h.opening_ne
  begun := by
    rw [hsame.opening_eq, hsame.isDropped_eq, hsame.input_eq, hsame.request_eq]
    exact h.begun

theorem Opened.same {stream : Stream V} (h : Opened body r t)
    (hsame : SameRequests r.stream stream) : Opened body { r with stream, state } t where
  sender_eq := hsame.sender_eq.trans h.sender_eq
  opening_eq := hsame.opening_eq.trans h.opening_eq
  isDropped_eq := hsame.isDropped_eq.trans h.isDropped_eq
  isCustom := h.isCustom
  progress := by
    rw [hsame.input_eq]
    exact h.progress

/-- What is true of a stream at any time, if its payloads can be written. -/
structure Accounted (body : V → Serialized) (r : Record V) : Prop where
  isCancelled_eq : r.stream.isCancelled = false
  cases : Unopened r ∨ ∃ t, Opened body r t

namespace Accounted

theorem start (request : StreamRequest V) (state : InvokerState) :
    Accounted body (.start request state) where
  isCancelled_eq := rfl
  cases := .inl ⟨rfl, rfl, rfl, nofun, .inr ⟨rfl, rfl, .inl rfl⟩⟩

theorem step (h : Accounted body r) (hencodes : ∀ p ∈ r.inputs, c.encode p = .ok (body p))
    (hstep : Record.Step c r r') : Accounted body r' := by
  obtain ⟨hactive, h⟩ := h
  cases hstep with
  | push payload hread hopen =>
    refine ⟨hactive, h.imp (·.push payload) fun ⟨t, ht⟩ => ⟨t, ?_⟩⟩
    exact { ht with progress := ht.progress.push hopen payload }
  | close =>
    refine ⟨hactive, h.imp (fun h => { h with }) fun ⟨t, ht⟩ => ⟨t, ?_⟩⟩
    exact { ht with progress := ht.progress.close }
  | own hstep =>
    cases hstep with
    | opening hadvances =>
      obtain h | ⟨t, ht⟩ := h
      · have hopens := opens_of_advances hadvances
        exact ⟨hopens.isCancelled_eq.trans hactive, h.opening hopens⟩
      · cases hadvances with
        | begun hopening | awaited hopening | ensured hopening | failed hopening
        | opened hopening =>
          rw [ht.opening_eq] at hopening
          cases hopening
    | sender hstep =>
      obtain h | ⟨t, ht⟩ := h
      · obtain ⟨t, hsender⟩ := hstep.exists_sender
        rw [h.sender_eq] at hsender
        cases hsender
      · obtain ⟨hopened, hactive, -⟩ := ht.senderStep hactive hencodes hstep
        exact ⟨hactive, .inr hopened⟩
    | next hpolls hkept =>
      obtain rfl := sent_eq_none_of_polls hpolls hactive
      rw [Option.toList_none, List.append_nil]
      have hsame := sameRequests_of_polls hpolls hkept
      exact ⟨hsame.isCancelled_eq.trans hactive,
        h.imp (·.same hsame) fun ⟨t, ht⟩ => ⟨t, ht.same hsame⟩⟩
  | elsewhere state =>
    exact ⟨hactive, h.imp (fun h => { h with }) fun ⟨t, ht⟩ => ⟨t, { ht with }⟩⟩

theorem run (h : Accounted body r) (hrun : Record.Run c r r')
    (hencodes : ∀ p ∈ r'.inputs, c.encode p = .ok (body p)) : Accounted body r' := by
  induction hrun with
  | refl => exact h
  | tail _ hstep ih =>
    have hbefore := fun p hp => hencodes p (hstep.inputs_subset hp)
    exact (ih hbefore).step hbefore hstep

/-- Of the network, a step of the stream changes at most what publishing exactly the message
changes that it adds to those published. -/
theorem transmits (h : Accounted body r) (hstep : Record.OwnStep c r r') :
    ∃ sent, r'.published = r.published ++ Option.toList sent ∧
      r.state.Transmits c sent r'.state := by
  cases hstep with
  | opening hadvances => exact ⟨none, (List.append_nil _).symm, hadvances.transmits⟩
  | next hpolls => exact ⟨_, rfl, hpolls.transmits⟩
  | sender hstep =>
    obtain hu | ⟨t, ht⟩ := h.cases
    · obtain ⟨t, hsender⟩ := hstep.exists_sender
      rw [hu.sender_eq] at hsender
      cases hsender
    · exact hstep.transmits ht.isDropped_eq h.isCancelled_eq

end Accounted

/-- Nothing is published before the exchange is opened. From then on the requests have one
correlation id and are numbered without gaps. While the sender is at work, none of them is marked
last, and they are the first payloads that were put in. When it has finished, the final one alone is
marked last, and they are all of the payloads, followed by an empty one exactly if the end was not
known when the last payload was taken out. Each step of the sender leaves less to do, and the next
one is possible once the input is closed. They are what the client is given to publish: the network
after any step of the stream is the one after publishing what the step adds to them. -/
theorem requests_well_formed (hrun : Record.Run c (.start request state) r)
    (hencodes : ∀ p ∈ r.inputs, c.encode p = .ok (body p)) :
    (r.stream.sender = none → r.published = []) ∧
      (∀ t, r.stream.sender = some t →
        (t.isFinished = false → (∀ m ∈ r.published, m.marks = []) ∧
          ∃ sent, sent <+: r.inputs ∧
            Requests t.route.correlationId (sent.map fun p => (body p).payload) r.published) ∧
        (t.isFinished = true →
          Requests t.route.correlationId
            ((r.inputs.map fun p => (body p).payload) ++ if r.endKnown then [] else [[]])
            r.published ∧
          ∃ earlier last, r.published = earlier ++ [last] ∧
            (∀ m ∈ earlier, m.marks = []) ∧ last.marks = ["true"]) ∧
        (∀ r', Record.SenderStep c r r' → r'.effort < r.effort) ∧
        (r.stream.input.isClosed = true → t.isFinished = false →
          (r.stream.stepSender? c r.state).isSome = true)) ∧
      ∀ r', Record.OwnStep c r r' → ∃ sent, r'.published = r.published ++ Option.toList sent ∧
        r.state.Transmits c sent r'.state := by
  have haccounted := (Accounted.start request state).run hrun hencodes
  have hactive := haccounted.isCancelled_eq
  obtain h | ⟨t, h⟩ := haccounted.cases
  · refine ⟨fun _ => h.published_eq, fun t ht => ?_, fun _ => haccounted.transmits⟩
    rw [h.sender_eq] at ht
    cases ht
  · refine ⟨fun hnone => ?_, fun t' ht' => ?_, fun _ => haccounted.transmits⟩
    · rw [h.sender_eq] at hnone
      cases hnone
    · obtain rfl := Option.some.inj (h.sender_eq.symm.trans ht')
      refine ⟨fun hrunning => ?_, h.progress.of_finished, fun r' hstep => ?_,
        fun hclosed hrunning => ?_⟩
      · obtain ⟨sent, hprefix, hsent⟩ := h.progress.hasSent hrunning
        exact ⟨hsent.unmarked, sent, hprefix, hsent.requests⟩
      · obtain ⟨-, -, heffort⟩ := h.senderStep hactive hencodes hstep
        exact heffort
      · rw [stepSender?_eq h.sender_eq h.isDropped_eq hactive, Option.isSome_map]
        exact Sender.isSome_step? hclosed hrunning

def bytesChannel : Channel Bytes where
  commandName := "sum"
  requestTopic := ⟨[.literal "sum"]⟩
  responseTopic := ⟨[.literal "sum", .literal "invoker"]⟩
  responseFilter := "sum/invoker"
  client := .plain 0
  clientId := "invoker"
  shutdownClient := false
  requestCodec := .raw
  responseCodec := .raw

def subscribed : InvokerState where
  router := { subscribed := ["sum/invoker"] }
  clock := .start "invoker" 0 Clock.defaultMaxDrift
  network := (Network.connect {} "invoker").2
  now := 0
  wall := 0

def unhurried : StreamRequest Bytes where
  timeout := .ofSecs 10

theorem exists_run_of_two : ∃ r, Record.Run bytesChannel (.start unhurried subscribed) r ∧
    r.inputs = [[1], [2]] ∧ r.endKnown = true ∧
      ∃ t, r.stream.sender = some t ∧ t.isFinished = true := by
  have hopened := ((((Relation.ReflTransGen.single (@Record.Step.push _ bytesChannel
    (.start unhurried subscribed) [1] rfl rfl)).tail
    (.own (.opening (advances_of_stepOpening? rfl)))).tail
    (.own (.opening (advances_of_stepOpening? rfl)))).tail
    (.own (.opening (advances_of_stepOpening? rfl)))).tail
    (.own (.opening (advances_of_stepOpening? rfl)))
  have hfirst := (hopened.tail (.own (.sender (.take rfl rfl rfl)))).tail
    (.own (.sender (.publish rfl rfl ⟨_, _, _, rfl, rfl, rfl, rfl⟩ rfl)))
  have hsecond := (((hfirst.tail (.push [2] rfl rfl)).tail .close).tail
    (.own (.sender (.take rfl rfl rfl)))).tail
    (.own (.sender (.publish rfl rfl ⟨_, _, _, rfl, rfl, rfl, rfl⟩ rfl)))
  exact ⟨_, hsecond, rfl, rfl, _, rfl, rfl⟩

def asBytes (payload : Bytes) : Serialized :=
  ⟨payload, "application/octet-stream", .unspecifiedBytes⟩

theorem two_requests_published : ∃ r, Record.Run bytesChannel (.start unhurried subscribed) r ∧
    (∀ p ∈ r.inputs, bytesChannel.encode p = .ok (asBytes p)) ∧
    r.published.map Message.payload = [[1], [2]] ∧
    r.published.map Message.numbers = [["0"], ["1"]] ∧
    r.published.map Message.marks = [[], ["true"]] := by
  obtain ⟨r, hrun, hinputs, hknown, t, hsender, hfinished⟩ := exists_run_of_two
  have hencodes : ∀ p ∈ r.inputs, bytesChannel.encode p = .ok (asBytes p) := fun _ _ => rfl
  obtain ⟨-, hall, -⟩ := requests_well_formed hrun hencodes
  obtain ⟨-, hwhole, -⟩ := hall t hsender
  obtain ⟨hrequests, earlier, last, hpublished, hunmarked, hmarked⟩ := hwhole hfinished
  rw [hinputs, hknown] at hrequests
  have hlength : r.published.length = 2 := hrequests.length_eq
  have hnumbers := hrequests.numbers_eq
  rw [hlength] at hnumbers
  have hearlier : earlier.map Message.marks = [[]] := by
    have hone : earlier.length = 1 := by simpa [hpublished] using hlength
    rw [List.map_eq_replicate_iff.mpr hunmarked, hone]
    rfl
  refine ⟨r, hrun, hencodes, hrequests.payload_eq, hnumbers, ?_⟩
  rw [hpublished, List.map_append, hearlier, List.map_singleton, hmarked]
  rfl

end Stream

end CommandBus
