import CommandBus.Proofs.Invoker.Arguments
import CommandBus.Proofs.Stream.Responses
import Mathlib

namespace CommandBus

namespace Stream

variable {V : Type} {c : Channel V} {st st' : Stream V} {s s' : InvokerState}

theorem prepare_eq (c : Channel V) (r : StreamRequest V) (id : Bytes) :
    prepare c r id = (do
      let (expiry, topic, responseTopic) ← c.accept r.timeout r.userData r.tokens
      return { topic, responseTopic, correlationId := id, expiry }) := by
  simp only [prepare, Channel.accept, bind_assoc, pure_bind]

theorem prepare_cases (c : Channel V) (r : StreamRequest V) (id : Bytes) :
    (∃ e, prepare c r id = .error e ∧ e.IsArgument ∧
        c.Rejects r.timeout r.userData r.tokens) ∨
      ∃ route, prepare c r id = .ok route ∧ ¬c.Rejects r.timeout r.userData r.tokens ∧
        route.expiry.toNat = r.timeout.nanos ⌈/⌉ 1000000000 := by
  rw [prepare_eq]
  obtain ⟨e, h, he, hbad⟩ | ⟨expiry, topics, h, hgood, hexpiry⟩ :=
    c.accept_cases r.timeout r.userData r.tokens
  · rw [h]
    exact .inl ⟨e, rfl, he, hbad⟩
  · rw [h]
    exact .inr ⟨_, rfl, hgood, hexpiry⟩

theorem begin_cases (c : Channel V) (st : Stream V) (s : InvokerState) :
    ∃ s', s.Untouched s' ∧
      ((∃ e : ProtocolError, st.begin c s = (st.fail c e, s') ∧ e.IsArgument ∧
          c.Rejects st.request.timeout st.request.userData st.request.tokens) ∨
        ∃ route deadline,
          st.begin c s = ({ st with opening := .awaitingInput route, deadline }, s') ∧
          ¬c.Rejects st.request.timeout st.request.userData st.request.tokens ∧
          route.expiry.toNat = st.request.timeout.nanos ⌈/⌉ 1000000000) := by
  refine ⟨{ s with network := s.network.freshId.2 }, ⟨_, rfl⟩, ?_⟩
  unfold begin
  dsimp only
  obtain ⟨e, h, he, hbad⟩ | ⟨route, h, hgood, hexpiry⟩ :=
    prepare_cases c st.request s.network.freshId.1
  · rw [h]
    exact .inl ⟨e, rfl, he, hbad⟩
  · rw [h]
    exact .inr ⟨route, _, rfl, hgood, hexpiry⟩

namespace Opening

def IsRejected : Opening → Prop
  | .failed e => e.IsArgument
  | _ => False

def IsWaiting : Opening → Prop
  | .checking | .awaitingInput _ => True
  | _ => False

def SparesArguments : Opening → Prop
  | .subscribing _ step => step.SparesArguments
  | _ => True

end Opening

/-- The arguments have been accepted, and all messages are to expire after the timeout. -/
structure IsUnderway (st : Stream V) : Prop where
  not_isWaiting : ¬st.opening.IsWaiting
  not_isRejected : ¬st.opening.IsRejected
  sparesArguments : st.opening.SparesArguments
  route : ∀ route, st.opening.route? = some route →
    route.expiry.toNat = st.request.timeout.nanos ⌈/⌉ 1000000000
  sender : ∀ t, st.sender = some t →
    t.route.expiry.toNat = st.request.timeout.nanos ⌈/⌉ 1000000000

/-- What is handed to the client goes where the exchange goes, and no step of an open exchange
changes that. -/
structure SameExchange (c : Channel V) (st st' : Stream V) (s : InvokerState)
    (sent : Option Message) : Prop where
  request_eq : st'.request = st.request
  opening_eq : st'.opening = st.opening
  sender : ∀ t, st'.sender = some t → ∃ t', st.sender = some t' ∧ t.route = t'.route
  handed : ∀ m, sent = some m → ∃ t body userProperties, st.sender = some t ∧
    s.handed? c (t.route.outgoing body userProperties) = some m

theorem sameExchange_of_stepSender? {t : Sender} (ht : st.sender = some t)
    (h : st.stepSender? c s = some (st', s')) : SameExchange c st st' s (t.handed? c s) := by
  obtain ⟨t', input, hs, rfl⟩ := step?_of_stepSender? ht h
  refine ⟨rfl, rfl, fun t'' ht'' => ?_, fun m hm => ?_⟩
  · cases ht''
    exact ⟨t, ht, (Sender.frame_of_step? hs).1⟩
  · unfold Sender.handed? at hm
    split at hm
    · exact ⟨t, _, _, ht, hm⟩
    · cases hm

theorem transmits_of_stepSender? {t : Sender} (ht : st.sender = some t)
    (h : st.stepSender? c s = some (st', s')) : s.Transmits c (t.handed? c s) s' := by
  obtain ⟨t', input, hs, -⟩ := step?_of_stepSender? ht h
  exact Sender.transmits_of_step? hs

theorem sameExchange_of_polls {item : Item V} {sent : Option Message}
    (h : Polls c st s item st' s' sent) : SameExchange c st st' s sent := by
  have hsame (t : Sender) (ht : st.sender = some t) :
      ∃ t', st.sender = some t' ∧ t.route = t'.route := ⟨t, ht, rfl⟩
  cases h with
  | gone | exhausted => exact ⟨rfl, rfl, hsame, by simp⟩
  | interrupted _ _ hi =>
    refine ⟨rfl, rfl, hsame, fun m hm => ?_⟩
    cases hi with
    | senderFailed | shutDown | expired => cases hm
    | @cancelled t ht => exact ⟨t, _, _, ht, hm⟩
  | response _ _ _ _ _ hr =>
    obtain ⟨-, rfl, -⟩ := answers_readItem hr
    exact ⟨rfl, rfl, hsame, by simp⟩

theorem IsUnderway.same {sent : Option Message} (h : st.IsUnderway)
    (hs : SameExchange c st st' s sent) : st'.IsUnderway where
  not_isWaiting := hs.opening_eq ▸ h.not_isWaiting
  not_isRejected := hs.opening_eq ▸ h.not_isRejected
  sparesArguments := hs.opening_eq ▸ h.sparesArguments
  route := by
    rw [hs.opening_eq, hs.request_eq]
    exact h.route
  sender t ht := by
    obtain ⟨t', ht', hroute⟩ := hs.sender t ht
    rw [hroute, hs.request_eq]
    exact h.sender t' ht'

end Stream

namespace Transcript

variable {V : Type} {c : Channel V} {r₀ r r' : Transcript V} {request : StreamRequest V}
  {stream : Stream V} {state : InvokerState} {sent : Option Message}

structure Screened (c : Channel V) (request : StreamRequest V) (r : Transcript V) : Prop where
  request_eq : r.stream.request = request
  steps_eq_nil_iff : r.steps = [] ↔ r.stream.opening = .checking
  isRejected : r.stream.opening ≠ .checking →
    c.Rejects request.timeout request.userData request.tokens → r.stream.opening.IsRejected
  rejects : r.stream.opening.IsRejected →
    (c.Rejects request.timeout request.userData request.tokens ∨
      r.inputs = [] ∧ r.stream.input.isClosed = true) ∧ r.stream.input.isRead = false
  leavesNoTrace : r.stream.opening.IsWaiting ∨ r.stream.opening.IsRejected →
    LeaveNoTrace r.steps
  payloads_eq : r.stream.opening.IsWaiting → r.stream.input.payloads = r.inputs
  sparesArguments : r.stream.opening.SparesArguments
  route : ∀ route, r.stream.opening.route? = some route →
    route.expiry.toNat = request.timeout.nanos ⌈/⌉ 1000000000
  sender : ∀ t, r.stream.sender = some t →
    t.route.expiry.toNat = request.timeout.nanos ⌈/⌉ 1000000000
  isInTime : ∀ m ∈ r.steps, m.IsInTime c request.timeout

namespace Screened

theorem start (c : Channel V) (request : StreamRequest V) (state : InvokerState) :
    Screened c request (start request state) where
  request_eq := rfl
  steps_eq_nil_iff := iff_of_true rfl rfl
  isRejected h := absurd rfl h
  rejects h := h.elim
  leavesNoTrace _ := List.forall_mem_nil _
  payloads_eq _ := rfl
  sparesArguments := trivial
  route _ h := by cases h
  sender _ h := by cases h
  isInTime := List.forall_mem_nil _

theorem isInTime_append (h : Screened c request r)
    (hstep : InvokerState.Move.IsInTime c request.timeout ⟨r.state, sent, state⟩) :
    ∀ m ∈ (r.act stream state sent).steps, m.IsInTime c request.timeout :=
  List.forall_mem_append.mpr ⟨h.isInTime, List.forall_mem_singleton.mpr hstep⟩

theorem isInTime_silent (h : Screened c request r) (hsent : r.state.Transmits c none state) :
    ∀ m ∈ (r.act stream state none).steps, m.IsInTime c request.timeout :=
  h.isInTime_append ⟨hsent, fun _ hm => by cases hm⟩

theorem goOn (h : Screened c request r) (hne : r.stream.opening ≠ .checking)
    (hnot : ¬r.stream.opening.IsRejected) (hrequest : stream.request = r.stream.request)
    (hu : stream.IsUnderway)
    (hstep : InvokerState.Move.IsInTime c request.timeout ⟨r.state, sent, state⟩) :
    Screened c request (r.act stream state sent) := by
  have heq : stream.request = request := hrequest.trans h.request_eq
  have hopening : stream.opening ≠ .checking := fun hchecking =>
    hu.not_isWaiting (by rw [hchecking]; trivial)
  exact {
    request_eq := heq
    steps_eq_nil_iff := iff_of_false (by simp [act]) hopening
    isRejected := fun _ hbad => (hnot (h.isRejected hne hbad)).elim
    rejects := fun hrejected => (hu.not_isRejected hrejected).elim
    leavesNoTrace := fun hor => (hor.elim hu.not_isWaiting hu.not_isRejected).elim
    payloads_eq := fun hwaiting => (hu.not_isWaiting hwaiting).elim
    sparesArguments := hu.sparesArguments
    route := heq ▸ hu.route
    sender := heq ▸ hu.sender
    isInTime := h.isInTime_append hstep }

theorem isUnderway (h : Screened c request r) {opening : Stream.Opening}
    (hnot : ¬opening.IsWaiting) (hnot' : ¬opening.IsRejected) (hspares : opening.SparesArguments)
    (hroute : ∀ route, opening.route? = some route → r.stream.opening.route? = some route) :
    Stream.IsUnderway { r.stream with opening } where
  not_isWaiting := hnot
  not_isRejected := hnot'
  sparesArguments := hspares
  route route hopening := h.request_eq ▸ h.route route (hroute route hopening)
  sender := h.request_eq ▸ h.sender

theorem isUnderway_fail (h : Screened c request r) {e : ProtocolError} (he : ¬e.IsArgument) :
    (r.stream.fail c e).IsUnderway where
  not_isWaiting := id
  not_isRejected := he
  sparesArguments := trivial
  route _ hroute := by cases hroute
  sender := h.request_eq ▸ h.sender

theorem same (h : Screened c request r) (hopening : r.stream.opening = .opened)
    (hs : Stream.SameExchange c r.stream stream r.state sent)
    (hsent : r.state.Transmits c sent state) : Screened c request (r.act stream state sent) := by
  have hu : r.stream.IsUnderway := h.isUnderway (by rw [hopening]; exact id)
    (by rw [hopening]; exact id) h.sparesArguments fun _ hroute => hroute
  refine h.goOn (by simp [hopening]) hu.not_isRejected hs.request_eq (hu.same hs)
    ⟨hsent, fun m hm => ?_⟩
  obtain ⟨t, body, userProperties, ht, hhanded⟩ := hs.handed m hm
  exact InvokerState.expiresAfter_of_handed? (h.sender t ht) hhanded

theorem idle (h : Screened c request r) (hne : r.stream.opening ≠ .checking) :
    Screened c request (r.act r.stream r.state none) where
  request_eq := h.request_eq
  steps_eq_nil_iff := iff_of_false (by simp [act]) hne
  isRejected := h.isRejected
  rejects := h.rejects
  leavesNoTrace hor := (h.leavesNoTrace hor).append (.refl _)
  payloads_eq := h.payloads_eq
  sparesArguments := h.sparesArguments
  route := h.route
  sender := h.sender
  isInTime := h.isInTime_silent (.nothing rfl)

theorem reject (h : Screened c request r) (hwaiting : r.stream.opening.IsWaiting)
    {e : ProtocolError} (he : e.IsArgument)
    (hbad : c.Rejects request.timeout request.userData request.tokens ∨
      r.inputs = [] ∧ r.stream.input.isClosed = true) (hs : r.state.Untouched state)
    (hsent : r.state.Transmits c none state) :
    Screened c request (r.act (r.stream.fail c e) state none) where
  request_eq := h.request_eq
  steps_eq_nil_iff := iff_of_false (by simp [act]) (by simp [act, Stream.fail])
  isRejected _ _ := he
  rejects _ := ⟨hbad, rfl⟩
  leavesNoTrace _ := (h.leavesNoTrace (.inl hwaiting)).append hs
  payloads_eq hwaiting := hwaiting.elim
  sparesArguments := trivial
  route _ h := by cases h
  sender := h.sender
  isInTime := h.isInTime_silent hsent

theorem accept (h : Screened c request r) (hopening : r.stream.opening = .checking)
    {route : StreamRoute} (hgood : ¬c.Rejects request.timeout request.userData request.tokens)
    (hexpiry : route.expiry.toNat = request.timeout.nanos ⌈/⌉ 1000000000)
    (hs : r.state.Untouched state) (hsent : r.state.Transmits c none state) (deadline : Nat) :
    Screened c request
      (r.act { r.stream with opening := .awaitingInput route, deadline } state none) where
  request_eq := h.request_eq
  steps_eq_nil_iff := iff_of_false (by simp [act]) (by simp [act])
  isRejected _ hbad := (hgood hbad).elim
  rejects hrejected := hrejected.elim
  leavesNoTrace _ := (h.leavesNoTrace (.inl (by rw [hopening]; trivial))).append hs
  payloads_eq _ := h.payloads_eq (by rw [hopening]; trivial)
  sparesArguments := trivial
  route _ hroute := by cases hroute; exact hexpiry
  sender := h.sender
  isInTime := h.isInTime_silent hsent

theorem advance (h : Screened c request r) (ha : Stream.Advances c r.stream r.state stream state) :
    Screened c request (r.act stream state none) := by
  have hsent := ha.transmits
  have hstep : InvokerState.Move.IsInTime c request.timeout ⟨r.state, none, state⟩ :=
    ⟨hsent, fun _ hm => by cases hm⟩
  cases ha with
  | begun hopening =>
    obtain rfl := h.request_eq
    obtain ⟨s', hs, ⟨e, hbegin, he, hbad⟩ | ⟨route, deadline, hbegin, hgood, hexpiry⟩⟩ :=
      Stream.begin_cases c r.stream r.state
    all_goals rw [hbegin] at hsent ⊢
    · exact h.reject (by rw [hopening]; trivial) he (.inl hbad) hs hsent
    · exact h.accept hopening hgood hexpiry hs hsent deadline
  | @awaited route stream hopening hawaits =>
    have hne : r.stream.opening ≠ .checking := by simp [hopening]
    have hnot : ¬r.stream.opening.IsRejected := by rw [hopening]; exact id
    have hwaiting : r.stream.opening.IsWaiting := by rw [hopening]; trivial
    cases hawaits with
    | cancelled | expired =>
      exact h.goOn hne hnot rfl (h.isUnderway_fail fun h => h) hstep
    | ready =>
      exact h.goOn hne hnot rfl (h.isUnderway id id trivial fun _ hr => by
        rw [hopening]; exact hr) hstep
    | ended hempty hclosed =>
      rw [h.payloads_eq hwaiting] at hempty
      exact h.reject hwaiting trivial (.inr ⟨hempty, hclosed⟩) (.refl _) hsent
  | ensured hopening he =>
    have hspares := Router.sparesArguments_of_stepEnsure? he
    exact h.goOn (by simp [hopening]) (by rw [hopening]; exact id) rfl
      (h.isUnderway id id hspares fun _ hr => by rw [hopening]; exact hr) hstep
  | @failed route result e hopening he =>
    have hspares := h.sparesArguments
    rw [hopening] at hspares
    have hnot : ¬e.IsArgument := he.elim (hspares e) (Router.sparesArguments_register _ _ _ e)
    exact h.goOn (by simp [hopening]) (by rw [hopening]; exact id) rfl (h.isUnderway_fail hnot)
      hstep
  | @opened route router hopening _ =>
    have hexpiry := h.route route (by rw [hopening]; rfl)
    refine h.goOn (by simp [hopening]) (by rw [hopening]; exact id) rfl ?_ hstep
    exact {
      not_isWaiting := id
      not_isRejected := id
      sparesArguments := trivial
      route := fun _ hr => by cases hr
      sender := fun t ht => by
        cases ht
        rw [h.request_eq]
        exact hexpiry }

theorem yield (h : Screened c request r) (item : Stream.Item V) :
    Screened c request (r.yield item) := by
  cases item <;> exact { h with }

theorem push (h : Screened c request r) (hread : r.stream.input.isRead = true) (payload : V) :
    Screened c request { r with
      inputs := r.inputs ++ [payload]
      stream := { r.stream with
        input := { r.stream.input with payloads := r.stream.input.payloads ++ [payload] } } } where
  request_eq := h.request_eq
  steps_eq_nil_iff := h.steps_eq_nil_iff
  isRejected := h.isRejected
  rejects hrejected := by
    obtain ⟨-, hunread⟩ := h.rejects hrejected
    rw [hread] at hunread
    cases hunread
  leavesNoTrace := h.leavesNoTrace
  payloads_eq hwaiting := congrArg (· ++ _) (h.payloads_eq hwaiting)
  sparesArguments := h.sparesArguments
  route := h.route
  sender := h.sender
  isInTime := h.isInTime

theorem step (h : Screened c request r) (ha : Accounted c r₀ r) (hstep : Step c r r') :
    Screened c request r' := by
  cases hstep with
  | push payload hread => exact h.push hread payload
  | close =>
    exact { h with
      rejects := fun hrejected =>
        (h.rejects hrejected).imp_left (Or.imp_right (And.imp_right fun _ => rfl)) }
  | cancel | route | elsewhere => exact { h with }
  | opening hadvances => exact h.advance hadvances
  | sender ht hs =>
    obtain hu | ⟨t, failure, hserved⟩ := ha
    · rw [hu.sender_eq] at ht
      cases ht
    · exact h.same hserved.opening_eq (Stream.sameExchange_of_stepSender? ht hs)
        (Stream.transmits_of_stepSender? ht hs)
  | @poll item stream state sent hp =>
    obtain hu | ⟨t, failure, hserved⟩ := ha
    · obtain ⟨hdropped, rfl, rfl, rfl, rfl⟩ := hu.polls hp
      refine (h.idle fun hopening => ?_).yield .ended
      rw [hu.isDropped_eq (by simp [hopening])] at hdropped
      cases hdropped
    · exact (h.same hserved.opening_eq (Stream.sameExchange_of_polls hp) hp.transmits).yield item

end Screened

theorem Screened.run (hrun : Run c (.start request state) r) : Screened c request r := by
  induction hrun with
  | refl => exact .start c request state
  | tail hrun hstep ih => exact ih.step (Accounted.run hrun) hstep

/-- Nothing holds up the first step, which rejects the arguments or waits for the first request. -/
theorem Screened.first (h : Screened c request r) (hnone : r.steps = []) :
    (r.stream.stepOpening? c r.state).isSome = true ∧ ∀ stream state,
      Stream.Advances c r.stream r.state stream state →
        stream.opening.IsRejected ∧
            c.Rejects request.timeout request.userData request.tokens ∨
          (∃ route, stream.opening = .awaitingInput route) ∧
            ¬c.Rejects request.timeout request.userData request.tokens := by
  have hopening := h.steps_eq_nil_iff.mp hnone
  refine ⟨?_, fun stream state ha => ?_⟩
  · rw [Stream.stepOpening?, hopening]
    rfl
  · cases ha with
    | begun =>
      obtain rfl := h.request_eq
      obtain ⟨s', -, ⟨e, hbegin, he, hbad⟩ | ⟨route, deadline, hbegin, hgood, -⟩⟩ :=
        Stream.begin_cases c r.stream r.state
      all_goals rw [hbegin]
      · exact .inl ⟨he, hbad⟩
      · exact .inr ⟨⟨route, rfl⟩, hgood⟩
    | awaited hopening' | ensured hopening' | failed hopening' | opened hopening' =>
      rw [hopening] at hopening'
      cases hopening'

theorem Screened.ended (h : Screened c request r) {route : StreamRoute}
    (hopening : r.stream.opening = .awaitingInput route) (hinputs : r.inputs = [])
    (hclosed : r.stream.input.isClosed = true) (hnot : r.stream.isCancelled = false)
    (hearly : r.state.now < r.stream.deadline) :
    (r.stream.stepOpening? c r.state).isSome = true ∧ ∀ stream state,
      Stream.Advances c r.stream r.state stream state → stream.opening.IsRejected := by
  have hempty : r.stream.input.payloads = [] := by
    rw [h.payloads_eq (by rw [hopening]; trivial), hinputs]
  refine ⟨?_, fun stream state ha => ?_⟩
  · simp [Stream.stepOpening?, hopening, Stream.awaitInput?, hnot, hempty, hclosed]
  · cases ha with
    | begun hopening' | ensured hopening' | failed hopening' | opened hopening' =>
      rw [hopening] at hopening'
      cases hopening'
    | awaited _ hawaits =>
      cases hawaits with
      | cancelled hcancelled =>
        rw [hnot] at hcancelled
        cases hcancelled
      | ready hready => exact absurd hempty hready
      | ended => trivial
      | expired hdue => exact absurd hearly (not_lt.mpr hdue)

end Transcript

/-- An invocation whose arguments are rejected has done nothing that anyone could notice. That
happens if the timeout, rounded up to whole seconds, is zero or too large, a custom key is
reserved, or a placeholder of a topic is not filled with a topic level, and to a stream that has no
request although its input has ended in time. Of every step of an invocation it is known what it
publishes, since the network after it is the one after publishing exactly that message; and
whatever is published expires after the timeout, rounded up. -/
theorem Channel.rejected_without_effect {V : Type} (c : Channel V) :
    (∀ request state r, Call.Record.Run c (.start request state) r →
      (r.steps = [] → (r.call.step? c r.state).isSome = true) ∧
      (r.call.phase.IsRejected ↔
        r.steps ≠ [] ∧ c.Rejects request.timeout request.userData request.tokens) ∧
      (r.call.phase.IsRejected → ∀ m ∈ r.steps, m.before.Untouched m.after ∧ m.sent = none) ∧
      ∀ m ∈ r.steps, m.before.Transmits c m.sent m.after ∧
        ∀ message, m.sent = some message → message.ExpiresAfter request.timeout) ∧
    ∀ request state r, Transcript.Run c (.start request state) r →
      (r.steps = [] → (r.stream.stepOpening? c r.state).isSome = true ∧ ∀ stream s,
        Stream.Advances c r.stream r.state stream s →
          stream.opening.IsRejected ∧
              c.Rejects request.timeout request.userData request.tokens ∨
            (∃ route, stream.opening = .awaitingInput route) ∧
              ¬c.Rejects request.timeout request.userData request.tokens) ∧
      (c.Rejects request.timeout request.userData request.tokens → r.steps ≠ [] →
        r.stream.opening.IsRejected) ∧
      (∀ route, r.stream.opening = .awaitingInput route → r.inputs = [] →
        r.stream.input.isClosed = true → r.stream.isCancelled = false →
        r.state.now < r.stream.deadline →
        (r.stream.stepOpening? c r.state).isSome = true ∧ ∀ stream s,
          Stream.Advances c r.stream r.state stream s → stream.opening.IsRejected) ∧
      (r.stream.opening.IsRejected →
        (c.Rejects request.timeout request.userData request.tokens ∨
          r.inputs = [] ∧ r.stream.input.isClosed = true) ∧
        ∀ m ∈ r.steps, m.before.Untouched m.after ∧ m.sent = none) ∧
      ∀ m ∈ r.steps, m.before.Transmits c m.sent m.after ∧
        ∀ message, m.sent = some message → message.ExpiresAfter request.timeout := by
  refine ⟨fun request state r hrun => ?_, fun request state r hrun => ?_⟩
  · have h := Call.Record.Screened.run hrun
    refine ⟨fun hnone => ?_, ⟨fun hrejected => ?_, fun ⟨hsteps, hbad⟩ => ?_⟩,
      fun hrejected => h.leavesNoTrace (.inr hrejected), fun m hm => ?_⟩
    · rw [Call.step?, h.steps_eq_nil_iff.mp hnone]
      rfl
    · have hne : r.call.phase ≠ .preparing := fun hphase => by
        rw [hphase] at hrejected
        exact hrejected
      exact ⟨fun hnone => hne (h.steps_eq_nil_iff.mp hnone), (h.isRejected_iff hne).mp hrejected⟩
    · exact (h.isRejected_iff fun hphase => hsteps (h.steps_eq_nil_iff.mpr hphase)).mpr hbad
    · exact ⟨(h.isInTime m hm).transmits, (h.isInTime m hm).expiry⟩
  · have h := Transcript.Screened.run hrun
    refine ⟨h.first, fun hbad hsteps => ?_, fun _ => h.ended, fun hrejected => ?_,
      fun m hm => ⟨(h.isInTime m hm).transmits, (h.isInTime m hm).expiry⟩⟩
    · exact h.isRejected (fun hopening => hsteps (h.steps_eq_nil_iff.mpr hopening)) hbad
    · exact ⟨(h.rejects hrejected).1, h.leavesNoTrace (.inr hrejected)⟩

/-- A call without time, a stream without requests, and a call with a second and a half. -/
theorem Channel.two_rejected_one_sent :
    (∃ r, Call.Record.Run Stream.bytesChannel
        (.start { payload := [], timeout := .ofMillis 0 } Stream.subscribed) r ∧
      r.call.phase.IsRejected ∧ ∀ m ∈ r.steps, m.sent = none) ∧
    (∃ r, Transcript.Run Stream.bytesChannel (.start Stream.unhurried Stream.subscribed) r ∧
      r.stream.opening.IsRejected ∧ ∀ m ∈ r.steps, m.sent = none) ∧
    ∃ r, Call.Record.Run Stream.bytesChannel
        (.start { payload := [], timeout := .ofMillis 1500 } Stream.subscribed) r ∧
      ∃ m message, m ∈ r.steps ∧ m.sent = some message ∧ message.expiryInterval = some 2 ∧
        m.after.network = (m.before.network.publish Stream.bytesChannel.client message).2 := by
  obtain ⟨hcalls, hstreams⟩ := rejected_without_effect Stream.bytesChannel
  refine ⟨?_, ?_, ?_⟩
  · have hrun := Relation.ReflTransGen.single (@Call.Record.Step.act _ Stream.bytesChannel
      (.start { payload := [], timeout := .ofMillis 0 } Stream.subscribed) _ _
      (Call.acts_of_step? rfl))
    have hrejected := (hcalls _ _ _ hrun).2.1.mpr ⟨List.cons_ne_nil _ _, .tooShort rfl⟩
    exact ⟨_, hrun, hrejected, fun m hm => ((hcalls _ _ _ hrun).2.2.1 hrejected m hm).2⟩
  · have hrun := ((Relation.ReflTransGen.single (@Transcript.Step.close _ Stream.bytesChannel
      (.start Stream.unhurried Stream.subscribed))).tail
      (.opening (Stream.advances_of_stepOpening? rfl))).tail
      (.opening (Stream.advances_of_stepOpening? rfl))
    exact ⟨_, hrun, trivial, fun m hm => ((hstreams _ _ _ hrun).2.2.2.1 trivial).2 m hm |>.2⟩
  · have hrun := (((Relation.ReflTransGen.single (@Call.Record.Step.act _ Stream.bytesChannel
      (.start { payload := [], timeout := .ofMillis 1500 } Stream.subscribed) _ _
      (Call.acts_of_step? rfl))).tail (.act (Call.acts_of_step? rfl))).tail
      (.act (Call.acts_of_step? rfl))).tail (.act (Call.acts_of_step? rfl))
    obtain ⟨htransmits, hall⟩ := (hcalls _ _ _ hrun).2.2.2 _ (List.mem_append_right _
      List.mem_cons_self)
    obtain ⟨expiry, hm, hexpiry⟩ := hall _ rfl
    obtain rfl : expiry = 2 := UInt32.toNat_inj.mp (hexpiry.trans rfl)
    exact ⟨_, hrun, _, _, List.mem_append_right _ List.mem_cons_self, rfl, hm, by
      cases htransmits with
      | message h => exact h⟩

end CommandBus
