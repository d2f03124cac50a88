import CommandBus.Proofs.Invoker.Routing
import CommandBus.Proofs.Stream.Sending
import CommandBus.Stream.Exchange
import Mathlib

namespace CommandBus

namespace Stream

variable {V : Type} {c : Channel V} {st st' : Stream V} {s s' : InvokerState}

inductive Awaits (c : Channel V) (st : Stream V) (route : StreamRoute) (s : InvokerState) :
    Stream V → Prop
  | cancelled (h : st.isCancelled = true) :
    Awaits c st route s (st.fail c (ProtocolError.cancellation.withText
      "stream cancelled before its first request"))
  | ready (h : st.input.payloads ≠ []) :
    Awaits c st route s { st with opening := .subscribing route .locking }
  | ended (hempty : st.input.payloads = []) (hclosed : st.input.isClosed = true) :
    Awaits c st route s (st.fail c ((ProtocolError.argumentInvalid "payloads" "[]").withText
      "a stream needs at least one request"))
  | expired (h : st.deadline ≤ s.now) :
    Awaits c st route s (st.fail c (.timeout "command" (some st.request.timeout)))

inductive Advances (c : Channel V) (st : Stream V) (s : InvokerState) :
    Stream V → InvokerState → Prop
  | begun (h : st.opening = .checking) : Advances c st s (st.begin c s).1 (st.begin c s).2
  | awaited {route : StreamRoute} {st' : Stream V} (h : st.opening = .awaitingInput route)
    (ha : Awaits c st route s st') : Advances c st s st' s
  | ensured {route : StreamRoute} {step step' : Router.Ensuring} {router : Router}
    {network : Network} {started : Option Nat} (h : st.opening = .subscribing route step)
    (he : s.router.stepEnsure? c.client c.responseFilter s.network step =
      some (step', router, network, started)) :
    Advances c st s { st with opening := .subscribing route step' } { s with router, network }
  | failed {route : StreamRoute} {result : Except ProtocolError Unit} {e : ProtocolError}
    (h : st.opening = .subscribing route (.done result))
    (he : result = .error e ∨
      s.router.register route.correlationId route.responseTopic = .error e) :
    Advances c st s (st.fail c e) s
  | opened {route : StreamRoute} {router : Router}
    (h : st.opening = .subscribing route (.done (.ok ())))
    (hr : s.router.register route.correlationId route.responseTopic = .ok router) :
    Advances c st s
      { st with
        opening := .opened
        sender := some { route, userData := st.request.userData } }
      { s with router }

theorem awaits_of_awaitInput? {route : StreamRoute} (h : st.awaitInput? c route s = some st') :
    Awaits c st route s st' := by
  unfold awaitInput? at h
  split at h
  next hcancelled =>
    cases h
    exact .cancelled hcancelled
  split at h
  next hready =>
    cases h
    exact .ready (by simpa using hready)
  next hempty =>
    split at h
    next hclosed =>
      cases h
      exact .ended (by simpa using hempty) hclosed
    split at h
    next hdue =>
      cases h
      exact .expired hdue
    next => cases h

theorem advances_of_stepOpening? {started : Option Started}
    (h : st.stepOpening? c s = some (st', s', started)) : Advances c st s st' s' := by
  unfold stepOpening? at h
  split at h
  next hchecking =>
    cases h
    exact .begun hchecking
  next route hawaiting =>
    obtain ⟨st'', hst, heq⟩ := Option.map_eq_some_iff.mp h
    cases heq
    exact .awaited hawaiting (awaits_of_awaitInput? hst)
  next route result hsubscribing =>
    cases result with
    | error e =>
      cases h
      exact .failed hsubscribing (.inl rfl)
    | ok =>
      dsimp only [Except.bind] at h
      split at h <;> cases h
      next hr => exact .failed hsubscribing (.inr hr)
      next hr => exact .opened hsubscribing hr
  next route step _ hsubscribing =>
    split at h
    next he =>
      cases h
      exact .ensured hsubscribing he
    next => cases h
  next => cases h
  next => cases h

theorem Advances.transmits (h : Advances c st s st' s') : s.Transmits c none s' := by
  cases h with
  | begun =>
    refine .takenId ?_
    unfold begin
    dsimp only
    split <;> rfl
  | ensured _ he => exact .subscription he
  | awaited | failed | opened => exact .nothing rfl

def cancelling (route : StreamRoute) : Outgoing :=
  route.outgoing .empty [(Property.cancel.key, "true")]

/-- What ends the waiting for a response, other than a response: the error, what becomes of all
that the invoker works with, and what is handed to the client. -/
inductive Interrupts (c : Channel V) (st : Stream V) (s : InvokerState) :
    ProtocolError → InvokerState → Option Message → Prop
  | senderFailed {t : Sender} {e : ProtocolError} (ht : st.sender = some t)
    (hsending : st.isSending = true) (hphase : t.phase = .finished (.error e)) :
    Interrupts c st s e s none
  | shutDown {t : Sender} (ht : st.sender = some t) (hn : st.isCancelled = false)
    (h : s.router.isCancelled = true) :
    Interrupts c st s (ProtocolError.cancellation.withText
      "invoker shut down while awaiting response") s none
  | cancelled {t : Sender} (ht : st.sender = some t) (h : st.isCancelled = true) :
    Interrupts c st s (ProtocolError.cancellation.withText "stream cancelled")
      (sendCancel c t.route s) (s.handed? c (cancelling t.route))
  | expired {t : Sender} (ht : st.sender = some t) (h : st.deadline ≤ s.now) :
    Interrupts c st s (.timeout "command" (some st.request.timeout)) s none

/-- What can come of asking for the next item. That the sender is done may be noticed on the way. -/
inductive Polls (c : Channel V) (st : Stream V) (s : InvokerState) :
    Item V → Stream V → InvokerState → Option Message → Prop
  | gone (h : st.isDropped = true) : Polls c st s .ended st s none
  | exhausted (h : st.isDropped = false) (hdone : st.isDone = true) :
    Polls c st s .ended (st.drop s).1 (st.drop s).2 none
  | interrupted (h : st.isDropped = false) (hopen : st.isDone = false) {e : ProtocolError}
    {s' : InvokerState} {sent : Option Message} (hi : Interrupts c st s e s' sent)
    (isSending : Bool) :
    Polls c st s (.item (.error (e.withCommand c.commandName)))
      { st with isSending, isDone := true } s' sent
  | response (h : st.isDropped = false) (hopen : st.isDone = false) {t : Sender} {m : Message}
    {router : Router} (ht : st.sender = some t)
    (hm : s.router.take? t.route.correlationId = some (m, router)) {isSending : Bool}
    (hn : isSending = st.isSending ∨ isSending = false ∧ t.phase = .finished (.ok ()))
    {result : Except ProtocolError (StreamItem V)} {st' : Stream V} {s' : InvokerState}
    (hr : readItem c { st with isSending } { s with router } m = (result, st', s')) :
    Polls c st s (.item (result.mapError (·.withCommand c.commandName))) st' s' none

theorem Interrupts.transmits {e : ProtocolError} {sent : Option Message}
    (h : Interrupts c st s e s' sent) : s.Transmits c sent s' := by
  cases h with
  | @cancelled t => exact s.transmits_send c (cancelling t.route)
  | senderFailed | shutDown | expired => exact .nothing rfl

theorem network_readItem (st : Stream V) (s : InvokerState) (m : Message) :
    (st.readItem c s m).2.2.network = s.network := by
  unfold readItem
  dsimp only
  split <;> rfl

theorem Polls.transmits {item : Item V} {sent : Option Message}
    (h : Polls c st s item st' s' sent) : s.Transmits c sent s' := by
  cases h with
  | gone => exact .nothing rfl
  | exhausted =>
    refine .nothing ?_
    unfold drop
    dsimp only
    split <;> rfl
  | interrupted _ _ hi => exact hi.transmits
  | @response _ _ _ m router _ _ isSending _ _ _ _ hr =>
    have hnetwork := network_readItem (c := c) { st with isSending } { s with router } m
    rw [hr] at hnetwork
    exact .nothing hnetwork

/-- Whether the sender is found to be done, and with an error, before anything else is waited for. -/
theorem noticed_cases (st : Stream V) (t : Sender) :
    let noticed := st.isSending && t.isFinished
    let failure := if noticed then
      match t.phase with
      | .finished (.error e) => some e
      | _ => none
    else none
    ∃ isSending, (if noticed then { st with isSending := false } else st) = { st with isSending } ∧
      ((∃ e, failure = some e ∧ st.isSending = true ∧ t.phase = .finished (.error e)) ∨
        failure = none ∧
          (isSending = st.isSending ∨ isSending = false ∧ t.phase = .finished (.ok ()))) := by
  intro noticed failure
  cases hnoticed : noticed with
  | false =>
    exact ⟨st.isSending, rfl, .inr ⟨by simp [failure, hnoticed], .inl rfl⟩⟩
  | true =>
    refine ⟨false, rfl, ?_⟩
    obtain ⟨hsending, hfinished⟩ := Bool.and_eq_true_iff.mp hnoticed
    rw [Sender.isFinished] at hfinished
    split at hfinished
    next result hphase =>
      cases result with
      | error e => exact .inl ⟨e, by simp [failure, hnoticed, hphase], hsending, hphase⟩
      | ok => exact .inr ⟨by simp [failure, hphase], .inr ⟨rfl, hphase⟩⟩
    next => cases hfinished

theorem receive?_cases {result : Except ProtocolError Message}
    (h : st.receive? c s = some (result, st', s')) :
    (∃ e isSending sent, result = .error e ∧ st' = { st with isSending } ∧
        Interrupts c st s e s' sent) ∨
      ∃ t m router isSending, result = .ok m ∧ st' = { st with isSending } ∧
        s' = { s with router } ∧ st.sender = some t ∧
        s.router.take? t.route.correlationId = some (m, router) ∧
        (isSending = st.isSending ∨ isSending = false ∧ t.phase = .finished (.ok ())) := by
  simp only [receive?, Option.bind_eq_bind, Option.bind_eq_some_iff] at h
  obtain ⟨t, ht, h⟩ := h
  obtain ⟨isSending, hnoticed, ⟨e, hfailure, hsending, hphase⟩ | ⟨hfailure, hn⟩⟩ :=
    noticed_cases st t <;> rw [hnoticed] at h <;> split at h
  next e' hsome =>
    cases h
    cases hsome.symm.trans hfailure
    exact .inl ⟨e, isSending, none, rfl, rfl, .senderFailed ht hsending hphase⟩
  next hnone => cases hnone.symm.trans hfailure
  next hsome => cases hsome.symm.trans hfailure
  next =>
  split at h
  next m s₁ hreceive =>
    cases h
    cases InvokerState.receives_of_receive? hreceive with
    | response htake => exact .inr ⟨t, m, _, isSending, rfl, rfl, rfl, ht, htake, hn⟩
  next e s₁ hreceive =>
    split at h
    next hcancelled =>
      cases h
      cases InvokerState.receives_of_receive? hreceive with
      | shutDown | cancelled => exact .inl ⟨_, isSending, _, rfl, rfl, .cancelled ht hcancelled⟩
    next hopen =>
      cases h
      cases InvokerState.receives_of_receive? hreceive with
      | shutDown hshutDown =>
        exact .inl ⟨_, isSending, none, rfl, rfl, .shutDown ht (by simpa using hopen) hshutDown⟩
      | cancelled hcancelled => exact absurd hcancelled hopen
  next =>
    split at h
    next hdue =>
      cases h
      exact .inl ⟨_, isSending, none, rfl, rfl, .expired ht hdue⟩
    next => cases h

theorem polls_of_next? {item : Item V} (h : st.next? c s = some (item, st', s')) :
    ∃ sent, Polls c st s item st' s' sent := by
  unfold next? at h
  split at h
  next hdropped =>
    cases h
    exact ⟨none, .gone hdropped⟩
  next hdropped =>
  rw [Bool.not_eq_true] at hdropped
  split at h
  next hdone =>
    cases h
    exact ⟨none, .exhausted hdropped hdone⟩
  next hopen =>
  rw [Bool.not_eq_true] at hopen
  split at h
  next => cases h
  next e st₁ s₁ hreceive =>
    obtain ⟨e', isSending, sent, he, rfl, hi⟩ | ⟨_, _, _, _, he, -⟩ := receive?_cases hreceive
    · cases he
      cases h
      exact ⟨sent, .interrupted hdropped hopen hi isSending⟩
    · cases he
  next m st₁ s₁ hreceive =>
    obtain ⟨_, _, _, he, -⟩ | ⟨t, m', router, isSending, he, rfl, rfl, ht, hm, hn⟩ :=
      receive?_cases hreceive
    · cases he
    · cases he
      cases h
      exact ⟨none, .response hdropped hopen ht hm hn rfl⟩

theorem isSome_receive? {t : Sender} (ht : st.sender = some t)
    (h : (s.router.take? t.route.correlationId).isSome = true ∨
      ∃ e s' sent, Interrupts c st s e s' sent) : (st.receive? c s).isSome = true := by
  rw [← Option.ne_none_iff_isSome]
  intro hnone
  have hwaiting := Option.bind_eq_none_iff.mp hnone t ht
  obtain ⟨isSending, hnoticed, -⟩ := noticed_cases st t
  dsimp only at hwaiting
  rw [hnoticed] at hwaiting
  split at hwaiting
  next => cases hwaiting
  next hfailure =>
  split at hwaiting
  next => cases hwaiting
  next => split at hwaiting <;> cases hwaiting
  next hreceive =>
  split at hwaiting
  next => cases hwaiting
  next hdue =>
  -- neither the router nor the exchange has anything for the one who waits
  obtain ⟨htake, hrouter, hstream⟩ := InvokerState.receive?_eq_none_iff.mp hreceive
  obtain hwaits | ⟨e, s', sent, hi⟩ := h
  · rw [htake] at hwaits
    cases hwaits
  · cases hi with
    | senderFailed ht' hsending hphase =>
      cases ht.symm.trans ht'
      rw [hphase, hsending, Sender.isFinished, hphase] at hfailure
      cases hfailure
    | shutDown _ _ h => exact Bool.noConfusion (hrouter.symm.trans h)
    | cancelled _ h => exact Bool.noConfusion (hstream.symm.trans h)
    | expired _ h => exact hdue h

theorem isSome_next? {t : Sender} (ht : st.sender = some t)
    (h : (s.router.take? t.route.correlationId).isSome = true ∨
      ∃ e s' sent, Interrupts c st s e s' sent) : (st.next? c s).isSome = true := by
  unfold next?
  split
  next => rfl
  next =>
    split
    next => rfl
    next =>
      obtain ⟨⟨result, st₁, s₁⟩, hreceive⟩ := Option.isSome_iff_exists.mp (isSome_receive? ht h)
      rw [hreceive]
      cases result <;> rfl

end Stream

end CommandBus
