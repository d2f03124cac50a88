import CommandBus.Proofs.Invoker.Outcomes
import CommandBus.Proofs.Stream.Transcript
import CommandBus.Proofs.Topic.Covering
import Mathlib

namespace CommandBus

theorem Duration.ceilSecs_eq (d : Duration) : d.ceilSecs = d.nanos ⌈/⌉ 1000000000 := by
  rw [Nat.ceilDiv_eq_add_pred_div, ceilSecs, secs, subsecNanos]
  split <;> omega

/-- The message is of use for the timeout, rounded up to whole seconds. -/
def Message.ExpiresAfter (m : Message) (timeout : Duration) : Prop :=
  ∃ expiry, m.expiryInterval = some expiry ∧ expiry.toNat = timeout.nanos ⌈/⌉ 1000000000

/-- At most an id has been taken: nothing has been subscribed, published or registered, and the
clock has not moved. -/
def InvokerState.Untouched (s s' : InvokerState) : Prop :=
  ∃ issuedIds, s' = { s with network := { s.network with issuedIds } }

theorem InvokerState.Untouched.refl (s : InvokerState) : s.Untouched s :=
  ⟨s.network.issuedIds, rfl⟩

def InvokerState.Move.LeavesNoTrace (m : Move) : Prop :=
  m.before.Untouched m.after ∧ m.sent = none

/-- A step that publishes exactly the message that it is to send, if it is to send one, and that
expires after the timeout, rounded up to whole seconds. -/
structure InvokerState.Move.IsInTime {V : Type} (c : Channel V) (timeout : Duration) (m : Move) :
    Prop where
  transmits : m.before.Transmits c m.sent m.after
  expiry : ∀ message, m.sent = some message → message.ExpiresAfter timeout

def LeaveNoTrace (steps : List InvokerState.Move) : Prop :=
  ∀ m ∈ steps, m.LeavesNoTrace

theorem LeaveNoTrace.append {steps : List InvokerState.Move} {s s' : InvokerState}
    (h : LeaveNoTrace steps) (hs : s.Untouched s') : LeaveNoTrace (steps ++ [⟨s, none, s'⟩]) :=
  List.forall_mem_append.mpr ⟨h, List.forall_mem_singleton.mpr ⟨hs, rfl⟩⟩

theorem InvokerState.expiresAfter_of_handed? {V : Type} {s : InvokerState} {c : Channel V}
    {o : Outgoing} {timeout : Duration} (ho : o.expiry.toNat = timeout.nanos ⌈/⌉ 1000000000)
    {m : Message} (hm : s.handed? c o = some m) : m.ExpiresAfter timeout := by
  obtain ⟨stamp, -, rfl⟩ := Option.map_eq_some_iff.mp hm
  exact ⟨o.expiry, rfl, ho⟩

namespace ProtocolError

def IsArgument (e : ProtocolError) : Prop :=
  match e.kind with
  | .argumentInvalid .. => True
  | _ => False

theorem not_isArgument_ofClock (e : ClockError) : ¬(ofClock e).IsArgument := by
  cases e <;> exact id

theorem not_isArgument_statusError (status : Status) (p : ProtocolProperties) :
    ¬(Response.statusError status p).IsArgument := by
  unfold Response.statusError Response.reportedError
  extract_lets name value isApplicationError
  cases status with
  | badRequest => cases name <;> cases value <;> exact id
  | internalServerError =>
    dsimp only
    split
    · exact id
    · split <;> exact id
  | _ => exact id

end ProtocolError

def SparesArguments {α : Type} (x : Except ProtocolError α) : Prop :=
  ∀ e, x = .error e → ¬e.IsArgument

namespace SparesArguments

variable {α β : Type} {x : Except ProtocolError α} {f : α → Except ProtocolError β}

theorem ok (a : α) : SparesArguments (.ok a) := fun _ h => by cases h

theorem error {e : ProtocolError} (h : ¬e.IsArgument) : SparesArguments (.error e : Except _ α) :=
  fun _ h' => by cases h'; exact h

theorem bind (hx : SparesArguments x) (hf : ∀ a, SparesArguments (f a)) :
    SparesArguments (x >>= f) := by
  cases x with
  | error e => exact error (hx e rfl)
  | ok a => exact hf a

theorem map (hx : SparesArguments x) (f : α → β) : SparesArguments (x.map f) := by
  cases x with
  | error e => exact error (hx e rfl)
  | ok a => exact ok (f a)

end SparesArguments

/-- What fails exactly if something is bad, and then finds fault with an argument. -/
structure Checks {α : Type} (x : Except ProtocolError α) (bad : Prop) : Prop where
  isArgument : ∀ e, x = .error e → e.IsArgument
  iff : (∃ e, x = .error e) ↔ bad

namespace Checks

variable {α β : Type} {x : Except ProtocolError α} {f : α → Except ProtocolError β} {p q : Prop}

theorem ok (a : α) : Checks (.ok a) False where
  isArgument _ h := by cases h
  iff := by
    refine iff_of_false ?_ id
    rintro ⟨_, h⟩
    cases h

theorem error {e : ProtocolError} (h : e.IsArgument) : Checks (.error e : Except _ α) True where
  isArgument _ h' := by cases h'; exact h
  iff := ⟨fun _ => trivial, fun _ => ⟨e, rfl⟩⟩

theorem reject (name value text : String) :
    Checks (.error ((ProtocolError.argumentInvalid name value).withText text) : Except _ α) True :=
  error trivial

theorem congr (h : Checks x p) (hpq : p ↔ q) : Checks x q :=
  ⟨h.isArgument, h.iff.trans hpq⟩

theorem bind (hx : Checks x p) (hf : ∀ a, x = .ok a → Checks (f a) q) :
    Checks (x >>= f) (p ∨ q) := by
  cases x with
  | error e =>
    have hbad : p := hx.iff.mp ⟨e, rfl⟩
    exact (error (hx.isArgument e rfl)).congr (iff_of_true trivial (.inl hbad))
  | ok a =>
    have hgood : ¬p := fun hp => by
      obtain ⟨e, he⟩ := hx.iff.mpr hp
      cases he
    exact (hf a rfl).congr (or_iff_right hgood).symm

theorem mapM {bad : α → Prop} {f : α → Except ProtocolError β} (h : ∀ a, Checks (f a) (bad a))
    (l : List α) : Checks (l.mapM f) (∃ a ∈ l, bad a) := by
  induction l with
  | nil => exact (ok []).congr (by simp)
  | cons a l ih =>
    rw [List.mapM_cons]
    refine ((h a).bind fun b _ => ih.bind fun bs _ => ok (b :: bs)).congr ?_
    simp

end Checks

theorem UserProperties.checks_validate (l : UserProperties) :
    Checks l.validate (∃ p ∈ l, isReserved p.1 = true) where
  isArgument e h := by
    unfold validate at h
    split at h <;> cases h
    exact trivial
  iff := by
    have hok := l.validate_eq_ok_iff
    cases h : l.validate with
    | ok => simpa [h] using hok.mp h
    | error e => simpa [h] using hok

theorem checks_expiryInterval (timeout : Duration) :
    Checks (expiryInterval timeout)
      (timeout.nanos ⌈/⌉ 1000000000 = 0 ∨ 2 ^ 32 - 1 < timeout.nanos ⌈/⌉ 1000000000) := by
  rw [← timeout.ceilSecs_eq, expiryInterval]
  split
  next h => exact (Checks.reject _ _ _).congr (by simp [h])
  next h =>
    split
    next hlt =>
      have hle : ¬2 ^ 32 - 1 < timeout.ceilSecs := not_lt.mpr (Nat.le_sub_one_of_lt hlt)
      exact (Checks.ok _).congr (iff_of_false id (not_or.mpr ⟨h, hle⟩))
    next hle =>
      have hlt : 2 ^ 32 - 1 < timeout.ceilSecs := Nat.lt_of_lt_of_le (by decide) (not_lt.mp hle)
      exact (Checks.reject _ _ _).congr (iff_of_true trivial (.inr hlt))

theorem toNat_expiryInterval {timeout : Duration} {expiry : UInt32}
    (h : expiryInterval timeout = .ok expiry) : expiry.toNat = timeout.nanos ⌈/⌉ 1000000000 := by
  rw [← timeout.ceilSecs_eq]
  unfold expiryInterval at h
  extract_lets at h
  split at h
  · cases h
  split at h <;> cases h
  exact UInt32.toNat_ofNat_of_lt' ‹_›

namespace TopicPattern

def IsUnfilled (tokens : TokenMap) (name : String) : Prop :=
  ∀ value, tokens.get? name = some value → isLevel value = false

theorem checks_fillLevel (tokens : TokenMap) (l : PatternLevel) :
    Checks (fillLevel tokens l) (∃ name, l = .token name ∧ IsUnfilled tokens name) := by
  cases l with
  | literal text => exact (Checks.ok text).congr (by simp)
  | token name =>
    rw [fillLevel]
    split
    next value hvalue =>
      split
      next hlevel => exact (Checks.ok value).congr (by simp [IsUnfilled, hvalue, hlevel])
      next hlevel =>
        exact (Checks.reject _ _ _).congr (by simp [IsUnfilled, hvalue, hlevel])
    next hvalue =>
      exact (Checks.reject _ _ _).congr (by simp [IsUnfilled, hvalue])

theorem checks_publishTopic (p : TopicPattern) (tokens : TokenMap) :
    Checks (p.publishTopic tokens) (∃ name, .token name ∈ p.levels ∧ IsUnfilled tokens name) := by
  refine ((Checks.mapM (checks_fillLevel tokens) p.levels).bind fun ls _ =>
    Checks.ok (Text.joinLevels ls)).congr ?_
  rw [or_false]
  constructor
  · rintro ⟨_, hl, name, rfl, h⟩
    exact ⟨name, hl, h⟩
  · rintro ⟨name, hl, h⟩
    exact ⟨_, hl, name, rfl, h⟩

end TopicPattern

namespace Channel

variable {V : Type} {c : Channel V} {timeout : Duration} {userData : UserProperties}
  {tokens : TokenMap}

theorem sparesArguments_encode (c : Channel V) (payload : V) :
    SparesArguments (c.encode payload) := by
  unfold encode
  split
  · exact .ok _
  · exact .error id

inductive Rejects (c : Channel V) (timeout : Duration) (userData : UserProperties)
    (tokens : TokenMap) : Prop
  | tooShort (h : timeout.nanos ⌈/⌉ 1000000000 = 0)
  | tooLong (h : 2 ^ 32 - 1 < timeout.nanos ⌈/⌉ 1000000000)
  | reservedKey {key value : String} (hp : (key, value) ∈ userData)
    (h : "__".toList <+: key.toList)
  | badToken {name : String}
    (hl : .token name ∈ c.requestTopic.levels ∨ .token name ∈ c.responseTopic.levels)
    (h : TopicPattern.IsUnfilled tokens name)

/-- The checks that all invocations have in common, with the expiry interval and the topics. -/
def accept (c : Channel V) (timeout : Duration) (userData : UserProperties) (tokens : TokenMap) :
    Except ProtocolError (UInt32 × String × String) := do
  let expiry ← expiryInterval timeout
  userData.validate
  let topics ← c.topics tokens
  return (expiry, topics)

theorem checks_topics (c : Channel V) (tokens : TokenMap) : Checks (c.topics tokens)
    (∃ name, (.token name ∈ c.requestTopic.levels ∨ .token name ∈ c.responseTopic.levels) ∧
      TopicPattern.IsUnfilled tokens name) := by
  refine ((c.requestTopic.checks_publishTopic tokens).bind fun topic _ =>
    (c.responseTopic.checks_publishTopic tokens).bind fun responseTopic _ =>
      Checks.ok (topic, responseTopic)).congr ?_
  simp only [or_false, or_and_right, exists_or]

theorem rejects_iff : c.Rejects timeout userData tokens ↔
    (timeout.nanos ⌈/⌉ 1000000000 = 0 ∨ 2 ^ 32 - 1 < timeout.nanos ⌈/⌉ 1000000000) ∨
      (∃ p ∈ userData, UserProperties.isReserved p.1 = true) ∨
        ∃ name, (.token name ∈ c.requestTopic.levels ∨ .token name ∈ c.responseTopic.levels) ∧
          TopicPattern.IsUnfilled tokens name := by
  have hreserved (key : String) : UserProperties.isReserved key = true ↔
      "__".toList <+: key.toList := List.isPrefixOf_iff_prefix
  constructor
  · rintro (h | h | ⟨hp, h⟩ | ⟨hl, h⟩)
    · exact .inl (.inl h)
    · exact .inl (.inr h)
    · exact .inr (.inl ⟨_, hp, (hreserved _).mpr h⟩)
    · exact .inr (.inr ⟨_, hl, h⟩)
  · rintro ((h | h) | ⟨p, hp, h⟩ | ⟨name, hl, h⟩)
    · exact .tooShort h
    · exact .tooLong h
    · exact .reservedKey hp ((hreserved _).mp h)
    · exact .badToken hl h

theorem checks_accept (c : Channel V) (timeout : Duration) (userData : UserProperties)
    (tokens : TokenMap) :
    Checks (c.accept timeout userData tokens) (c.Rejects timeout userData tokens) := by
  refine ((checks_expiryInterval timeout).bind fun expiry _ =>
    userData.checks_validate.bind fun _ _ =>
      (c.checks_topics tokens).bind fun topics _ => Checks.ok (expiry, topics)).congr ?_
  rw [rejects_iff, or_false]

theorem toNat_of_accept {expiry : UInt32} {topics : String × String}
    (h : c.accept timeout userData tokens = .ok (expiry, topics)) :
    expiry.toNat = timeout.nanos ⌈/⌉ 1000000000 := by
  obtain ⟨expiry', hexpiry, h⟩ := exists_of_bind h
  obtain ⟨_, -, h⟩ := exists_of_bind h
  obtain ⟨topics', -, h⟩ := exists_of_bind h
  cases h
  exact toNat_expiryInterval hexpiry

theorem accept_cases (c : Channel V) (timeout : Duration) (userData : UserProperties)
    (tokens : TokenMap) :
    (∃ e, c.accept timeout userData tokens = .error e ∧ e.IsArgument ∧
        c.Rejects timeout userData tokens) ∨
      ∃ expiry topics, c.accept timeout userData tokens = .ok (expiry, topics) ∧
        ¬c.Rejects timeout userData tokens ∧
        expiry.toNat = timeout.nanos ⌈/⌉ 1000000000 := by
  have hchecks := c.checks_accept timeout userData tokens
  cases h : c.accept timeout userData tokens with
  | error e => exact .inl ⟨e, rfl, hchecks.isArgument e h, hchecks.iff.mp ⟨e, h⟩⟩
  | ok accepted =>
    refine .inr ⟨accepted.1, accepted.2, rfl, fun hbad => ?_, toNat_of_accept h⟩
    obtain ⟨e, he⟩ := hchecks.iff.mpr hbad
    rw [h] at he
    cases he

end Channel

namespace Router

variable {r r' : Router} {c : Client} {filter : String} {n n' : Network} {p p' : Ensuring}

def Ensuring.SparesArguments : Ensuring → Prop
  | .done result => CommandBus.SparesArguments result
  | _ => True

theorem sparesArguments_of_stepEnsure? {started : Option Nat}
    (h : r.stepEnsure? c filter n p = some (p', r', n', started)) : p'.SparesArguments := by
  cases p with
  | locking =>
    simp only [stepEnsure?] at h
    split at h
    · cases h
    split at h
    · cases h
      exact .ok ()
    split at h <;> cases h
    · exact .error id
    · exact trivial
  | subscribing =>
    simp only [stepEnsure?] at h
    split at h
    · cases h
      exact .error id
    · split at h <;> cases h
      · exact trivial
      · exact .error id
  | opening =>
    simp only [stepEnsure?] at h
    split at h <;> cases h
    · exact .error id
    · exact trivial
  | recording route =>
    cases h
    exact .ok ()
  | done => cases h

theorem sparesArguments_register (r : Router) (id : Bytes) (topic : String) :
    SparesArguments (r.register id topic) := by
  unfold register
  split
  · exact .error fun h => h
  · exact .ok _

end Router

namespace InvokerState

variable {V : Type} {s s' : InvokerState} {c : Channel V}

theorem sparesArguments_send (s : InvokerState) (c : Channel V) (o : Outgoing) :
    SparesArguments (s.send c o).1 := by
  unfold send
  split
  next e _ _ => exact .error (ProtocolError.not_isArgument_ofClock e)
  next =>
    dsimp only
    unfold Channel.published
    split
    · exact .error id
    · split
      · exact .ok ()
      · exact .error id

theorem Receives.sparesArguments {result : Except ProtocolError Message} {id : Bytes}
    {isCancelled : Bool} (h : s.Receives id isCancelled result s') : SparesArguments result := by
  cases h with
  | response => exact .ok _
  | shutDown | cancelled => exact .error fun h => h

end InvokerState

namespace Response

theorem sparesArguments_checkVersion (p : ProtocolProperties) :
    SparesArguments (checkVersion p) := by
  unfold checkVersion
  extract_lets rest
  have hrest (version : ProtocolVersion) : SparesArguments (rest version) := by
    dsimp only [rest]
    split
    · exact .ok _
    · exact .error id
  split
  · exact .bind (.ok _) hrest
  split
  · exact .bind (.ok _) hrest
  · exact .error id

theorem sparesArguments_readStatus (p : ProtocolProperties) : SparesArguments (readStatus p) := by
  unfold readStatus
  split
  · exact .error id
  split
  · split
    · exact .ok _
    · exact .error (ProtocolError.not_isArgument_statusError _ p)
  · exact .error id
  · exact .error id

theorem sparesArguments_observeTimestamp (p : ProtocolProperties) (clock : Clock) (wall : Int) :
    SparesArguments (observeTimestamp p clock wall).1 := by
  unfold observeTimestamp
  split
  · exact .ok _
  split
  · exact .error (ProtocolError.not_isArgument_ofClock _)
  · dsimp only
    split
    · exact .ok _
    · exact .error (ProtocolError.not_isArgument_ofClock _)

theorem sparesArguments_decode {V : Type} (codec : Codec V) (status : Status) (m : Message) :
    SparesArguments (decode codec status m) := by
  unfold decode
  extract_lets rest
  have hrest : SparesArguments (rest ()) := by
    dsimp only [rest]
    split
    · exact .error id
    split
    · exact .ok _
    · exact .error id
    · exact .error id
  split
  · exact .error id
  · exact hrest

theorem sparesArguments_read {V : Type} (codec : Codec V) (m : Message) (clock : Clock)
    (wall : Int) : SparesArguments (read codec m clock wall).1 := by
  unfold read
  extract_lets p
  split
  next h => exact .error (sparesArguments_checkVersion p _ h)
  next h => exact .error (sparesArguments_readStatus p _ h)
  next =>
    split
    next h =>
      exact .error (sparesArguments_observeTimestamp p clock wall _ (congrArg Prod.fst h))
    next => exact (sparesArguments_decode codec _ m).map _

end Response

namespace Call

variable {V : Type} {c : Channel V} {call call' : Call V} {s s' : InvokerState}

theorem prepare_eq (c : Channel V) (r : InvokeRequest V) (id : Bytes) :
    prepare c r id = (do
      let (expiry, topic, responseTopic) ← c.accept r.timeout r.userData r.tokens
      let body ← c.encode r.payload
      return { topic, responseTopic, correlationId := id, body, userProperties := r.userData,
               expiry }) := by
  simp only [prepare, Channel.accept, bind_assoc, pure_bind]

theorem prepare_cases (c : Channel V) (r : InvokeRequest V) (id : Bytes) :
    (∃ e, prepare c r id = .error e ∧
        (e.IsArgument ↔ c.Rejects r.timeout r.userData r.tokens)) ∨
      ∃ o, prepare c r id = .ok o ∧ ¬c.Rejects r.timeout r.userData r.tokens ∧
        o.expiry.toNat = r.timeout.nanos ⌈/⌉ 1000000000 := by
  rw [prepare_eq]
  obtain ⟨e, h, he, hbad⟩ | ⟨expiry, topics, h, hgood, hexpiry⟩ :=
    c.accept_cases r.timeout r.userData r.tokens
  · rw [h]
    exact .inl ⟨e, rfl, iff_of_true he hbad⟩
  · rw [h]
    have hencode := c.sparesArguments_encode r.payload
    cases hbody : c.encode r.payload with
    | error e => exact .inl ⟨e, rfl, iff_of_false (hencode e hbody) hgood⟩
    | ok body => exact .inr ⟨_, rfl, hgood, hexpiry⟩

namespace Phase

variable {p p' : Phase V}

def IsRejected : Phase V → Prop
  | .finished _ (.error e) => e.IsArgument
  | _ => False

def outgoing? : Phase V → Option Outgoing
  | .subscribing o _ | .sending o => some o
  | _ => none

def SparesArguments : Phase V → Prop
  | .subscribing _ step => step.SparesArguments
  | _ => True

structure Leads (p p' : Phase V) : Prop where
  ne_preparing : p' ≠ .preparing
  not_isRejected : ¬p'.IsRejected
  sparesArguments : p'.SparesArguments
  outgoing? : ∀ o, p'.outgoing? = some o → p.outgoing? = some o

theorem Leads.finished (p : Phase V) {result : Except ProtocolError (Response V)}
    (h : CommandBus.SparesArguments result) (time : Nat) (name : String) :
    p.Leads (.finished time (result.mapError (·.withCommand name))) where
  ne_preparing h := by cases h
  not_isRejected := by
    cases result with
    | error e => exact h e rfl
    | ok => exact id
  sparesArguments := trivial
  outgoing? _ h := by cases h

end Phase

theorem enroll_leads {o : Outgoing} {result : Except ProtocolError Unit}
    (hphase : call.phase = .subscribing o (.done result)) (h : SparesArguments result) :
    ∃ phase, (call.enroll c s o result).1 = { call with phase } ∧ call.phase.Leads phase := by
  have hregister : SparesArguments (result.bind fun _ =>
      s.router.register o.correlationId o.responseTopic) :=
    .bind h fun _ => s.router.sparesArguments_register _ _
  unfold enroll
  rw [hphase]
  split
  next e he => exact ⟨_, rfl, .finished _ (.error (hregister e he)) ..⟩
  next => exact ⟨_, rfl, by simp, id, trivial, fun _ ho => ho⟩

theorem transmit_leads (c : Channel V) (call : Call V) (s : InvokerState) (o : Outgoing) :
    ∃ phase, (call.transmit c s o).1 = { call with phase } ∧ call.phase.Leads phase := by
  have hsend := s.sparesArguments_send c o
  unfold transmit
  split
  next e _ hfailed => exact ⟨_, rfl, .finished _ (.error (hsend e (congrArg Prod.fst hfailed))) ..⟩
  next => exact ⟨_, rfl, by simp, id, trivial, by simp [Phase.outgoing?]⟩

inductive Acts (c : Channel V) (call : Call V) (s : InvokerState) : Call V → InvokerState → Prop
  | begun (h : call.phase = .preparing) : Acts c call s (call.begin c s).1 (call.begin c s).2
  | ensured {o : Outgoing} {step step' : Router.Ensuring} {router : Router} {network : Network}
    {started : Option Nat} (h : call.phase = .subscribing o step)
    (he : s.router.stepEnsure? c.client c.responseFilter s.network step =
      some (step', router, network, started)) :
    Acts c call s { call with phase := .subscribing o step' } { s with router, network }
  | enrolled {o : Outgoing} {result : Except ProtocolError Unit}
    (h : call.phase = .subscribing o (.done result)) :
    Acts c call s (call.enroll c s o result).1 (call.enroll c s o result).2
  | transmitted {o : Outgoing} (h : call.phase = .sending o) :
    Acts c call s (call.transmit c s o).1 (call.transmit c s o).2
  | answered {id : Bytes} {m : Message} {s' : InvokerState} (h : call.phase = .receiving id)
    (hr : s.Receives id call.isCancelled (.ok m) s') :
    Acts c call s (call.finish c (s'.read c m).2 (s'.read c m).1) ((s'.read c m).2.deregister id)
  | interrupted {id : Bytes} {e : ProtocolError} {s' : InvokerState}
    (h : call.phase = .receiving id) (hr : s.Receives id call.isCancelled (.error e) s') :
    Acts c call s (call.finish c s' (.error e)) (s'.deregister id)
  | expired (h : call.deadline?.isSome = true) (hdue : call.isDue s = true) :
    Acts c call s
      (call.finish c s (.error (.timeout "command" (some call.request.timeout)))) (call.leave s)

theorem acts_of_expire? (hd : call.deadline? = call.deadline)
    (h : call.expire? c s = some (call', s')) : call.Acts c s call' s' := by
  unfold expire? at h
  split at h <;> cases h
  next hdue =>
    refine .expired ?_ hdue
    rw [hd]
    cases hdeadline : call.deadline with
    | none =>
      rw [isDue, hdeadline] at hdue
      cases hdue
    | some => rfl

theorem acts_of_step? {started : Option Nat} (h : call.step? c s = some (call', s', started)) :
    call.Acts c s call' s' := by
  unfold step? at h
  split at h
  next hphase =>
    cases h
    exact .begun hphase
  next o result hphase =>
    cases h
    exact .enrolled hphase
  next o step _ hphase =>
    split at h
    next he =>
      cases h
      exact .ensured hphase he
    next =>
      obtain ⟨_, hdue, heq⟩ := Option.map_eq_some_iff.mp h
      cases heq
      exact acts_of_expire? (by rw [deadline?, hphase]) hdue
  next o hphase =>
    cases h
    exact .transmitted hphase
  next id hphase =>
    split at h
    next hreceive =>
      cases h
      exact .answered hphase (InvokerState.receives_of_receive? hreceive)
    next hreceive =>
      cases h
      exact .interrupted hphase (InvokerState.receives_of_receive? hreceive)
    next =>
      obtain ⟨_, hdue, heq⟩ := Option.map_eq_some_iff.mp h
      cases heq
      exact acts_of_expire? (by rw [deadline?, hphase]) hdue
  next => cases h

theorem Acts.cases (hspares : call.phase.SparesArguments) (h : call.Acts c s call' s') :
    call.phase = .preparing ∧ call' = (call.begin c s).1 ∧ s' = (call.begin c s).2 ∨
      call.phase ≠ .preparing ∧ ∃ phase, call' = { call with phase } ∧ call.phase.Leads phase := by
  cases h with
  | begun hphase => exact .inl ⟨hphase, rfl, rfl⟩
  | ensured hphase he =>
    refine .inr ⟨by simp [hphase], _, rfl, ?_⟩
    rw [hphase]
    exact ⟨by simp, id, Router.sparesArguments_of_stepEnsure? he, fun _ ho => ho⟩
  | enrolled hphase =>
    rw [hphase] at hspares
    exact .inr ⟨by simp [hphase], enroll_leads hphase hspares⟩
  | @transmitted o hphase => exact .inr ⟨by simp [hphase], transmit_leads c call s o⟩
  | @answered id m s₁ hphase =>
    have hread := Response.sparesArguments_read c.responseCodec m s₁.clock s₁.wall
    exact .inr ⟨by simp [hphase], _, rfl, .finished _ hread ..⟩
  | interrupted hphase hr =>
    have hspared := hr.sparesArguments _ rfl
    exact .inr ⟨by simp [hphase], _, rfl, .finished _ (.error hspared) ..⟩
  | expired hwaits =>
    refine .inr ⟨fun hphase => ?_, _, rfl, .finished _ (.error id) ..⟩
    rw [deadline?, hphase] at hwaits
    cases hwaits

theorem not_acts_of_isRejected (h : call.phase.IsRejected) : ¬call.Acts c s call' s' := by
  intro ha
  unfold Phase.IsRejected at h
  split at h
  next hfinished =>
    cases ha with
    | begun hphase | ensured hphase | enrolled hphase | transmitted hphase | answered hphase
    | interrupted hphase =>
      rw [hfinished] at hphase
      cases hphase
    | expired hwaits =>
      rw [deadline?, hfinished] at hwaits
      cases hwaits
  next => exact h

/-- The first step: the arguments have been checked, and nothing else has been done. -/
structure Checked (c : Channel V) (call : Call V) (s : InvokerState) (call' : Call V)
    (s' : InvokerState) : Prop where
  untouched : s.Untouched s'
  request_eq : call'.request = call.request
  ne_preparing : call'.phase ≠ .preparing
  isRejected_iff : call'.phase.IsRejected ↔
    c.Rejects call.request.timeout call.request.userData call.request.tokens
  sparesArguments : call'.phase.SparesArguments
  expiry : ∀ o, call'.phase.outgoing? = some o →
    o.expiry.toNat = call.request.timeout.nanos ⌈/⌉ 1000000000

theorem checked_begin (c : Channel V) (call : Call V) (s : InvokerState) :
    Checked c call s (call.begin c s).1 (call.begin c s).2 := by
  have huntouched : s.Untouched { s with network := s.network.freshId.2 } := ⟨_, rfl⟩
  unfold begin
  dsimp only
  obtain ⟨e, h, he⟩ | ⟨o, h, hgood, hexpiry⟩ := prepare_cases c call.request s.network.freshId.1
  · rw [h]
    exact {
      untouched := huntouched
      request_eq := rfl
      ne_preparing := by simp [finish]
      isRejected_iff := he
      sparesArguments := trivial
      expiry := by simp [finish, Phase.outgoing?] }
  · rw [h]
    exact {
      untouched := huntouched
      request_eq := rfl
      ne_preparing := by simp
      isRejected_iff := iff_of_false id hgood
      sparesArguments := trivial
      expiry := by simpa [Phase.outgoing?] using hexpiry }

def handed? (c : Channel V) (call : Call V) (s : InvokerState) : Option Message :=
  match call.phase with
  | .sending o => s.handed? c o
  | _ => none

/-- Of the network, a step of a call changes at most what publishing exactly this message
changes. -/
theorem Acts.transmits (h : call.Acts c s call' s') :
    s.Transmits c (call.handed? c s) s' := by
  cases h with
  | begun hphase =>
    rw [handed?, hphase]
    refine .takenId ?_
    unfold begin
    dsimp only
    split <;> rfl
  | ensured hphase he =>
    rw [handed?, hphase]
    exact .subscription he
  | enrolled hphase =>
    rw [handed?, hphase]
    refine .nothing ?_
    unfold enroll
    split <;> rfl
  | @transmitted o hphase =>
    have hsent := s.transmits_send c o
    rw [handed?, hphase, transmit]
    dsimp only
    generalize s.send c o = result at hsent
    obtain ⟨_ | _, s₁⟩ := result
    · exact hsent.congr rfl
    · exact hsent
  | answered hphase hr =>
    rw [handed?, hphase]
    cases hr
    exact .nothing rfl
  | interrupted hphase hr =>
    rw [handed?, hphase]
    cases hr <;> exact .nothing rfl
  | expired hwaits =>
    cases hphase : call.phase with
    | subscribing | receiving =>
      rw [handed?, leave, hphase]
      exact .nothing rfl
    | preparing | sending | finished =>
      rw [deadline?, hphase] at hwaits
      cases hwaits

structure Record (V : Type) where
  call : Call V
  state : InvokerState
  steps : List InvokerState.Move := []

namespace Record

variable {r r' : Record V} {request : InvokeRequest V} {call : Call V} {state : InvokerState}

def start (request : InvokeRequest V) (state : InvokerState) : Record V where
  call := { request }
  state

def act (r : Record V) (call : Call V) (state : InvokerState) (sent : Option Message) :
    Record V where
  call
  state
  steps := r.steps ++ [⟨r.state, sent, state⟩]

/-- What may happen to a call. All that its invoker works with may change at any time. -/
inductive Step (c : Channel V) (r : Record V) : Record V → Prop
  | act {call : Call V} {state : InvokerState} (h : r.call.Acts c r.state call state) :
    Step c r (r.act call state (r.call.handed? c r.state))
  | cancel : Step c r { r with call := { r.call with isCancelled := true } }
  | elsewhere (state : InvokerState) : Step c r { r with state }

def Run (c : Channel V) : Record V → Record V → Prop :=
  Relation.ReflTransGen (Step c)

structure Screened (c : Channel V) (request : InvokeRequest V) (r : Record V) : Prop where
  request_eq : r.call.request = request
  steps_eq_nil_iff : r.steps = [] ↔ r.call.phase = .preparing
  isRejected_iff : r.call.phase ≠ .preparing → (r.call.phase.IsRejected ↔
    c.Rejects request.timeout request.userData request.tokens)
  leavesNoTrace : r.call.phase = .preparing ∨ r.call.phase.IsRejected →
    LeaveNoTrace r.steps
  sparesArguments : r.call.phase.SparesArguments
  expiry : ∀ o, r.call.phase.outgoing? = some o →
    o.expiry.toNat = request.timeout.nanos ⌈/⌉ 1000000000
  isInTime : ∀ m ∈ r.steps, m.IsInTime c request.timeout

theorem Screened.start (c : Channel V) (request : InvokeRequest V) (state : InvokerState) :
    Screened c request (start request state) where
  request_eq := rfl
  steps_eq_nil_iff := iff_of_true rfl rfl
  isRejected_iff h := absurd rfl h
  leavesNoTrace _ := List.forall_mem_nil _
  sparesArguments := trivial
  expiry _ h := by cases h
  isInTime := List.forall_mem_nil _

theorem Screened.checked (h : Screened c request r) (hphase : r.call.phase = .preparing)
    (hc : Checked c r.call r.state call state)
    (hsent : r.state.Transmits c none state) : Screened c request (r.act call state none) := by
  have hrequest := h.request_eq
  exact {
    request_eq := hc.request_eq.trans hrequest
    steps_eq_nil_iff := iff_of_false (by simp [act]) hc.ne_preparing
    isRejected_iff := fun _ => hrequest ▸ hc.isRejected_iff
    leavesNoTrace := fun _ => (h.leavesNoTrace (.inl hphase)).append hc.untouched
    sparesArguments := hc.sparesArguments
    expiry := hrequest ▸ hc.expiry
    isInTime := List.forall_mem_append.mpr
      ⟨h.isInTime, List.forall_mem_singleton.mpr ⟨hsent, fun _ hm => by cases hm⟩⟩ }

theorem Screened.goOn (h : Screened c request r) (hne : r.call.phase ≠ .preparing)
    (hnot : ¬r.call.phase.IsRejected) {phase : Phase V} (hl : r.call.phase.Leads phase)
    (hsent : r.state.Transmits c (r.call.handed? c r.state) state) : Screened c request
      (r.act { r.call with phase } state (r.call.handed? c r.state)) where
  request_eq := h.request_eq
  steps_eq_nil_iff := iff_of_false (by simp [act]) hl.ne_preparing
  isRejected_iff _ := iff_of_false hl.not_isRejected fun hbad =>
    hnot ((h.isRejected_iff hne).mpr hbad)
  leavesNoTrace hor := (hor.elim hl.ne_preparing hl.not_isRejected).elim
  sparesArguments := hl.sparesArguments
  expiry o ho := h.expiry o (hl.outgoing? o ho)
  isInTime := by
    refine List.forall_mem_append.mpr
      ⟨h.isInTime, List.forall_mem_singleton.mpr ⟨hsent, fun m hm => ?_⟩⟩
    dsimp only at hm
    unfold handed? at hm
    split at hm
    next o hphase =>
      exact InvokerState.expiresAfter_of_handed? (h.expiry o (by rw [hphase]; rfl)) hm
    next => cases hm

theorem Screened.step (h : Screened c request r) (hstep : Step c r r') :
    Screened c request r' := by
  cases hstep with
  | cancel | elsewhere => exact { h with }
  | act hact =>
    have hsent := hact.transmits
    obtain ⟨hphase, rfl, rfl⟩ | ⟨hphase, phase, rfl, hl⟩ := hact.cases h.sparesArguments
    · have hhanded : r.call.handed? c r.state = none := by rw [handed?, hphase]
      rw [hhanded] at hsent ⊢
      exact h.checked hphase (checked_begin c r.call r.state) hsent
    · exact h.goOn hphase (fun hrejected => not_acts_of_isRejected hrejected hact) hl hsent

theorem Screened.run (hrun : Run c (.start request state) r) : Screened c request r := by
  induction hrun with
  | refl => exact .start c request state
  | tail _ hstep ih => exact ih.step hstep

end Record

end Call

end CommandBus
