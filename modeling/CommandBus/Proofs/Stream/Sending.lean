import CommandBus.Proofs.Invoker.Outcomes
import CommandBus.Stream.Sender
import Mathlib

namespace CommandBus

namespace UserProperties

def values (properties : UserProperties) (key : String) : List String :=
  (properties.filter (·.1 == key)).map Prod.snd

variable {l : UserProperties}

theorem values_append (l l' : UserProperties) (key : String) :
    (l ++ l' : UserProperties).values key = l.values key ++ l'.values key := by
  rw [values, List.filter_append, List.map_append, values, values]

theorem values_of_custom (h : ∀ p ∈ l, isReserved p.1 = false) (property : Property) :
    l.values property.key = [] := by
  have hreserved : isReserved property.key = true := by cases property <;> rfl
  refine List.map_eq_nil_iff.mpr (List.filter_eq_nil_iff.mpr fun p hp hkey => ?_)
  have hcustom := h p hp
  rw [eq_of_beq hkey, hreserved] at hcustom
  cases hcustom

end UserProperties

def Message.marks (m : Message) : List String :=
  m.userProperties.values Property.isLast.key

def Message.numbers (m : Message) : List String :=
  m.userProperties.values Property.streamIndex.key

namespace InvokerState

variable {V : Type} {c : Channel V} {s s' : InvokerState} {o : Outgoing} {m : Message}

/-- The message that is handed to the client for a request, if the request can be stamped. -/
def handed? (s : InvokerState) (c : Channel V) (o : Outgoing) : Option Message :=
  (s.clock.stamp s.wall).1.toOption.map (c.message o)

theorem router_send (s : InvokerState) (c : Channel V) (o : Outgoing) :
    (s.send c o).2.router = s.router := by
  unfold send
  split <;> rfl

/-- What a step of an invocation does to its network: it publishes exactly this message, or it
publishes none and at most takes an id or goes on with the subscription to its responses. -/
inductive Transmits (c : Channel V) (s : InvokerState) : Option Message → InvokerState → Prop
  | message {m : Message} {s' : InvokerState}
    (h : s'.network = (s.network.publish c.client m).2) : Transmits c s (some m) s'
  | nothing {s' : InvokerState} (h : s'.network = s.network) : Transmits c s none s'
  | takenId {s' : InvokerState} (h : s'.network = s.network.freshId.2) : Transmits c s none s'
  | subscription {s' : InvokerState} {step step' : Router.Ensuring} {router : Router}
    {started : Option Nat} (h : s.router.stepEnsure? c.client c.responseFilter s.network step =
      some (step', router, s'.network, started)) : Transmits c s none s'

theorem Transmits.congr {sent : Option Message} {s'' : InvokerState} (h : s.Transmits c sent s')
    (hnetwork : s''.network = s'.network) : s.Transmits c sent s'' := by
  cases h with
  | message h => exact .message (hnetwork.trans h)
  | nothing h => exact .nothing (hnetwork.trans h)
  | takenId h => exact .takenId (hnetwork.trans h)
  | subscription h => exact .subscription (hnetwork ▸ h)

/-- A step of an invocation: what its invoker works with before and after it, and the message that
is handed to the client. -/
structure Move where
  before : InvokerState
  sent : Option Message
  after : InvokerState

theorem transmits_send (s : InvokerState) (c : Channel V) (o : Outgoing) :
    s.Transmits c (s.handed? c o) (s.send c o).2 := by
  unfold send handed?
  split
  next e clock hstamp =>
    rw [hstamp]
    exact .nothing rfl
  next stamp clock hstamp =>
    rw [hstamp]
    exact .message rfl

/-- A request is stamped, and the message made of it is accepted when it is published. -/
def Publishes (s : InvokerState) (c : Channel V) (o : Outgoing) (m : Message) : Prop :=
  ∃ stamp clock code, s.clock.stamp s.wall = (.ok stamp, clock) ∧ m = c.message o stamp ∧
    (s.network.publish c.client m).1 = .ok code ∧ code.isSuccess = true

theorem handed?_of_publishes (h : s.Publishes c o m) : s.handed? c o = some m := by
  obtain ⟨stamp, clock, code, hstamp, rfl, -, -⟩ := h
  rw [handed?, hstamp]
  rfl

theorem send_of_publishes (h : s.Publishes c o m) : (s.send c o).1 = .ok () := by
  obtain ⟨stamp, clock, code, hstamp, rfl, hpublish, hsuccess⟩ := h
  simp only [send, hstamp, hpublish, Channel.published, hsuccess, if_true]

end InvokerState

/-- Requests under one correlation id, numbered from 0 on, with these payloads. -/
structure Requests (id : Bytes) (payloads : List Bytes) (published : List Message) : Prop where
  correlationData_eq : ∀ m ∈ published, m.correlationData = some id
  numbers_eq : published.map Message.numbers =
    (List.range published.length).map fun i => [toString i]
  payload_eq : published.map Message.payload = payloads

namespace Requests

variable {id : Bytes} {payloads : List Bytes} {published : List Message} {m : Message}

theorem nil (id : Bytes) : Requests id [] [] :=
  ⟨List.forall_mem_nil _, rfl, rfl⟩

theorem length_eq (h : Requests id payloads published) : published.length = payloads.length := by
  rw [← h.payload_eq, List.length_map]

theorem append (h : Requests id payloads published) (hid : m.correlationData = some id)
    (hnumbers : m.numbers = [toString published.length]) :
    Requests id (payloads ++ [m.payload]) (published ++ [m]) where
  correlationData_eq := List.forall_mem_append.mpr
    ⟨h.correlationData_eq, List.forall_mem_singleton.mpr hid⟩
  numbers_eq := by
    rw [List.map_append, h.numbers_eq, List.length_append, List.length_singleton, List.range_succ,
      List.map_append, List.map_singleton, List.map_singleton, hnumbers]
  payload_eq := by rw [List.map_append, h.payload_eq, List.map_singleton]

end Requests

/-- What the sender knows of the end once it has taken the next payload, if there is one. -/
def StreamInput.knowsEnd {V : Type} (input : StreamInput V) (before : Bool) : Bool :=
  match input.payloads with
  | [] => before
  | _ :: rest => rest.isEmpty && input.isClosed

namespace Sender

variable {V : Type} {c : Channel V} {s s' : InvokerState} {t t' : Sender}
  {input input' : StreamInput V} {body : Serialized} {m : Message} {index : Nat}
  {isLast isCancelled : Bool}

def outgoing (t : Sender) (index : Nat) (body : Serialized) (isLast : Bool) : Outgoing :=
  t.route.outgoing body (properties t.userData index isLast)

def handed? (c : Channel V) (t : Sender) (s : InvokerState) : Option Message :=
  match t.phase with
  | .sending index body isLast => s.handed? c (t.outgoing index body isLast)
  | _ => none

theorem frame_of_step? (h : t.step? c isCancelled input s = some (t', input', s')) :
    t'.route = t.route ∧ s'.router = s.router := by
  unfold step? at h
  split at h
  · split at h
    · cases h
      exact ⟨rfl, rfl⟩
    split at h <;> cases h <;> exact ⟨rfl, rfl⟩
  next index body isLast _ =>
    have hrouter := s.router_send c (t.route.outgoing body (properties t.userData index isLast))
    generalize s.send c (t.route.outgoing body (properties t.userData index isLast)) = result
      at h hrouter
    obtain ⟨_ | _, s₁⟩ := result
    · cases h
      exact ⟨rfl, hrouter⟩
    · dsimp only at h
      split at h <;> cases h <;> exact ⟨rfl, hrouter⟩
  · cases h

theorem transmits_of_step? (h : t.step? c isCancelled input s = some (t', input', s')) :
    s.Transmits c (t.handed? c s) s' := by
  unfold step? at h
  split at h
  next index hphase =>
    rw [handed?, hphase]
    split at h
    · cases h
      exact .nothing rfl
    split at h <;> cases h <;> exact .nothing rfl
  next index body isLast hphase =>
    have hsent := s.transmits_send c (t.outgoing index body isLast)
    rw [handed?, hphase]
    rw [outgoing] at hsent
    generalize s.send c (t.route.outgoing body (properties t.userData index isLast)) = result
      at h hsent
    obtain ⟨_ | _, s₁⟩ := result
    · cases h
      exact hsent
    · dsimp only at h
      split at h <;> cases h <;> exact hsent
  · cases h

theorem step?_of_isFinished (h : t.isFinished = true) : t.step? c isCancelled input s = none := by
  unfold isFinished at h
  split at h
  next hphase => rw [step?, hphase]
  next => cases h

theorem values_message (h : ∀ p ∈ t.userData, UserProperties.isReserved p.1 = false)
    (stamp : String) (property : Property) :
    (c.message (t.outgoing index body isLast) stamp).userProperties.values property.key =
      (properties [] index isLast ++ [(Property.sourceId.key, c.clientId),
        (Property.timestamp.key, stamp),
        (Property.protocolVersion.key, ProtocolVersion.current.text)]).values property.key := by
  have hproperties : properties t.userData index isLast =
      t.userData ++ properties [] index isLast := rfl
  rw [Channel.message, outgoing, StreamRoute.outgoing, hproperties, List.append_assoc,
    UserProperties.values_append, UserProperties.values_of_custom h, List.nil_append]

theorem numbers_message (h : ∀ p ∈ t.userData, UserProperties.isReserved p.1 = false)
    (stamp : String) :
    (c.message (t.outgoing index body isLast) stamp).numbers = [toString index] := by
  rw [Message.numbers, values_message h]
  cases isLast <;> rfl

theorem marks_message (h : ∀ p ∈ t.userData, UserProperties.isReserved p.1 = false)
    (stamp : String) :
    (c.message (t.outgoing index body isLast) stamp).marks = if isLast then ["true"] else [] := by
  rw [Message.marks, values_message h]
  cases isLast <;> rfl

theorem requests_append {payloads : List Bytes} {published : List Message}
    (h : Requests t.route.correlationId payloads published)
    (hcustom : ∀ p ∈ t.userData, UserProperties.isReserved p.1 = false)
    (hindex : index = payloads.length)
    (hpublished : s.Publishes c (t.outgoing index body isLast) m) :
    Requests t.route.correlationId (payloads ++ [body.payload]) (published ++ [m]) ∧
      m.marks = if isLast then ["true"] else [] := by
  obtain ⟨stamp, clock, code, -, rfl, -, -⟩ := hpublished
  have hnumbers : (c.message (t.outgoing index body isLast) stamp).numbers =
      [toString published.length] := by
    rw [numbers_message hcustom, hindex, h.length_eq]
  exact ⟨h.append rfl hnumbers, marks_message hcustom stamp⟩

theorem step?_sending (input : StreamInput V) (hphase : t.phase = .sending index body isLast)
    (hpublished : s.Publishes c (t.outgoing index body isLast) m) :
    ∃ s', t.step? c false input s = some
      (if isLast then ((t.finish (.ok ()) input).1, (t.finish (.ok ()) input).2, s')
      else ({ t with phase := .taking (index + 1) }, input, s')) := by
  have hsend := InvokerState.send_of_publishes hpublished
  rw [outgoing] at hsend
  generalize hresult : s.send c (t.route.outgoing body (properties t.userData index isLast)) =
    result at hsend
  obtain ⟨outcome, s'⟩ := result
  obtain rfl : outcome = .ok () := hsend
  refine ⟨s', ?_⟩
  simp only [step?, hphase, hresult]
  cases isLast <;> rfl

theorem step?_taking {payload : V} {rest : List V} (hphase : t.phase = .taking index)
    (hpayloads : input.payloads = payload :: rest) (hencode : c.encode payload = .ok body) :
    t.step? c false input s = some
      ({ t with phase := .sending index body (rest.isEmpty && input.isClosed) },
        { input with payloads := rest }, s) := by
  simp [step?, hphase, next?, hpayloads, hencode, Except.map]

theorem step?_taking_end (hphase : t.phase = .taking index) (hpayloads : input.payloads = [])
    (hclosed : input.isClosed = true) :
    t.step? c false input s =
      some ({ t with phase := .sending index .empty true }, input, s) := by
  simp [step?, hphase, next?, hpayloads, hclosed]

theorem step?_waiting (hphase : t.phase = .taking index) (hpayloads : input.payloads = [])
    (hopen : input.isClosed = false) : t.step? c false input s = none := by
  simp [step?, hphase, next?, hpayloads, hopen]

theorem isSome_step? (hclosed : input.isClosed = true) (hrunning : t.isFinished = false) :
    (t.step? c false input s).isSome = true := by
  cases hphase : t.phase with
  | taking index =>
    simp only [step?, hphase, next?, hclosed, Bool.false_eq_true, if_false, if_true]
    cases input.payloads with
    | nil => rfl
    | cons payload rest =>
      dsimp only
      cases c.encode payload with
      | error e => rfl
      | ok body => rfl
  | sending index body isLast =>
    simp only [step?, hphase]
    split
    · rfl
    · split <;> rfl
  | finished result =>
    rw [isFinished, hphase] at hrunning
    cases hrunning

/-- The steps that the sender takes at most if nothing more is put into its input. -/
def effort (t : Sender) (input : StreamInput V) : Nat :=
  match t.phase with
  | .taking _ => 2 * input.payloads.length + 2
  | .sending _ _ isLast => if isLast then 1 else 2 * input.payloads.length + 3
  | .finished _ => 0

structure Log (V : Type) where
  /-- All payloads that were put into the input. -/
  inputs : List V := []
  published : List Message := []
  /-- The end of the input was known when the latest payload was taken out. -/
  endKnown : Bool := false

variable {body : V → Serialized} {log : Log V}

/-- Requests have been published for these payloads, and none of them is marked last. -/
structure HasSent (body : V → Serialized) (log : Log V) (t : Sender) (sent : List V) : Prop where
  unmarked : ∀ m ∈ log.published, m.marks = []
  requests :
    Requests t.route.correlationId (sent.map fun p => (body p).payload) log.published

/-- How far the requests have come: what was put in has been sent, is being sent or still waits. -/
inductive Progress (body : V → Serialized) (log : Log V) (input : StreamInput V) (t : Sender) :
    Prop
  | taking (sent : List V) (hsent : HasSent body log t sent)
      (hphase : t.phase = .taking sent.length) (hknown : log.endKnown = false)
      (hinputs : log.inputs = sent ++ input.payloads)
  | sending (sent : List V) (hsent : HasSent body log t sent) (payload : V)
      (hphase : t.phase = .sending sent.length (body payload) log.endKnown)
      (hinputs : log.inputs = sent ++ payload :: input.payloads)
      (hend : log.endKnown = true → input.payloads = [] ∧ input.isClosed = true)
  | announcing (hsent : HasSent body log t log.inputs)
      (hphase : t.phase = .sending log.inputs.length .empty true) (hknown : log.endKnown = false)
      (hempty : input.payloads = []) (hclosed : input.isClosed = true)
  | finished (hphase : t.phase = .finished (.ok ())) (hclosed : input.isClosed = true)
      (hmarked : ∃ earlier last, log.published = earlier ++ [last] ∧
        (∀ m ∈ earlier, m.marks = []) ∧ last.marks = ["true"])
      (hrequests : Requests t.route.correlationId
        ((log.inputs.map fun p => (body p).payload) ++ if log.endKnown then [] else [[]])
        log.published)

namespace Progress

variable {t' : Sender} {input' : StreamInput V} {index : Nat} {b : Serialized} {isLast : Bool}
  {m : Message}

theorem take (h : Progress body log input t) (hphase : t.phase = .taking index)
    (hencodes : ∀ p ∈ log.inputs, c.encode p = .ok (body p))
    (hstep : t.step? c false input s = some (t', input', s')) :
    Progress body { log with endKnown := input.knowsEnd log.endKnown } input' t' ∧
      t'.effort input' < t.effort input ∧ t'.userData = t.userData := by
  cases h with
  | taking sent hsent hphase' hknown hinputs =>
    cases hpayloads : input.payloads with
    | nil =>
      rw [hpayloads, List.append_nil] at hinputs
      cases hclosed : input.isClosed with
      | false =>
        rw [step?_waiting hphase hpayloads hclosed] at hstep
        cases hstep
      | true =>
        rw [step?_taking_end hphase' hpayloads hclosed] at hstep
        cases hstep
        have hknows : input.knowsEnd log.endKnown = false := by
          rw [StreamInput.knowsEnd, hpayloads, hknown]
        refine ⟨.announcing ?_ ?_ hknows hpayloads hclosed, ?_, rfl⟩
        · rw [hinputs]
          exact { hsent with }
        · rw [hinputs]
        · simp [effort, hphase, hpayloads]
    | cons payload rest =>
      have hencode := hencodes payload (by simp [hinputs, hpayloads])
      rw [step?_taking hphase' hpayloads hencode] at hstep
      cases hstep
      have hknows : input.knowsEnd log.endKnown = (rest.isEmpty && input.isClosed) := by
        rw [StreamInput.knowsEnd, hpayloads]
      refine ⟨.sending sent { hsent with } payload ?_ ?_ ?_, ?_, rfl⟩
      · rw [hknows]
      · rw [hinputs, hpayloads]
      · intro hend
        rw [hknows, Bool.and_eq_true, List.isEmpty_iff] at hend
        exact hend
      · simp only [effort, hphase, hpayloads, List.length_cons]
        split <;> omega
  | sending sent hsent payload hphase' | announcing hsent hphase' | finished hphase' =>
    rw [hphase] at hphase'
    cases hphase'

theorem publish (h : Progress body log input t) (hphase : t.phase = .sending index b isLast)
    (hcustom : ∀ p ∈ t.userData, UserProperties.isReserved p.1 = false)
    (hpublished : s.Publishes c (t.outgoing index b isLast) m)
    (hstep : t.step? c false input s = some (t', input', s')) :
    Progress body { log with published := log.published ++ [m] } input' t' ∧
      t'.effort input' < t.effort input ∧ t'.userData = t.userData := by
  obtain ⟨s'', hresult⟩ := step?_sending input hphase hpublished
  rw [hresult] at hstep
  cases h with
  | sending sent hsent payload hphase' hinputs hend =>
    rw [hphase] at hphase'
    cases hphase'
    obtain ⟨hrequests, hmarks⟩ := requests_append hsent.requests hcustom (by simp) hpublished
    have hpayloads : (sent.map fun p => (body p).payload) ++ [(body payload).payload] =
        (sent ++ [payload]).map fun p => (body p).payload := by
      rw [List.map_append, List.map_singleton]
    rw [hpayloads] at hrequests
    cases hknown : log.endKnown with
    | false =>
      rw [hknown] at hstep hmarks
      cases hstep
      have hunmarked : ∀ m' ∈ log.published ++ [m], m'.marks = [] :=
        List.forall_mem_append.mpr ⟨hsent.unmarked, List.forall_mem_singleton.mpr hmarks⟩
      refine ⟨.taking (sent ++ [payload]) ⟨hunmarked, hrequests⟩ ?_ rfl ?_, ?_, rfl⟩
      · rw [List.length_append, List.length_singleton]
      · rw [hinputs, List.append_assoc, List.singleton_append]
      · simp [effort, hphase, hknown]
    | true =>
      rw [hknown] at hstep hmarks
      cases hstep
      obtain ⟨hempty, hclosed⟩ := hend hknown
      refine ⟨.finished rfl hclosed ⟨log.published, m, rfl, hsent.unmarked, hmarks⟩ ?_, ?_, rfl⟩
      · rw [hinputs, hempty, if_pos rfl, List.append_nil]
        exact hrequests
      · simp [Sender.finish, effort, hphase, hknown]
  | announcing hsent hphase' hknown hempty hclosed =>
    rw [hphase] at hphase'
    cases hphase'
    obtain ⟨hrequests, hmarks⟩ := requests_append hsent.requests hcustom (by simp) hpublished
    cases hstep
    refine ⟨.finished rfl hclosed ⟨log.published, m, rfl, hsent.unmarked, hmarks⟩ ?_, ?_, rfl⟩
    · rw [hknown]
      exact hrequests
    · simp [Sender.finish, effort, hphase]
  | taking sent hsent hphase' | finished hphase' =>
    rw [hphase] at hphase'
    cases hphase'

theorem push (h : Progress body log input t) (hopen : input.isClosed = false) (payload : V) :
    Progress body { log with inputs := log.inputs ++ [payload] }
      { input with payloads := input.payloads ++ [payload] } t := by
  cases h with
  | taking sent hsent hphase hknown hinputs =>
    refine .taking sent { hsent with } hphase hknown ?_
    rw [hinputs, List.append_assoc]
  | sending sent hsent first hphase hinputs hend =>
    refine .sending sent { hsent with } first hphase ?_ fun hknown => ?_
    · rw [hinputs, List.append_assoc, List.cons_append]
    · rw [(hend hknown).2] at hopen
      cases hopen
  | announcing hsent hphase hknown hempty hclosed | finished hphase hclosed =>
    rw [hclosed] at hopen
    cases hopen

theorem close (h : Progress body log input t) :
    Progress body log { input with isClosed := true } t := by
  cases h with
  | taking sent hsent hphase hknown hinputs => exact .taking sent hsent hphase hknown hinputs
  | sending sent hsent first hphase hinputs hend =>
    exact .sending sent hsent first hphase hinputs fun hknown => ⟨(hend hknown).1, rfl⟩
  | announcing hsent hphase hknown hempty hclosed =>
    exact .announcing hsent hphase hknown hempty rfl
  | finished hphase hclosed hmarked hrequests => exact .finished hphase rfl hmarked hrequests

theorem hasSent (h : Progress body log input t) (hrunning : t.isFinished = false) :
    ∃ sent, sent <+: log.inputs ∧ HasSent body log t sent := by
  cases h with
  | taking sent hsent hphase hknown hinputs => exact ⟨sent, ⟨_, hinputs.symm⟩, hsent⟩
  | sending sent hsent payload hphase hinputs hend => exact ⟨sent, ⟨_, hinputs.symm⟩, hsent⟩
  | announcing hsent => exact ⟨log.inputs, List.prefix_rfl, hsent⟩
  | finished hphase =>
    rw [isFinished, hphase] at hrunning
    cases hrunning

theorem of_finished (h : Progress body log input t) (hfinished : t.isFinished = true) :
    Requests t.route.correlationId
        ((log.inputs.map fun p => (body p).payload) ++ if log.endKnown then [] else [[]])
        log.published ∧
      ∃ earlier last, log.published = earlier ++ [last] ∧ (∀ m ∈ earlier, m.marks = []) ∧
        last.marks = ["true"] := by
  cases h with
  | finished hphase hclosed hmarked hrequests => exact ⟨hrequests, hmarked⟩
  | taking sent hsent hphase | sending sent hsent payload hphase | announcing hsent hphase =>
    rw [isFinished, hphase] at hfinished
    cases hfinished

end Progress

end Sender

end CommandBus
