import CommandBus.Proofs.Executor.Provenance
import Mathlib

namespace CommandBus

/-- The command succeeds for every request, with a reply that only the payload decides. -/
structure Command.Computes {V : Type} (c : Command V) (f : V → Reply) : Prop where
  reply_eq : ∀ n request,
    Reply.ofHandler c.responseCodec (c.handler n request).outcome = f request.payload
  isSuccess : ∀ payload, (f payload).status.isSuccess = true

/-- In some run that begins with nothing in the caches, a request with this message is executed,
and answered with `m`. -/
def Command.AnswersDirectly {V : Type} (c : Command V) (message : Message)
    (request : IncomingRequest V) (m : Message) : Prop :=
  ∃ (w₀ u w : World V) (i : Nat) (b : RequestEntry V) (e : Executor V) (reply : Reply),
    w₀.IsFresh ∧ w.requests[i]? = some b ∧ b.task.message = message ∧
    w.executors[b.executor]? = some e ∧ e.command = c ∧
    World.Yields b.executor w₀ w i u reply ∧ u.effect? i = some (.invoke request) ∧
    w.effect? i = some (.publish m)

namespace World

variable {V : Type} {x i j : Nat} {w₀ w w' u : World V} {a b : RequestEntry V} {e : Executor V}
  {reply : Reply}

theorem delivers_of_run (hb : w.requests[i]? = some b) (hx : b.executor = x)
    (he : w.executors[b.executor]? = some e) (hd : b.task.Delivers e.command reply)
    (h : RunInTime x w w') :
    ∃ b', w'.requests[i]? = some b' ∧ b'.IsSame b ∧ b'.task.Delivers e.command reply := by
  refine exists_of_run hb hd (fun t ht => ?_) (fun {v v' b₁ e₁ s phase state effect} hrun hin hsame
    ht hd₁ => ?_) h
  · rw [Request.Task.Delivers, ht]
    trivial
  · obtain ⟨e', he', hc, -⟩ := hrun.steady.executors he
    have he₁ := ht.executor
    rw [hsame.executor_eq, he', Option.some_inj] at he₁
    rw [← hc, he₁] at hd₁ ⊢
    have hmem := List.mem_of_getElem? ht.request
    exact ht.goes.delivers hd₁ (hin _ hmem (hsame.executor_eq.trans hx))

theorem carries_of_publish {c : Command V} {m : Message} (hb : w.requests[i]? = some b)
    (hd : b.task.Delivers c reply) (hm : w.effect? i = some (.publish m)) :
    b.task.Carries reply m := by
  obtain ⟨response, remaining, hp, rfl⟩ := answering_of_publish hb hm
  rw [Request.Task.Delivers, hp] at hd
  exact hd.expiry remaining

namespace Yields

theorem run (h : Yields x w₀ w i u reply) : Run u w := by
  obtain ⟨u', hstep, hafter⟩ := h.after
  exact .head (.inl ⟨.request i, hstep⟩) hafter.run

theorem got (h : Yields x w₀ w i u reply) (hb : w.requests[i]? = some b)
    (he : w.executors[b.executor]? = some e) :
    ∃ s, u.surroundings? i = some s ∧
      ((∃ request, u.effect? i = some (.invoke request) ∧ reply =
          .ofHandler e.command.responseCodec (e.command.handler s.runs request).outcome) ∨
        u.effect? i = some .none ∧
          (Request.validate e.command b.task.message s).1 = .error reply) := by
  obtain ⟨a, e₁, s, ha, he₁, hs, -, hcase⟩ := h.gets
  obtain ⟨b', hb', hsame⟩ := h.run.request ha
  obtain rfl := Option.some.inj (hb.symm.trans hb')
  obtain ⟨e', he', hcommand, -⟩ := h.run.steady.executors he₁
  obtain rfl := Option.some.inj (he.symm.trans (hsame.executor_eq ▸ he'))
  refine ⟨s, hs, ?_⟩
  rw [hcommand, hsame.message_eq]
  exact hcase

theorem refusal?_eq_none (h : Yields x w₀ w i u reply) (hf : w₀.IsFresh)
    (hb : w.requests[i]? = some b) : Request.refusal? b.task.message = none := by
  obtain ⟨a, -, -, ha, -, -, hphase, -⟩ := h.gets
  obtain ⟨b', hb', hsame⟩ := h.run.request ha
  obtain rfl := Option.some.inj (hb.symm.trans hb')
  obtain ⟨_, _, htask⟩ := (Traced.of_run hf h.before).2.tasks ha
  have hres : a.task.hasReservation = true := by rw [Request.Task.hasReservation, hphase]
  rw [hsame.message_eq]
  exact (htask.accepted (by rw [Request.Task.isAccepted, hphase, hres])).1

theorem delivers (h : Yields x w₀ w i u reply) (hb : w.requests[i]? = some b)
    (hx : b.executor = x) (he : w.executors[b.executor]? = some e) {request : IncomingRequest V}
    (hi : u.effect? i = some (.invoke request)) : b.task.Delivers e.command reply := by
  obtain ⟨s, hs, ⟨request', hi', hr⟩ | ⟨hi', -⟩⟩ := h.got hb he
  · rw [hi] at hi'
    cases hi'
    obtain ⟨u', hacts, hafter⟩ := h.after
    obtain ⟨isLocked, hstep⟩ := hacts.stepRequest?
    obtain ⟨a, e₁, s', phase, state, ht⟩ := turn_of_effect? hi hstep
    obtain rfl := Option.some.inj (hs.symm.trans ht.surroundings_eq)
    obtain ⟨e', he', hcommand, -⟩ := ht.steady.executors ht.executor
    obtain ⟨hlt, -⟩ := List.getElem?_eq_some_iff.mp ht.request
    have ha := congrArg (·[i]?) ht.requests_eq
    rw [List.getElem?_set_self hlt] at ha
    obtain ⟨b', hb', hsame⟩ := hafter.run.request ha
    obtain rfl := Option.some.inj (hb.symm.trans hb')
    obtain ⟨e₂, he₂, hcommand₂, -⟩ := hafter.run.steady.executors he'
    obtain rfl := Option.some.inj (he.symm.trans (hsame.executor_eq ▸ he₂))
    have hd : Request.Task.Delivers e'.command reply { a.task with phase } := by
      have hg := ht.goes
      rw [← hcommand, ← hcommand₂] at hg
      cases hg with
      | invoked _ _ hrun =>
        rw [← hcommand₂]
        exact hr.trans (by rw [hrun])
    obtain ⟨b', hb', -, hd⟩ :=
      delivers_of_run ha (hsame.executor_eq.symm.trans hx) he' hd hafter
    obtain rfl := Option.some.inj (hb.symm.trans hb')
    exact hcommand₂ ▸ hd
  · rw [hi] at hi'
    cases hi'

end Yields

theorem carries_of_answersDirectly {c : Command V} {message m : Message}
    {request : IncomingRequest V} (h : c.AnswersDirectly message request m) :
    Request.refusal? message = none ∧ ∃ (t : Request.Task V) (n : Nat),
      t.Carries (.ofHandler c.responseCodec (c.handler n request).outcome) m := by
  obtain ⟨w₀, u, w, i, b, e, reply, hf, hb, rfl, he, rfl, hy, hi, hm⟩ := h
  obtain ⟨s, -, ⟨request', hi', rfl⟩ | ⟨hi', -⟩⟩ := hy.got hb he
  · rw [hi, Option.some_inj] at hi'
    cases hi'
    exact ⟨hy.refusal?_eq_none hf hb, b.task, s.runs,
      carries_of_publish hb (hy.delivers hb rfl he hi) hm⟩
  · rw [hi] at hi'
    cases hi'

/-- A request is answered as if it had been executed exactly if the request whose reply it gets was
passed on to the handler, and the handler makes the same of both payloads. -/
theorem answer_matches_iff {f : V → Reply} (hf : w₀.IsFresh)
    (hrun : RunInTime b.executor w₀ w) (hb : w.requests[j]? = some b)
    (he : w.executors[b.executor]? = some e) (hc : e.command.Computes f)
    (hapart : ∀ (i : Nat) (a : RequestEntry V), w.requests[i]? = some a →
      w.cacheOf a = w.cacheOf b → w.Shares a b → a.executor = b.executor)
    {m m' : Message} (hm : w.effect? j = some (.publish m)) {request : IncomingRequest V}
    (hd : e.command.AnswersDirectly b.task.message request m') :
    ∃ (i : Nat) (a : RequestEntry V) (u : World V) (reply : Reply), w.requests[i]? = some a ∧
      a.executor = b.executor ∧ w.Shares a b ∧ Yields b.executor w₀ w i u reply ∧
      b.task.Carries reply m ∧
      (m.Matches m' ↔ ∃ request', u.effect? i = some (.invoke request') ∧
        (f request'.payload).Matches (f request.payload)) := by
  obtain ⟨hr, t, n, hdirect⟩ := carries_of_answersDirectly hd
  rw [hc.reply_eq] at hdirect
  obtain ⟨i, a, ha, hcache, hs, hy⟩ := traced_of_publish hf hrun hb rfl hr hm
  have hax := hapart i a ha hcache hs
  obtain ⟨u, reply, hy, hcarries⟩ := hy hax
  refine ⟨i, a, u, reply, ha, hax, hs, hy, hcarries, ?_⟩
  rw [hcarries.matches_iff hdirect]
  obtain ⟨s, -, ⟨request₁, heffect, rfl⟩ | ⟨heffect, hv⟩⟩ := hy.got ha (hax ▸ he)
  · rw [hc.reply_eq]
    refine ⟨fun hmatch => ⟨request₁, heffect, hmatch⟩, fun ⟨request₂, heffect₂, hmatch⟩ => ?_⟩
    rw [heffect, Option.some_inj] at heffect₂
    cases heffect₂
    exact hmatch
  · rw [heffect]
    refine ⟨fun hmatch => ?_, fun ⟨_, hn, _⟩ => by cases hn⟩
    have hsuccess := hc.isSuccess request.payload
    rw [← hmatch.status_eq, Request.validate_isSuccess hv] at hsuccess
    cases hsuccess

def echo : Command Bytes where
  name := "echo"
  requestFilter := "echo"
  isIdempotent := true
  reusableFor := 20000
  acrossInvokers := false
  requestCodec := .raw
  responseCodec := .raw
  handler _ request := ⟨0, .ok ⟨request.payload, []⟩⟩

/-- A request for the command, from an invoker that follows this version of the protocol. -/
def echoRequest (id : UInt8) (version : String) : Message where
  topic := "echo"
  payload := [1]
  responseTopic := some "reply"
  correlationData := some (List.replicate 16 id)
  expiryInterval := some 10
  userProperties := [(Property.protocolVersion.key, version)]

/-- An executor of the command, with these requests in its mailbox. -/
def echoing (requests : List Message) : World Bytes where
  wall := 0
  network := { broker := { mailboxes := { boxes := [{ waiting := requests.map (⟨·, .none⟩) }] } } }
  clocks := [Clock.start "node" 0 Clock.defaultMaxDrift]
  caches := [{ isStarted := true }]
  executors := [{
    command := echo, client := .plain 0, shutdownClient := false, cache := 0, clock := 0
    loop := some { box := 0 } }]

/-- Two equal requests wait, the second of which is of a supported version. -/
def bothWaiting (version : String) : World Bytes :=
  echoing [echoRequest 0 version, echoRequest 1 "1.0"]

/-- The first of them is done, and the second is about to be answered. -/
def secondAnswered (version : String) : World Bytes :=
  (bothWaiting version).stepAll
    ([.serve 0, .serve 0] ++ List.replicate 5 (.request 0) ++ List.replicate 3 (.request 1))

theorem isFresh_echoing (requests : List Message) : (echoing requests).IsFresh := by
  refine ⟨rfl, rfl, fun c => ⟨{}, ?_⟩⟩
  obtain _ | c := c <;> rfl

def echoReply (payload : Bytes) : Reply :=
  .success ⟨payload, "application/octet-stream", .unspecifiedBytes⟩ []

theorem computes_echo : echo.Computes echoReply where
  reply_eq _ _ := rfl
  isSuccess payload := by
    rw [echoReply, Reply.success]
    split <;> rfl

theorem answersDirectly_echo : ∃ request m,
    echo.AnswersDirectly (echoRequest 1 "1.0") request m ∧ m.status? = some "200" ∧
      m.payload = [1] ∧ m.contentType = some "application/octet-stream" := by
  obtain ⟨request, hinvoke⟩ : ∃ request,
      ((echoing [echoRequest 1 "1.0"]).stepAll
        [.serve 0, .request 0, .request 0]).effect? 0 = some (.invoke request) := ⟨_, rfl⟩
  obtain ⟨m, hm, hstatus, hpayload, htype⟩ : ∃ m,
      ((echoing [echoRequest 1 "1.0"]).stepAll ([.serve 0, .request 0, .request 0] ++
        [.request 0, .request 0, .request 0])).effect? 0 = some (.publish m) ∧
      m.status? = some "200" ∧ m.payload = [1] ∧
      m.contentType = some "application/octet-stream" := ⟨_, rfl, rfl, rfl, rfl⟩
  have hstep : ((echoing [echoRequest 1 "1.0"]).stepAll
      [.serve 0, .request 0, .request 0]).stepRequest? 0 false =
        some ((echoing [echoRequest 1 "1.0"]).stepAll
          [.serve 0, .request 0, .request 0, .request 0]) := rfl
  have hyields : Yields 0 (echoing [echoRequest 1 "1.0"])
      ((echoing [echoRequest 1 "1.0"]).stepAll ([.serve 0, .request 0, .request 0] ++
        [.request 0, .request 0, .request 0])) 0
      ((echoing [echoRequest 1 "1.0"]).stepAll [.serve 0, .request 0, .request 0])
      (echoReply request.payload) := {
    before := runWhile_stepAll _ [.serve 0, .request 0, .request 0] (by decide +kernel)
    gets := ⟨_, _, _, rfl, rfl, rfl, rfl, .inl ⟨request, hinvoke, rfl⟩⟩
    after := ⟨_, .request hstep, runWhile_stepAll _ [.request 0, .request 0] (by decide +kernel)⟩ }
  exact ⟨request, m, ⟨_, _, _, 0, _, _, _, isFresh_echoing _, rfl, rfl, rfl, rfl, hyields, hinvoke,
    hm⟩, hstatus, hpayload, htype⟩

/-- If the first of two equal requests is refused for its version, the second is answered with the
refusal, although it would have been carried out. -/
theorem refusal_reused :
    (bothWaiting "9.0").IsFresh ∧ RunInTime 0 (bothWaiting "9.0") (secondAnswered "9.0") ∧
    echo.Computes echoReply ∧
    ∃ b m request m', (secondAnswered "9.0").requests[1]? = some b ∧
      b.task.message = echoRequest 1 "1.0" ∧
      (secondAnswered "9.0").effect? 1 = some (.publish m) ∧
      echo.AnswersDirectly (echoRequest 1 "1.0") request m' ∧ ¬ m.Matches m' := by
  obtain ⟨request, m', hdirect, hstatus', -⟩ := answersDirectly_echo
  obtain ⟨m, hm, hstatus⟩ : ∃ m, (secondAnswered "9.0").effect? 1 = some (.publish m) ∧
      m.status? = some "505" := ⟨_, rfl, rfl⟩
  refine ⟨isFresh_echoing _, runWhile_stepAll _ _ (by decide +kernel), computes_echo, _, m,
    request, m', rfl, rfl, hm, hdirect, fun hmatch => ?_⟩
  have heq := hmatch.status_eq
  rw [hstatus, hstatus'] at heq
  exact absurd heq (by decide)

/-- If both are of a supported version, the second is answered as if by itself, so the reply it gets
is from the handler. -/
theorem reply_reused :
    ∃ b m request m' i u reply request', (secondAnswered "1.0").requests[1]? = some b ∧
      (secondAnswered "1.0").effect? 1 = some (.publish m) ∧
      echo.AnswersDirectly (echoRequest 1 "1.0") request m' ∧ m.Matches m' ∧
      Yields 0 (bothWaiting "1.0") (secondAnswered "1.0") i u reply ∧
      b.task.Carries reply m ∧ u.effect? i = some (.invoke request') ∧
      (echoReply request'.payload).Matches (echoReply request.payload) := by
  obtain ⟨request, m', hdirect, hstatus', hpayload', htype'⟩ := answersDirectly_echo
  obtain ⟨m, hm, hstatus, hpayload, htype⟩ : ∃ m,
      (secondAnswered "1.0").effect? 1 = some (.publish m) ∧ m.status? = some "200" ∧
      m.payload = [1] ∧ m.contentType = some "application/octet-stream" :=
    ⟨_, rfl, rfl, rfl, rfl⟩
  have hmatch : m.Matches m' :=
    ⟨hstatus.trans hstatus'.symm, hpayload.trans hpayload'.symm, htype.trans htype'.symm⟩
  obtain ⟨b, hb, hx, hmessage⟩ : ∃ b, (secondAnswered "1.0").requests[1]? = some b ∧
      b.executor = 0 ∧ b.task.message = echoRequest 1 "1.0" := ⟨_, rfl, rfl, rfl⟩
  obtain ⟨e, he, hc⟩ : ∃ e, (secondAnswered "1.0").executors[0]? = some e ∧
      e.command = echo := ⟨_, rfl, rfl⟩
  have hrun : RunInTime 0 (bothWaiting "1.0") (secondAnswered "1.0") :=
    runWhile_stepAll _ _ (by decide +kernel)
  have hall : ∀ a ∈ (secondAnswered "1.0").requests, a.executor = 0 := by decide +kernel
  rw [← hx] at hrun he hall
  obtain ⟨i, a, u, reply, -, -, -, hy, hcarries, hiff⟩ :=
    answer_matches_iff (isFresh_echoing _) hrun hb he (hc ▸ computes_echo)
      (fun i a ha _ _ => hall a (List.mem_of_getElem? ha)) hm (by rwa [hc, hmessage])
  obtain ⟨request', hinvoke, hsame⟩ := hiff.mp hmatch
  exact ⟨b, m, request, m', i, u, reply, request', hb, hm, hdirect, hmatch, hx ▸ hy, hcarries,
    hinvoke, hsame⟩

end World

end CommandBus
