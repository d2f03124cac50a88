import CommandBus.Proofs.World.Requests
import Mathlib

namespace CommandBus

def WorldTask.handlesRequests (t : WorldTask) : Bool :=
  match t with
  | .serve _ | .request _ => true
  | _ => false

namespace World

variable {V : Type} {w w' v v' : World V} {x y i j : Nat} {b b' : RequestEntry V}
  {e e' : Executor V} {loop : ServeLoop}

/-- One step of the loop of an executor, by kind: what becomes of the loop, and of the requests. -/
inductive LoopStep (w : World V) (x : Nat) (loop : ServeLoop) :
    ServeLoop → List (RequestEntry V) → Prop
  | joins (hp : loop.phase ≠ .exited) (hf : 0 < loop.finished) :
    LoopStep w x loop
      { loop with started := loop.started - 1, finished := loop.finished - 1 } w.requests
  | ends (hp : loop.phase = .serving) :
    LoopStep w x loop { loop with phase := .ending } w.requests
  | exits (hp : loop.phase = .ending) (hs : loop.started = 0) :
    LoopStep w x loop { loop with phase := .exited } w.requests
  | takes (hp : loop.phase = .serving) (d : Delivery) :
    LoopStep w x loop { loop with started := loop.started + 1 }
      (w.requests ++ [⟨x, Request.arrive d w.now⟩])

theorem ServeStep.loopStep (h : w.ServeStep x w') :
    ∃ e loop loop', w.executors[x]? = some e ∧ e.loop = some loop ∧
      LoopStep w x loop loop' w'.requests ∧
      w'.executors = w.executors.modify x ({ · with loop := some loop' }) ∧
      w'.caches = w.caches ∧ w'.clocks = w.clocks := by
  cases h with
  | cancel he hl hp | close he hl hp => exact ⟨_, _, _, he, hl, .ends hp, rfl, rfl, rfl⟩
  | join he hl hp hf => exact ⟨_, _, _, he, hl, .joins hp hf, rfl, rfl, rfl⟩
  | take he hl hp => exact ⟨_, _, _, he, hl, .takes hp _, rfl, rfl, rfl⟩
  | exit he hl hp hs => exact ⟨_, _, _, he, hl, .exits hp hs, rfl, rfl, rfl⟩

/-- What a world leaves alone in a step: the time, its requests, its executors, and how many caches
and clocks there are. -/
structure Frame (w w' : World V) : Prop where
  now_eq : w'.now = w.now
  executors_eq : w'.executors = w.executors
  requests_eq : w'.requests = w.requests
  caches_length : w'.caches.length = w.caches.length
  clocks_length : w'.clocks.length = w.clocks.length

theorem frame_putInvokerState (w : World V) (id : Nat) (s : InvokerState) :
    Frame w (w.putInvokerState id s) := by
  simp only [putInvokerState]
  split
  · exact ⟨rfl, rfl, rfl, rfl, rfl⟩
  · exact ⟨rfl, rfl, rfl, rfl, List.length_set⟩

theorem Acts.frame {t : WorldTask} (h : w.Acts t w') (ht : t.handlesRequests = false) :
    Frame w w' := by
  cases t with
  | serve | request => cases ht
  | expiry cache loop =>
    obtain ⟨k, k', -, -, rfl⟩ := h.loopStep
    exact ⟨rfl, rfl, rfl, List.length_set, rfl⟩
  | abandon id =>
    obtain ⟨spawned, h⟩ := h.step? rfl
    obtain ⟨v, hv, h⟩ := Option.map_eq_some_iff.mp h
    cases h
    simp only [stepAbandon?, Option.bind_eq_bind, Option.bind_eq_some_iff] at hv
    obtain ⟨b, -, e, -, k, -, hv⟩ := hv
    split at hv <;> cases hv
    exact ⟨rfl, rfl, rfl, List.length_set, rfl⟩
  | collect id | sweep id =>
    obtain ⟨spawned, h⟩ := h.step? rfl
    obtain ⟨network, -, h⟩ := Option.map_eq_some_iff.mp h
    cases h
    exact ⟨rfl, rfl, rfl, rfl, rfl⟩
  | route invoker route =>
    obtain ⟨spawned, h⟩ := h.step? rfl
    obtain ⟨v, hv, h⟩ := Option.map_eq_some_iff.mp h
    cases h
    simp only [stepRoute?, Option.bind_eq_bind, Option.bind_eq_some_iff] at hv
    obtain ⟨i, -, ⟨router, network⟩, -, hv⟩ := hv
    cases hv
    exact ⟨rfl, rfl, rfl, rfl, rfl⟩
  | call id =>
    obtain ⟨spawned, h⟩ := h.step? rfl
    simp only [World.step?, stepCall?, Option.bind_eq_bind, Option.bind_eq_some_iff] at h
    obtain ⟨entry, -, h⟩ := h
    by_cases ha : entry.isAborted = true
    · simp [ha] at h
    simp only [ha, Bool.false_eq_true, if_false, Option.bind_eq_some_iff] at h
    obtain ⟨⟨channel, s⟩, -, ⟨call, s', route⟩, -, h⟩ := h
    cases h
    obtain ⟨hn, he, hr, hc, hk⟩ := w.frame_putInvokerState entry.invoker s'
    exact ⟨hn, he, hr, hc, hk⟩
  | opening stream =>
    obtain ⟨spawned, h⟩ := h.step? rfl
    simp only [World.step?, stepOpening?, Option.bind_eq_bind, Option.bind_eq_some_iff] at h
    obtain ⟨entry, -, ⟨channel, s⟩, -, ⟨stream', s', started⟩, -, h⟩ := h
    cases h
    obtain ⟨hn, he, hr, hc, hk⟩ := w.frame_putInvokerState entry.invoker s'
    exact ⟨hn, he, hr, hc, hk⟩
  | send stream =>
    obtain ⟨spawned, h⟩ := h.step? rfl
    obtain ⟨v, hv, h⟩ := Option.map_eq_some_iff.mp h
    cases h
    simp only [stepSend?, Option.bind_eq_bind, Option.bind_eq_some_iff] at hv
    obtain ⟨entry, -, ⟨channel, s⟩, -, ⟨stream', s'⟩, -, hv⟩ := hv
    cases hv
    obtain ⟨hn, he, hr, hc, hk⟩ := w.frame_putInvokerState entry.invoker s'
    exact ⟨hn, he, hr, hc, hk⟩
  | deadline stream =>
    obtain ⟨spawned, h⟩ := h.step? rfl
    cases h

def note (isFinished : Bool) (loop : ServeLoop) : ServeLoop :=
  if isFinished then { loop with finished := loop.finished + 1 } else loop

def ran (e : Executor V) (effect : Request.Effect V) : Executor V :=
  match effect with
  | .invoke request => { e with runs := e.runs ++ [request] }
  | .none | .publish _ | .acknowledge _ | .release _ => e

/-- What a step of a request does to its executor: it runs the handler or not, and the loop is told
if the request has finished. -/
def credit (isFinished : Bool) (effect : Request.Effect V) (e : Executor V) : Executor V :=
  (ran e effect).modifyLoop (note isFinished)

theorem credit_false (effect : Request.Effect V) : credit false effect = (ran · effect) := by
  funext e
  have hid : note false = id := rfl
  rw [credit, Executor.modifyLoop, hid, Option.map_id, id]

theorem credit_frame (isFinished : Bool) (effect : Request.Effect V) (e : Executor V) :
    (credit isFinished effect e).cache = e.cache ∧ (credit isFinished effect e).clock = e.clock ∧
      (credit isFinished effect e).isCancelled = e.isCancelled ∧
      (credit isFinished effect e).loop = e.loop.map (note isFinished) := by
  cases effect <;> exact ⟨rfl, rfl, rfl, rfl⟩

theorem Acts.now_eq {t : WorldTask} (h : w.Acts t w') : w'.now = w.now := by
  cases t with
  | serve x => cases h.serveStep <;> rfl
  | request i =>
    obtain ⟨isLocked, hs⟩ := h.stepRequest?
    obtain ⟨b, e, s, s', task, effect, ha⟩ := exists_advance hs
    rw [ha.eq]
    cases effect with
    | release r => cases isLocked <;> (dsimp only; split <;> rfl)
    | none | invoke | publish | acknowledge => dsimp only; split <;> rfl
  | expiry | collect | sweep | route | call | opening | send | deadline | abandon =>
    exact (h.frame rfl).now_eq

theorem executors_of_stepRequest? {isLocked : Bool} (h : w.stepRequest? i isLocked = some w') :
    ∃ b task effect, w.requests[i]? = some b ∧ b.task.isFinished = false ∧
      w'.requests = w.requests.set i { b with task } ∧
      w'.executors = w.executors.modify b.executor (credit task.isFinished effect) ∧
      w'.caches.length = w.caches.length ∧ w'.clocks.length = w.clocks.length := by
  obtain ⟨b, e, s, s', task, effect, ha⟩ := exists_advance h
  refine ⟨b, task, effect, ha.request, ha.isFinished, ha.requests_eq, ?_⟩
  have hcaches : (w.caches.set e.cache s'.cache).length = w.caches.length := List.length_set
  have hclocks : (w.clocks.set e.clock s'.clock).length = w.clocks.length := List.length_set
  rw [ha.eq]
  cases htask : task.isFinished with
  | true =>
    cases effect with
    | invoke request => exact ⟨List.modify_modify_eq .., hcaches, hclocks⟩
    | release r =>
      cases isLocked
      · exact ⟨rfl, List.length_modify .. |>.trans hcaches, hclocks⟩
      · exact ⟨rfl, hcaches, hclocks⟩
    | none | publish | acknowledge => exact ⟨rfl, hcaches, hclocks⟩
  | false =>
    rw [credit_false]
    cases effect with
    | invoke request => exact ⟨rfl, hcaches, hclocks⟩
    | release r =>
      cases isLocked
      · exact ⟨(List.modify_id _ _).symm, List.length_modify .. |>.trans hcaches, hclocks⟩
      · exact ⟨(List.modify_id _ _).symm, hcaches, hclocks⟩
    | none | publish | acknowledge => exact ⟨(List.modify_id _ _).symm, hcaches, hclocks⟩

end World

end CommandBus
