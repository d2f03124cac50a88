import CommandBus.Proofs.Cache.Lifecycle
import CommandBus.Proofs.Executor.Turn
import CommandBus.World
import Mathlib

namespace CommandBus

namespace Cache

theorem state_stepStop? {k k' : Cache} {step step' : Stopping}
    (h : k.stepStop? step = some (step', k')) : k'.state = k.state := by
  unfold stepStop? at h
  split at h
  · split at h
    · cases h
    split at h <;> cases h <;> rfl
  · split at h <;> cases h
    rfl
  · cases h
    rfl
  · cases h

end Cache

namespace World

variable {V : Type}

/-- The entries of a cache; none as long as there is no such cache. -/
def cacheState (w : World V) (id : Nat) : Cache.State :=
  (w.caches[id]?).elim {} Cache.state

def effect? (w : World V) (id : Nat) : Option (Request.Effect V) := do
  let entry ← w.requests[id]?
  let e ← w.executors[entry.executor]?
  let cache ← w.caches[e.cache]?
  let clock ← w.clocks[e.clock]?
  if entry.task.isFinished || e.isEnding then none
  else (entry.task.step? e.command
    { cache, clock, now := w.now, wall := w.wall, runs := e.runs.length }).map (·.2.2)

/-- What a request works with: the cache and the clock of its executor, and the time. -/
def surroundings? (w : World V) (id : Nat) : Option Request.Surroundings := do
  let entry ← w.requests[id]?
  let e ← w.executors[entry.executor]?
  let cache ← w.caches[e.cache]?
  let clock ← w.clocks[e.clock]?
  return { cache, clock, now := w.now, wall := w.wall, runs := e.runs.length }

def putLoop (w : World V) (x : Nat) (loop : ServeLoop) : World V :=
  w.modifyExecutor x ({ · with loop := some loop })

/-- A step of the loop of an executor. Of all that it finds at once it may take anything. -/
inductive ServeStep (w : World V) (x : Nat) : World V → Prop
  | cancel {e : Executor V} {loop : ServeLoop} (he : w.executors[x]? = some e)
    (hl : e.loop = some loop) (hp : loop.phase = .serving) (hc : e.isCancelled = true) :
    ServeStep w x (w.putLoop x { loop with phase := .ending })
  | join {e : Executor V} {loop : ServeLoop} (he : w.executors[x]? = some e)
    (hl : e.loop = some loop) (hp : loop.phase ≠ .exited) (hf : 0 < loop.finished) :
    ServeStep w x
      (w.putLoop x { loop with started := loop.started - 1, finished := loop.finished - 1 })
  | take {e : Executor V} {loop : ServeLoop} {d : Delivery} {network : Network}
    (he : w.executors[x]? = some e) (hl : e.loop = some loop) (hp : loop.phase = .serving)
    (ht : w.network.take? loop.box = some (d, network)) :
    ServeStep w x { w.putLoop x { loop with started := loop.started + 1 } with
      network, requests := w.requests ++ [⟨x, Request.arrive d w.now⟩] }
  | close {e : Executor V} {loop : ServeLoop} (he : w.executors[x]? = some e)
    (hl : e.loop = some loop) (hp : loop.phase = .serving)
    (ht : w.network.take? loop.box = none) (hc : w.network.isClosed loop.box = true) :
    ServeStep w x (w.putLoop x { loop with phase := .ending })
  | exit {e : Executor V} {loop : ServeLoop} (he : w.executors[x]? = some e)
    (hl : e.loop = some loop) (hp : loop.phase = .ending) (hs : loop.started = 0) :
    ServeStep w x
      ((w.putLoop x { loop with phase := .exited }).modifyNetwork (·.dropReader loop.box))

theorem serveStep_of_stepServe? {w w' : World V} {x : Nat} {spawned : List WorldTask}
    (h : w.stepServe? x = some (w', spawned)) : w.ServeStep x w' := by
  simp only [stepServe?, Option.bind_eq_bind, Option.bind_eq_some_iff] at h
  obtain ⟨e, he, loop, hl, h⟩ := h
  split at h
  · cases h
  next hp =>
    have hne : loop.phase ≠ .exited := by simp [hp]
    split at h
    next hf =>
      cases h
      exact .join he hl hne hf
    next =>
      split at h
      next hs =>
        cases h
        exact .exit he hl hp hs
      next => cases h
  next hp =>
    have hne : loop.phase ≠ .exited := by simp [hp]
    split at h
    next hc =>
      cases h
      exact .cancel he hl hp hc
    next =>
    split at h
    next hf =>
      cases h
      exact .join he hl hne hf
    next =>
      split at h
      next d network ht =>
        cases h
        exact .take he hl hp ht
      next ht =>
        split at h
        next hc =>
          cases h
          exact .close he hl hp ht hc
        next => cases h

/-- A step of a task. A task that waits for several things at once may take any of them, and a
reservation may be dropped while its cache is in use elsewhere. -/
inductive Acts (w : World V) : WorldTask → World V → Prop
  | task {t : WorldTask} {w' : World V} {spawned : List WorldTask}
    (h : step? t w = some (w', spawned)) : Acts w t w'
  | request {id : Nat} {isLocked : Bool} {w' : World V}
    (h : w.stepRequest? id isLocked = some w') : Acts w (.request id) w'
  | serve {x : Nat} {w' : World V} (h : w.ServeStep x w') : Acts w (.serve x) w'
  | expiry {cache loop : Nat} {k k' : Cache} (hk : w.caches[cache]? = some k)
    (h : k.LoopStep loop w.now k') :
    Acts w (.expiry cache loop) { w with caches := w.caches.set cache k' }

namespace Acts

variable {w w' : World V}

theorem stepRequest? {id : Nat} (h : w.Acts (.request id) w') :
    ∃ isLocked, w.stepRequest? id isLocked = some w' := by
  cases h with
  | task h =>
    obtain ⟨v, hv, heq⟩ := Option.map_eq_some_iff.mp h
    cases heq
    exact ⟨false, hv⟩
  | request h => exact ⟨_, h⟩

theorem serveStep {x : Nat} (h : w.Acts (.serve x) w') : w.ServeStep x w' := by
  cases h with
  | task h => exact serveStep_of_stepServe? h
  | serve h => exact h

theorem loopStep {cache loop : Nat} (h : w.Acts (.expiry cache loop) w') :
    ∃ k k', w.caches[cache]? = some k ∧ k.LoopStep loop w.now k' ∧
      w' = { w with caches := w.caches.set cache k' } := by
  cases h with
  | task h =>
    simp only [step?, Option.bind_eq_bind, Option.bind_eq_some_iff] at h
    obtain ⟨k, hk, k', hloop, h⟩ := h
    cases h
    exact ⟨k, k', hk, Cache.loopStep_of_stepLoop? hloop, rfl⟩
  | expiry hk h => exact ⟨_, _, hk, h, rfl⟩

end Acts

structure Steady (w w' : World V) : Prop where
  now_le : w.now ≤ w'.now
  executors : ∀ {x : Nat} {e : Executor V}, w.executors[x]? = some e →
    ∃ e' : Executor V, w'.executors[x]? = some e' ∧ e'.command = e.command ∧ e'.cache = e.cache

/-- What can be done to a world from outside: time passes, the network delivers or does not, things
are added, started and stopped, and limits are set. Requests come only through the mailbox of their
executor, and entries of a cache only through requests. -/
structure Outside (w w' : World V) : Prop extends Steady w w' where
  requests_eq : w'.requests = w.requests
  leaving_eq : w'.leaving = w.leaving
  caches : ∀ c, ∃ config, w'.cacheState c = { w.cacheState c with config }

/-- One change of a world: a task takes a step, or something is done from outside. -/
def Happens (w w' : World V) : Prop :=
  (∃ t, Acts w t w') ∨ Outside w w'

structure IsFresh (w : World V) : Prop where
  requests_eq : w.requests = []
  leaving_eq : w.leaving = []
  caches : ∀ c, ∃ config, w.cacheState c = { config }

/-- The executor is at work: its tasks are not aborted, and its cache is started. -/
def Serves (w : World V) (x : Nat) : Prop :=
  ∃ e k, w.executors[x]? = some e ∧ e.isEnding = false ∧
    w.caches[e.cache]? = some k ∧ k.isStarted = true

def Run : World V → World V → Prop :=
  Relation.ReflTransGen Happens

def RunServing (x : Nat) : World V → World V → Prop :=
  Relation.ReflTransGen fun w w' => w.Serves x ∧ Happens w w'

theorem RunServing.run {x : Nat} {w w' : World V} (h : RunServing x w w') : Run w w' := by
  induction h with
  | refl => exact .refl
  | tail _ hstep ih => exact ih.tail hstep.2

/-- The world after each of these tasks has taken a step, if it can. -/
def stepAll (w : World V) : List WorldTask → World V
  | [] => w
  | t :: rest => (((step? t w).map Prod.fst).getD w).stepAll rest

theorem runWhile_stepAll {P : World V → Prop} (w : World V) (tasks : List WorldTask)
    (h : ∀ k ≤ tasks.length, P (w.stepAll (tasks.take k))) :
    Relation.ReflTransGen (fun w w' => P w ∧ Happens w w') w (w.stepAll tasks) := by
  induction tasks generalizing w with
  | nil => exact .refl
  | cons t rest ih =>
    have hrest := ih (((step? t w).map Prod.fst).getD w) fun k hk => h (k + 1) (by simpa using hk)
    cases hs : step? t w with
    | none =>
      rw [hs] at hrest
      rw [stepAll, hs]
      exact hrest
    | some p =>
      rw [hs] at hrest
      rw [stepAll, hs]
      exact .head ⟨h 0 (Nat.zero_le _), .inl ⟨t, .task hs⟩⟩ hrest

theorem run_stepAll (w : World V) (tasks : List WorldTask) : Run w (w.stepAll tasks) :=
  Relation.ReflTransGen.mono (fun _ _ h => h.2) _ _
    (runWhile_stepAll (P := fun _ => True) w tasks fun _ _ => trivial)

theorem Steady.of_eq {w w' : World V} (hn : w'.now = w.now) (he : w'.executors = w.executors) :
    Steady w w' :=
  ⟨hn.ge, fun h => ⟨_, he ▸ h, rfl, rfl⟩⟩

theorem Steady.of_modify {w w' : World V} {id : Nat} {f : Executor V → Executor V}
    (hf : ∀ e, (f e).command = e.command ∧ (f e).cache = e.cache) (hn : w'.now = w.now)
    (he : w'.executors = w.executors.modify id f) : Steady w w' := by
  refine ⟨hn.ge, @fun x e h => ?_⟩
  rw [he, List.getElem?_modify, h]
  by_cases hi : id = x
  · exact ⟨f e, by simp [hi], hf e⟩
  · exact ⟨e, by simp [hi], rfl, rfl⟩

theorem Steady.trans {w w' w'' : World V} (h : Steady w w') (h' : Steady w' w'') :
    Steady w w'' := by
  refine ⟨h.now_le.trans h'.now_le, fun he => ?_⟩
  obtain ⟨e', he', hc', hk'⟩ := h.executors he
  obtain ⟨e'', he'', hc'', hk''⟩ := h'.executors he'
  exact ⟨e'', he'', hc''.trans hc', hk''.trans hk'⟩

theorem Steady.outside {w w' : World V} (h : Steady w w') (hr : w'.requests = w.requests)
    (hl : w'.leaving = w.leaving) (hc : w'.caches = w.caches) : Outside w w' :=
  ⟨h, hr, hl, fun c => ⟨(w.cacheState c).config, by rw [cacheState, cacheState, hc]⟩⟩

theorem outside_of_le (w : World V) {now : Nat} (h : w.now ≤ now) : Outside w { w with now } :=
  Steady.outside ⟨h, fun {_ e} he => ⟨e, he, rfl, rfl⟩⟩ rfl rfl rfl

theorem cacheState_of_getElem? {w : World V} {c : Nat} {k : Cache} (h : w.caches[c]? = some k) :
    w.cacheState c = k.state := by
  rw [cacheState, h, Option.elim_some]

theorem cacheState_set {w w' : World V} {c : Nat} {k k' : Cache} (hk : w.caches[c]? = some k)
    (h : w'.caches = w.caches.set c k') (c' : Nat) :
    w'.cacheState c' = if c' = c then k'.state else w.cacheState c' := by
  obtain ⟨hlt, -⟩ := List.getElem?_eq_some_iff.mp hk
  rw [cacheState, h, List.getElem?_set]
  by_cases hc : c' = c
  · subst hc
    simp [hlt]
  · rw [if_neg (Ne.symm hc), if_neg hc, cacheState]

theorem outside_of_set {w w' : World V} (h : Steady w w') (hr : w'.requests = w.requests)
    (hl : w'.leaving = w.leaving) {c : Nat} {k k' : Cache} (hk : w.caches[c]? = some k) (hc : w'.caches = w.caches.set c k')
    (hs : k'.state = k.state) : Outside w w' := by
  refine ⟨h, hr, hl, fun c' => ⟨(w.cacheState c').config, ?_⟩⟩
  rw [cacheState_set hk hc, hs]
  split
  next h => rw [h, cacheState_of_getElem? hk]
  next => rfl

theorem outside_of_stepStage? {w w' : World V} {stage : Stage} {stages : List Stage}
    (h : w.stepStage? stage = some (stages, w')) : Outside w w' := by
  have hexecutor : ∀ {f : Executor V → Executor V} {id : Nat},
      (∀ e, (f e).command = e.command ∧ (f e).cache = e.cache) →
        Outside w (w.modifyExecutor id f) := fun hf =>
    Steady.outside (.of_modify hf rfl rfl) rfl rfl rfl
  cases stage with
  | cancelExecutor id =>
    cases h
    exact hexecutor fun _ => ⟨rfl, rfl⟩
  | takeExecutor id =>
    simp only [stepStage?] at h
    split at h
    · split at h <;> cases h
      · exact hexecutor fun _ => ⟨rfl, rfl⟩
      · exact (Steady.of_eq rfl rfl).outside rfl rfl rfl
    · cases h
      exact (Steady.of_eq rfl rfl).outside rfl rfl rfl
  | joinExecutor id | joinChunker id =>
    simp only [stepStage?] at h
    split at h <;> cases h
    exact (Steady.of_eq rfl rfl).outside rfl rfl rfl
  | unsubscribe client filter | cancelChunker id | clearChunker id | disconnect link =>
    cases h
    exact Steady.outside (.of_eq rfl rfl) rfl rfl rfl
  | stopRouter id step =>
    cases step with
    | done =>
      cases h
      exact Steady.outside (.of_eq rfl rfl) rfl rfl rfl
    | _ =>
      simp only [stepStage?, Option.bind_eq_bind, Option.bind_eq_some_iff] at h
      obtain ⟨i, -, ⟨step', router, network⟩, -, h⟩ := h
      cases h
      exact Steady.outside (.of_eq rfl rfl) rfl rfl rfl
  | stopCache id step =>
    cases step with
    | done =>
      cases h
      exact Steady.outside (.of_eq rfl rfl) rfl rfl rfl
    | _ =>
      simp only [stepStage?, Option.bind_eq_bind, Option.bind_eq_some_iff] at h
      obtain ⟨k, hk, ⟨step', k'⟩, hstop, h⟩ := h
      cases h
      exact outside_of_set (.of_eq rfl rfl) rfl rfl hk rfl (Cache.state_stepStop? hstop)

end World

end CommandBus
