import CommandBus.Proofs.World.Run
import Mathlib

namespace CommandBus

namespace Cache

theorem LoopStep.state {k k' : Cache} {id now : Nat} (h : k.LoopStep id now k') :
    k'.state = k.state ∨ k'.state = (k.state.expireOne now).2 := by
  cases h with
  | look | exit | wake => exact .inl rfl
  | expire => exact .inr rfl

end Cache

def WorldTask.isDetermined (t : WorldTask) : Bool :=
  match t with
  | .request _ | .serve _ | .expiry .. => false
  | _ => true

namespace World

variable {V : Type}

structure Turn (w w' : World V) (i : Nat) (b : RequestEntry V) (e : Executor V)
    (s : Request.Surroundings) (phase : Request.Phase V) (state : Cache.State)
    (effect : Request.Effect V) : Prop where
  steady : Steady w w'
  request : w.requests[i]? = some b
  executor : w.executors[b.executor]? = some e
  cache : w.caches[e.cache]? = some s.cache
  now_eq : s.now = w.now
  goes : b.task.Goes e.command s phase state effect
  requests_eq : w'.requests = w.requests.set i { b with task := { b.task with phase } }
  caches : ∀ c, w'.cacheState c = if c = e.cache then state else w.cacheState c
  leaving : w'.leaving = w.leaving ∧
      (∀ r, effect = .release r → state = (s.cache.state.abandon r).2) ∨
    w'.leaving = w.leaving ++ [i] ∧ state = s.cache.state ∧ ∃ r, effect = .release r
  surroundings_eq : w.surroundings? i = some s
  effect_eq : w.effect? i = some effect
  step : ∃ isLocked, w.stepRequest? i isLocked = some w'

/-- A request is aborted, and gives up an entry that it has reserved, or leaves it. -/
structure Abort (w w' : World V) (i : Nat) (b : RequestEntry V) (e : Executor V)
    (isLocked : Bool) : Prop where
  steady : Steady w w'
  request : w.requests[i]? = some b
  executor : w.executors[b.executor]? = some e
  isEnding : e.isEnding = true
  requests_eq :
    w'.requests = w.requests.set i { b with task := { b.task with phase := .finished } }
  caches : ∀ c, w'.cacheState c =
    if c = e.cache ∧ b.task.hasReservation = true ∧ isLocked = false then
      ((w.cacheState c).abandon (Request.cacheRequest e.command b.task.message)).2
    else w.cacheState c
  leaving_eq : w'.leaving =
    if b.task.hasReservation = true ∧ isLocked = true then w.leaving ++ [i] else w.leaving

structure Abandon (w w' : World V) (i : Nat) (b : RequestEntry V) (e : Executor V) : Prop where
  steady : Steady w w'
  request : w.requests[i]? = some b
  executor : w.executors[b.executor]? = some e
  mem : i ∈ w.leaving
  requests_eq : w'.requests = w.requests
  leaving_eq : w'.leaving = w.leaving.filter (· != i)
  caches : ∀ c, w'.cacheState c =
    if c = e.cache then
      ((w.cacheState c).abandon (Request.cacheRequest e.command b.task.message)).2
    else w.cacheState c

inductive Moves (w w' : World V) : Prop
  | outside (h : Outside w w')
  | expiry (hs : Steady w w') (hr : w'.requests = w.requests) (hl : w'.leaving = w.leaving)
    (id : Nat)
    (hc : ∀ c, w'.cacheState c =
      if c = id then ((w.cacheState id).expireOne w.now).2 else w.cacheState c)
  | arrival (hs : Steady w w') {x : Nat} {e : Executor V} (he : w.executors[x]? = some e)
    (d : Delivery) (hr : w'.requests = w.requests ++ [⟨x, Request.arrive d w.now⟩])
    (hl : w'.leaving = w.leaving) (hc : ∀ c, w'.cacheState c = w.cacheState c)
  | turn {i : Nat} {b : RequestEntry V} {e : Executor V} {s : Request.Surroundings}
    {phase : Request.Phase V} {state : Cache.State} {effect : Request.Effect V}
    (h : Turn w w' i b e s phase state effect)
  | abort {i : Nat} {b : RequestEntry V} {e : Executor V} {isLocked : Bool}
    (h : Abort w w' i b e isLocked)
  | abandon {i : Nat} {b : RequestEntry V} {e : Executor V} (h : Abandon w w' i b e)

theorem Steady.moves {w w' : World V} (h : Steady w w') (hr : w'.requests = w.requests)
    (hl : w'.leaving = w.leaving) (hc : w'.caches = w.caches) : Moves w w' :=
  .outside (h.outside hr hl hc)

theorem putInvokerState_frame (w : World V) (id : Nat) (s : InvokerState) :
    (w.putInvokerState id s).now = w.now ∧ (w.putInvokerState id s).executors = w.executors ∧
      (w.putInvokerState id s).requests = w.requests ∧
      (w.putInvokerState id s).leaving = w.leaving ∧
      (w.putInvokerState id s).caches = w.caches := by
  unfold putInvokerState
  split <;> exact ⟨rfl, rfl, rfl, rfl, rfl⟩

theorem steady_putLoop (w : World V) (x : Nat) (loop : ServeLoop) : Steady w (w.putLoop x loop) :=
  .of_modify (f := ({ · with loop := some loop })) (fun _ => ⟨rfl, rfl⟩) rfl rfl

theorem moves_of_serveStep {w w' : World V} {x : Nat} (h : w.ServeStep x w') : Moves w w' := by
  cases h with
  | cancel | join | close => exact (w.steady_putLoop x _).moves rfl rfl rfl
  | take he =>
    exact .arrival ((w.steady_putLoop x _).trans (.of_eq rfl rfl)) he _ rfl rfl fun _ => rfl
  | @exit e loop =>
    have hs : Steady w ((w.putLoop x { loop with phase := .exited }).modifyNetwork
        (·.dropReader loop.box)) := (w.steady_putLoop x _).trans (.of_eq rfl rfl)
    exact hs.moves rfl rfl rfl

theorem steady_noteFinished (w : World V) (x : Nat) : Steady w (w.noteFinished x) :=
  .of_modify (f := (·.modifyLoop fun loop => { loop with finished := loop.finished + 1 }))
    (fun _ => ⟨rfl, rfl⟩) rfl rfl

theorem steady_perform (w : World V) (id executor : Nat) (e : Executor V) (isLocked : Bool)
    (effect : Request.Effect V) : Steady w (w.perform id executor e isLocked effect) := by
  cases effect with
  | invoke request =>
    exact .of_modify (f := fun e => { e with runs := e.runs ++ [request] }) (fun _ => ⟨rfl, rfl⟩)
      rfl rfl
  | release r => cases isLocked <;> exact .of_eq rfl rfl
  | none | publish | acknowledge => exact .of_eq rfl rfl

theorem perform_cases {w : World V} {e : Executor V} {k : Cache}
    (hk : w.caches[e.cache]? = some k) (id executor : Nat) (isLocked : Bool)
    (effect : Request.Effect V) :
    (∀ r, effect ≠ .release r) ∧
        (w.perform id executor e isLocked effect).leaving = w.leaving ∧
        (w.perform id executor e isLocked effect).caches = w.caches ∨
      ∃ r, effect = .release r ∧
        (isLocked = true ∧
            (w.perform id executor e isLocked effect).leaving = w.leaving ++ [id] ∧
            (w.perform id executor e isLocked effect).caches = w.caches ∨
          isLocked = false ∧ (w.perform id executor e isLocked effect).leaving = w.leaving ∧
            (w.perform id executor e isLocked effect).caches =
              w.caches.set e.cache (k.abandon r).2) := by
  cases effect with
  | release r =>
    refine .inr ⟨r, rfl, ?_⟩
    cases isLocked with
    | true => exact .inl ⟨rfl, rfl, rfl⟩
    | false =>
      refine .inr ⟨rfl, rfl, ?_⟩
      show w.caches.modify e.cache _ = _
      rw [List.modify_eq_set_getElem?, hk]
      rfl
  | none | invoke | publish | acknowledge => exact .inl ⟨nofun, rfl, rfl⟩

structure Advance (w w' : World V) (i : Nat) (isLocked : Bool) (b : RequestEntry V)
    (e : Executor V) (s s' : Request.Surroundings) (task : Request.Task V)
    (effect : Request.Effect V) : Prop where
  request : w.requests[i]? = some b
  executor : w.executors[b.executor]? = some e
  cache : w.caches[e.cache]? = some s.cache
  clock : w.clocks[e.clock]? = some s.clock
  surroundings_eq : w.surroundings? i = some s
  now_eq : s.now = w.now
  eq_surroundings : { s with now := w.now, wall := w.wall, runs := e.runs.length } = s
  isFinished : b.task.isFinished = false
  proceed : b.task.proceed? e.command e.isEnding s = some (task, s', effect)
  eq : w' =
    let v := (w.putTask i b e task s').perform i b.executor e isLocked effect
    if task.isFinished then v.noteFinished b.executor else v

theorem exists_advance {w w' : World V} {i : Nat} {isLocked : Bool}
    (h : w.stepRequest? i isLocked = some w') :
    ∃ b e s s' task effect, Advance w w' i isLocked b e s s' task effect := by
  unfold stepRequest? at h
  simp only [Option.bind_eq_bind, Option.bind_eq_some_iff] at h
  obtain ⟨b, hb, e, he, k, hk, clock, hclock, h⟩ := h
  split at h
  · cases h
  next hfinished =>
  obtain ⟨⟨task, s, effect⟩, hstep, h⟩ := Option.bind_eq_some_iff.mp h
  refine ⟨b, e, _, s, task, effect, hb, he, hk, hclock, ?_, rfl, rfl, by simpa using hfinished,
    hstep, (Option.some.inj h).symm⟩
  simp [surroundings?, hb, he, hk, hclock]

namespace Advance

variable {w w' : World V} {i : Nat} {isLocked : Bool} {b : RequestEntry V} {e : Executor V}
  {s s' : Request.Surroundings} {task : Request.Task V} {effect : Request.Effect V}

theorem steady (h : Advance w w' i isLocked b e s s' task effect) : Steady w w' := by
  have hput : Steady w (w.putTask i b e task s') := .of_eq rfl rfl
  have hperform := hput.trans (steady_perform _ i b.executor e isLocked effect)
  rw [h.eq]
  dsimp only
  split
  · exact hperform.trans (steady_noteFinished _ _)
  · exact hperform

theorem requests_eq (h : Advance w w' i isLocked b e s s' task effect) :
    w'.requests = w.requests.set i { b with task } := by
  have hperform : ((w.putTask i b e task s').perform i b.executor e isLocked effect).requests =
      w.requests.set i { b with task } := by
    cases effect with
    | release r => cases isLocked <;> rfl
    | none | invoke | publish | acknowledge => rfl
  rw [h.eq]
  dsimp only
  split <;> exact hperform

/-- If the step drops a reservation, the entry is given up then, or left if the cache is locked. -/
theorem cases (h : Advance w w' i isLocked b e s s' task effect) :
    (∀ r, effect ≠ .release r) ∧ w'.leaving = w.leaving ∧
        (∀ c, w'.cacheState c = if c = e.cache then s'.cache.state else w.cacheState c) ∨
      ∃ r, effect = .release r ∧
        (isLocked = true ∧ w'.leaving = w.leaving ++ [i] ∧
            (∀ c, w'.cacheState c = if c = e.cache then s'.cache.state else w.cacheState c) ∨
          isLocked = false ∧ w'.leaving = w.leaving ∧ ∀ c, w'.cacheState c =
            if c = e.cache then (s'.cache.state.abandon r).2 else w.cacheState c) := by
  obtain ⟨hl, hc⟩ : w'.leaving =
        ((w.putTask i b e task s').perform i b.executor e isLocked effect).leaving ∧
      w'.caches = ((w.putTask i b e task s').perform i b.executor e isLocked effect).caches := by
    rw [h.eq]
    dsimp only
    split <;> exact ⟨rfl, rfl⟩
  obtain ⟨hlt, -⟩ := List.getElem?_eq_some_iff.mp h.cache
  have hk : (w.putTask i b e task s').caches[e.cache]? = some s'.cache :=
    List.getElem?_set_self hlt
  refine (perform_cases hk i b.executor isLocked effect).imp ?_ ?_
  · rintro ⟨hn, hl', hc'⟩
    exact ⟨hn, hl.trans hl', cacheState_set h.cache (hc.trans hc')⟩
  · rintro ⟨r, rfl, hcase⟩
    refine ⟨r, rfl, hcase.imp ?_ ?_⟩
    · rintro ⟨hlocked, hl', hc'⟩
      exact ⟨hlocked, hl.trans hl', cacheState_set h.cache (hc.trans hc')⟩
    · rintro ⟨hlocked, hl', hc'⟩
      have hset : w'.caches = w.caches.set e.cache (s'.cache.abandon r).2 :=
        (hc.trans hc').trans (List.set_set ..)
      exact ⟨hlocked, hl.trans hl', cacheState_set h.cache hset⟩

theorem abort (h : Advance w w' i isLocked b e s s' task effect) (hending : e.isEnding = true) :
    Abort w w' i b e isLocked := by
  have hproceed := h.proceed
  rw [Request.Task.proceed?, if_pos hending] at hproceed
  have hstate := b.task.state_abort e.command s
  rw [Option.some.inj hproceed] at hstate
  obtain ⟨rfl, rfl⟩ : { b.task with phase := .finished } = task ∧
      (if b.task.hasReservation then
        .release (Request.cacheRequest e.command b.task.message) else .none) = effect := by
    cases hproceed
    exact ⟨rfl, rfl⟩
  have hcases := h.cases
  rw [hstate] at hcases
  have hold := cacheState_of_getElem? h.cache
  have hsame (c : Nat) : (if c = e.cache then s.cache.state else w.cacheState c) =
      w.cacheState c := by
    split
    next hc => rw [hc, hold]
    next => rfl
  cases hres : b.task.hasReservation with
  | false =>
    rw [hres] at hcases
    obtain ⟨-, hl, hc⟩ | ⟨r, heffect, -⟩ := hcases
    · exact ⟨h.steady, h.request, h.executor, hending, h.requests_eq,
        fun c => by simp [hres, hc, hsame], by simp [hres, hl]⟩
    · cases heffect
  | true =>
    rw [hres] at hcases
    obtain ⟨hn, -⟩ | ⟨r, heffect, ⟨rfl, hl, hc⟩ | ⟨rfl, hl, hc⟩⟩ := hcases
    · exact absurd rfl (hn _)
    · exact ⟨h.steady, h.request, h.executor, hending, h.requests_eq,
        fun c => by simp [hc, hsame], by simp [hres, hl]⟩
    · cases heffect
      refine ⟨h.steady, h.request, h.executor, hending, h.requests_eq, fun c => ?_,
        by simp [hl]⟩
      rw [hc]
      by_cases hce : c = e.cache
      · simp [hce, hres, hold]
      · simp [hce]

theorem turn (h : Advance w w' i isLocked b e s s' task effect) (hending : e.isEnding = false)
    (hstep : w.stepRequest? i isLocked = some w') :
    ∃ phase state, Turn w w' i b e s phase state effect := by
  have hproceed := h.proceed
  rw [Request.Task.proceed?, if_neg (by simp [hending])] at hproceed
  have heffect : w.effect? i = some effect := by
    have hs := h.eq_surroundings
    simp [effect?, h.request, h.executor, h.cache, h.clock, h.isFinished, hending, hs, hproceed]
  obtain ⟨phase, rfl, hg⟩ := Request.Task.goes_of_step? hproceed
  obtain ⟨hn, hl, hc⟩ | ⟨r, rfl, hcase⟩ := h.cases
  · exact ⟨phase, _, h.steady, h.request, h.executor, h.cache, h.now_eq, hg, h.requests_eq, hc,
      .inl ⟨hl, fun r hr => absurd hr (hn r)⟩, h.surroundings_eq, heffect, isLocked, hstep⟩
  obtain ⟨phase', htask, hstate, hg'⟩ := Request.Task.goes_of_release hproceed
  obtain rfl : phase = phase' := congrArg (·.phase) htask
  rw [hstate] at hg hcase
  obtain ⟨-, hl, hc⟩ | ⟨-, hl, hc⟩ := hcase
  · exact ⟨phase, _, h.steady, h.request, h.executor, h.cache, h.now_eq, hg, h.requests_eq, hc,
      .inr ⟨hl, rfl, r, rfl⟩, h.surroundings_eq, heffect, isLocked, hstep⟩
  · refine ⟨phase, _, h.steady, h.request, h.executor, h.cache, h.now_eq, hg', h.requests_eq, hc,
      .inl ⟨hl, fun r' hr => ?_⟩, h.surroundings_eq, heffect, isLocked, hstep⟩
    cases hr
    rfl

end Advance

/-- A request whose executor is ending is aborted; any other one has the effect that was to be
expected. -/
theorem turn_of_stepRequest? {w w' : World V} {i : Nat} {isLocked : Bool}
    (h : w.stepRequest? i isLocked = some w') :
    (∃ b e, Abort w w' i b e isLocked) ∨
      ∃ b e s phase state effect, Turn w w' i b e s phase state effect := by
  obtain ⟨b, e, s, s', task, effect, ha⟩ := exists_advance h
  cases hending : e.isEnding with
  | true => exact .inl ⟨b, e, ha.abort hending⟩
  | false =>
    obtain ⟨phase, state, ht⟩ := ha.turn hending h
    exact .inr ⟨b, e, s, phase, state, effect, ht⟩

theorem moves_of_stepRequest? {w w' : World V} {i : Nat} {isLocked : Bool}
    (h : w.stepRequest? i isLocked = some w') : Moves w w' := by
  obtain ⟨b, e, ha⟩ | ⟨b, e, s, phase, state, effect, ht⟩ := turn_of_stepRequest? h
  · exact .abort ha
  · exact .turn ht

theorem abandon_of_stepAbandon? {w w' : World V} {i : Nat} (h : w.stepAbandon? i = some w') :
    ∃ b e, Abandon w w' i b e := by
  unfold stepAbandon? at h
  simp only [Option.bind_eq_bind, Option.bind_eq_some_iff] at h
  obtain ⟨b, hb, e, he, k, hk, h⟩ := h
  split at h
  next hmem =>
    cases h
    refine ⟨b, e, .of_eq rfl rfl, hb, he, by simpa using hmem, rfl, rfl, fun c => ?_⟩
    refine (cacheState_set hk rfl c).trans ?_
    split
    next hc =>
      rw [hc, cacheState_of_getElem? hk]
      rfl
    next => rfl
  next => cases h

theorem goes_of_effect? {w : World V} {id : Nat} {effect : Request.Effect V}
    (h : w.effect? id = some effect) :
    ∃ b e, w.requests[id]? = some b ∧ w.executors[b.executor]? = some e ∧ e.isEnding = false ∧
      ∃ s phase state, w.caches[e.cache]? = some s.cache ∧ s.now = w.now ∧
        b.task.Goes e.command s phase state effect := by
  simp only [effect?, Option.bind_eq_bind, Option.bind_eq_some_iff] at h
  obtain ⟨b, hb, e, he, k, hk, clock, -, h⟩ := h
  split at h
  · cases h
  next hn =>
    obtain ⟨⟨task, s, effect⟩, hstep, rfl⟩ := Option.map_eq_some_iff.mp h
    obtain ⟨phase, -, hg⟩ := Request.Task.goes_of_step? hstep
    simp only [Bool.or_eq_true, not_or, Bool.not_eq_true] at hn
    exact ⟨b, e, hb, he, hn.2, _, phase, _, hk, rfl, hg⟩

theorem turn_of_effect? {w w' : World V} {i : Nat} {isLocked : Bool}
    {effect : Request.Effect V} (he : w.effect? i = some effect)
    (h : w.stepRequest? i isLocked = some w') :
    ∃ b e s phase state, Turn w w' i b e s phase state effect := by
  obtain ⟨b, e, ha⟩ | ⟨b, e, s, phase, state, effect', ht⟩ := turn_of_stepRequest? h
  · obtain ⟨b', e', hb', he', hn, -⟩ := goes_of_effect? he
    have hb := ha.request
    rw [hb', Option.some_inj] at hb
    subst hb
    have hexecutor := ha.executor
    rw [he', Option.some_inj] at hexecutor
    rw [hexecutor, ha.isEnding] at hn
    cases hn
  · have heq := ht.effect_eq
    rw [he, Option.some_inj] at heq
    subst heq
    exact ⟨b, e, s, phase, state, ht⟩

theorem moves_putInvokerState (w : World V) (id : Nat) (s : InvokerState) {w' : World V}
    (hn : w'.now = (w.putInvokerState id s).now)
    (he : w'.executors = (w.putInvokerState id s).executors)
    (hr : w'.requests = (w.putInvokerState id s).requests)
    (hl : w'.leaving = (w.putInvokerState id s).leaving)
    (hc : w'.caches = (w.putInvokerState id s).caches) : Moves w w' := by
  obtain ⟨hn', he', hr', hl', hc'⟩ := w.putInvokerState_frame id s
  exact (Steady.of_eq (hn.trans hn') (he.trans he')).moves (hr.trans hr') (hl.trans hl')
    (hc.trans hc')

theorem Acts.step? {w w' : World V} {t : WorldTask} (h : w.Acts t w')
    (ht : t.isDetermined = true) : ∃ spawned, World.step? t w = some (w', spawned) := by
  cases h with
  | task h => exact ⟨_, h⟩
  | request | serve | expiry => cases ht

theorem moves_of_acts {w w' : World V} {t : WorldTask} (h : w.Acts t w') : Moves w w' := by
  cases t with
  | expiry cache loop =>
    obtain ⟨k, k', hk, hloop, rfl⟩ := h.loopStep
    have hc : ∀ c, World.cacheState { w with caches := w.caches.set cache k' } c =
        if c = cache then k'.state else w.cacheState c := cacheState_set hk rfl
    obtain hs | hs := hloop.state
    · exact .outside (outside_of_set (.of_eq rfl rfl) rfl rfl hk rfl hs)
    · refine .expiry (.of_eq rfl rfl) rfl rfl cache fun c => ?_
      rw [hc, hs, cacheState_of_getElem? hk]
  | serve id => exact moves_of_serveStep h.serveStep
  | request id =>
    obtain ⟨isLocked, h⟩ := h.stepRequest?
    exact moves_of_stepRequest? h
  | abandon id =>
    obtain ⟨spawned, h⟩ := h.step? rfl
    obtain ⟨v, hv, h⟩ := Option.map_eq_some_iff.mp h
    cases h
    obtain ⟨b, e, ha⟩ := abandon_of_stepAbandon? hv
    exact .abandon ha
  | collect id | sweep id =>
    obtain ⟨spawned, h⟩ := h.step? rfl
    obtain ⟨network, -, h⟩ := Option.map_eq_some_iff.mp h
    cases h
    exact Steady.moves (.of_eq rfl rfl) rfl rfl rfl
  | route invoker route =>
    obtain ⟨spawned, h⟩ := h.step? rfl
    obtain ⟨v, hv, h⟩ := Option.map_eq_some_iff.mp h
    cases h
    simp only [stepRoute?, Option.bind_eq_bind, Option.bind_eq_some_iff] at hv
    obtain ⟨i, -, ⟨router, network⟩, -, hv⟩ := hv
    cases hv
    exact Steady.moves (.of_eq rfl rfl) rfl rfl rfl
  | call id =>
    obtain ⟨spawned, h⟩ := h.step? rfl
    simp only [World.step?, stepCall?, Option.bind_eq_bind, Option.bind_eq_some_iff] at h
    obtain ⟨entry, -, h⟩ := h
    by_cases ha : entry.isAborted = true
    · simp [ha] at h
    simp only [ha, Bool.false_eq_true, if_false, Option.bind_eq_some_iff] at h
    obtain ⟨⟨channel, s⟩, -, ⟨call, s', route⟩, -, h⟩ := h
    cases h
    exact moves_putInvokerState w entry.invoker s' rfl rfl rfl rfl rfl
  | opening stream =>
    obtain ⟨spawned, h⟩ := h.step? rfl
    simp only [World.step?, stepOpening?, Option.bind_eq_bind, Option.bind_eq_some_iff] at h
    obtain ⟨entry, -, ⟨channel, s⟩, -, ⟨stream', s', started⟩, -, h⟩ := h
    cases h
    exact moves_putInvokerState w entry.invoker s' rfl rfl rfl rfl rfl
  | send stream =>
    obtain ⟨spawned, h⟩ := h.step? rfl
    obtain ⟨v, hv, h⟩ := Option.map_eq_some_iff.mp h
    cases h
    simp only [stepSend?, Option.bind_eq_bind, Option.bind_eq_some_iff] at hv
    obtain ⟨entry, -, ⟨channel, s⟩, -, ⟨stream', s'⟩, -, hv⟩ := hv
    cases hv
    exact moves_putInvokerState w entry.invoker s' rfl rfl rfl rfl rfl
  | deadline stream =>
    obtain ⟨spawned, h⟩ := h.step? rfl
    cases h

theorem moves_of_happens {w w' : World V} (h : Happens w w') : Moves w w' := by
  obtain ⟨t, h⟩ | h := h
  · exact moves_of_acts h
  · exact .outside h

namespace Moves

variable {w w' : World V}

theorem steady (h : Moves w w') : Steady w w' := by
  cases h with
  | outside h => exact h.toSteady
  | expiry hs | arrival hs => exact hs
  | turn h => exact h.steady
  | abort h | abandon h => exact h.steady

end Moves

theorem Run.steady {w w' : World V} (h : Run w w') : Steady w w' := by
  induction h with
  | refl => exact .of_eq rfl rfl
  | tail _ hstep ih => exact ih.trans (moves_of_happens hstep).steady

end World

end CommandBus
