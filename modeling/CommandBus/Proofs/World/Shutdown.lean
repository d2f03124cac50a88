import CommandBus.Proofs.World.Serving
import CommandBus.World.Simulation
import Mathlib

namespace CommandBus

namespace World

variable {V : Type} {w w' v : World V} {x y i : Nat} {e e' : Executor V} {loop loop' : ServeLoop}
  {stage : Stage} {stages first rest : List Stage}

/-- What is done to a world from outside, as it concerns executors: they keep what they use and are
not cancelled in vain, one that is not cancelled may be started, and new ones use what there is. -/
structure Operation (w w' : World V) : Prop extends Outside w w' where
  executor : ∀ {x : Nat} {e : Executor V}, w.executors[x]? = some e →
    ∃ e' : Executor V, w'.executors[x]? = some e' ∧ e'.clock = e.clock ∧
      (e.isCancelled = true → e'.isCancelled = true) ∧
      (e'.loop = e.loop ∨ e.loop = none ∧ e.isCancelled = false ∧ ∃ box, e'.loop = some { box })
  added : ∀ {x : Nat} {e : Executor V}, w.executors[x]? = none → w'.executors[x]? = some e →
    e.loop = none ∧ e.cache < w'.caches.length ∧ e.clock < w'.clocks.length
  caches_length : w.caches.length ≤ w'.caches.length
  clocks_length : w.clocks.length ≤ w'.clocks.length

/-- One change of a world: a task takes a step, or an operation is carried out. -/
def Operates (w w' : World V) : Prop :=
  (∃ t, Acts w t w') ∨ Operation w w'

def Operated : World V → World V → Prop :=
  Relation.ReflTransGen Operates

theorem Operates.happens (h : Operates w w') : Happens w w' :=
  h.imp_right Operation.toOutside

theorem Operated.run (h : Operated w w') : Run w w' :=
  Relation.ReflTransGen.mono (fun _ _ => Operates.happens) _ _ h

/-- The stages of a shutdown are gone through, while anything else goes on. -/
inductive ShutsDown : List Stage → World V → World V → Prop
  | done (w : World V) : ShutsDown [] w w
  | stage {stage : Stage} {first rest : List Stage} {w v w' : World V}
    (hs : w.stepStage? stage = some (first, v)) (hrest : ShutsDown (first ++ rest) v w') :
    ShutsDown (stage :: rest) w w'
  | meanwhile {stages : List Stage} {w v w' : World V} (hs : Operates w v)
    (hrest : ShutsDown stages v w') : ShutsDown stages w w'

theorem getElem?_executors_modify {f : Executor V → Executor V}
    (he : w'.executors = w.executors.modify y f) (x : Nat) :
    w'.executors[x]? = if x = y then w.executors[x]?.map f else w.executors[x]? := by
  rw [he, List.getElem?_modify]
  by_cases hx : x = y
  · simp [hx]
  · simp [hx, Ne.symm hx]

theorem operation_of_modify {f : Executor V → Executor V} (ho : Outside w w')
    (he : w'.executors = w.executors.modify x f)
    (hf : ∀ e, (f e).clock = e.clock ∧ (e.isCancelled = true → (f e).isCancelled = true) ∧
      (f e).loop = e.loop)
    (hc : w'.caches.length = w.caches.length) (hk : w'.clocks.length = w.clocks.length) :
    Operation w w' where
  toOutside := ho
  executor {y e} hy := by
    obtain ⟨hclock, hcancelled, hloop⟩ := hf e
    rw [getElem?_executors_modify he, hy]
    split
    · exact ⟨f e, rfl, hclock, hcancelled, .inl hloop⟩
    · exact ⟨e, rfl, rfl, id, .inl rfl⟩
  added {y e} hnone hy := by
    rw [getElem?_executors_modify he, hnone] at hy
    split at hy <;> cases hy
  caches_length := hc.ge
  clocks_length := hk.ge

theorem operation_of_eq (ho : Outside w w') (he : w'.executors = w.executors)
    (hc : w'.caches.length = w.caches.length) (hk : w'.clocks.length = w.clocks.length) :
    Operation w w' :=
  operation_of_modify (x := 0) (f := id) ho (by rw [he, List.modify_id])
    (fun _ => ⟨rfl, id, rfl⟩) hc hk

theorem operation_of_stepStage? (h : w.stepStage? stage = some (stages, w')) :
    Operation w w' := by
  have ho := outside_of_stepStage? h
  cases stage with
  | cancelExecutor id =>
    cases h
    exact operation_of_modify ho rfl (fun _ => ⟨rfl, fun _ => rfl, rfl⟩) rfl rfl
  | takeExecutor id =>
    simp only [stepStage?] at h
    split at h
    · split at h <;> cases h
      · exact operation_of_modify ho rfl (fun _ => ⟨rfl, fun hc => hc, rfl⟩) rfl rfl
      · exact operation_of_eq ho rfl rfl rfl
    · cases h
      exact operation_of_eq ho rfl rfl rfl
  | joinExecutor id | joinChunker id =>
    simp only [stepStage?] at h
    split at h <;> cases h
    exact operation_of_eq ho rfl rfl rfl
  | unsubscribe client filter | cancelChunker id | clearChunker id | disconnect link =>
    cases h
    exact operation_of_eq ho rfl rfl rfl
  | stopRouter id step =>
    cases step with
    | done =>
      cases h
      exact operation_of_eq ho rfl rfl rfl
    | _ =>
      simp only [stepStage?, Option.bind_eq_bind, Option.bind_eq_some_iff] at h
      obtain ⟨i, -, ⟨step', router, network⟩, -, h⟩ := h
      cases h
      exact operation_of_eq ho rfl rfl rfl
  | stopCache id step =>
    cases step with
    | done =>
      cases h
      exact operation_of_eq ho rfl rfl rfl
    | _ =>
      simp only [stepStage?, Option.bind_eq_bind, Option.bind_eq_some_iff] at h
      obtain ⟨k, -, ⟨step', k'⟩, -, h⟩ := h
      cases h
      exact operation_of_eq ho rfl List.length_set rfl

def loopOf (w : World V) (x : Nat) : Option ServeLoop :=
  w.executors[x]?.bind Executor.loop

def isPendingOf (x : Nat) (b : RequestEntry V) : Bool :=
  b.executor == x && !b.task.isFinished

def unfinished (w : World V) (x : Nat) : Nat :=
  w.requests.countP (isPendingOf x)

/-- A loop has started as many requests as it still has to be told of or to take note of, and exits
when there are none. Without a loop there are no requests. -/
structure Tally (w : World V) : Prop where
  idle : ∀ {x : Nat}, w.loopOf x = none → w.unfinished x = 0
  started_eq : ∀ {x : Nat} {loop : ServeLoop}, w.loopOf x = some loop →
    loop.started = loop.finished + w.unfinished x
  exited : ∀ {x : Nat} {loop : ServeLoop}, w.loopOf x = some loop → loop.phase = .exited →
    loop.started = 0

theorem loopOf_modify {f : Executor V → Executor V} {g : ServeLoop → ServeLoop}
    (he : w'.executors = w.executors.modify y f) (hf : ∀ e, (f e).loop = e.loop.map g) (x : Nat) :
    w'.loopOf x = if x = y then (w.loopOf x).map g else w.loopOf x := by
  rw [loopOf, getElem?_executors_modify he]
  split
  · rw [loopOf]
    cases w.executors[x]? with
    | none => rfl
    | some e => exact hf e
  · rfl

theorem unfinished_append (b : RequestEntry V) (hr : w'.requests = w.requests ++ [b])
    (hb : b.task.isFinished = false) (x : Nat) :
    w'.unfinished x = w.unfinished x + if x = b.executor then 1 else 0 := by
  simp only [unfinished, hr, List.countP_append, List.countP_singleton, isPendingOf, hb]
  by_cases hx : x = b.executor
  · simp [hx]
  · simp [hx, Ne.symm hx]

theorem unfinished_set {b : RequestEntry V} (hb : w.requests[i]? = some b)
    (hopen : b.task.isFinished = false) {task : Request.Task V}
    (hr : w'.requests = w.requests.set i { b with task }) (x : Nat) :
    w'.unfinished x + (if x = b.executor ∧ task.isFinished = true then 1 else 0) =
      w.unfinished x := by
  obtain ⟨hlt, hget⟩ := List.getElem?_eq_some_iff.mp hb
  have hset : w'.unfinished x = w.unfinished x - (if isPendingOf x b = true then 1 else 0) +
      if isPendingOf x { b with task } = true then 1 else 0 := by
    rw [unfinished, hr, List.countP_set hlt, hget, unfinished]
  by_cases hx : x = b.executor
  · subst hx
    have hp : isPendingOf b.executor b = true := by simp [isPendingOf, hopen]
    have hp' : isPendingOf b.executor { b with task } = !task.isFinished := by simp [isPendingOf]
    have hpos : 0 < w.unfinished b.executor :=
      List.countP_pos_iff.mpr ⟨b, List.mem_of_getElem? hb, hp⟩
    rw [hp, hp', if_pos rfl] at hset
    cases hf : task.isFinished <;> simp [hf] at hset ⊢ <;> omega
  · have hp : isPendingOf x b = false := by simp [isPendingOf, Ne.symm hx]
    have hp' : isPendingOf x { b with task } = false := by simp [isPendingOf, Ne.symm hx]
    rw [hp, hp'] at hset
    simpa [hx] using hset

namespace Tally

theorem congr (h : w.Tally) (hl : ∀ x, w'.loopOf x = w.loopOf x)
    (hr : w'.requests = w.requests) : w'.Tally where
  idle {x} hx := by
    rw [unfinished, hr]
    exact h.idle (hl x ▸ hx)
  started_eq {x loop} hx := by
    rw [unfinished, hr]
    exact h.started_eq (hl x ▸ hx)
  exited {x loop} hx := h.exited (hl x ▸ hx)

theorem operation (h : w.Tally) (ho : Operation w w') : w'.Tally := by
  have hunfinished (x : Nat) : w'.unfinished x = w.unfinished x := by
    rw [unfinished, ho.requests_eq, unfinished]
  have hloop (x : Nat) : w'.loopOf x = w.loopOf x ∨
      w.loopOf x = none ∧ ∃ box, w'.loopOf x = some { box } := by
    cases hx : w.executors[x]? with
    | none =>
      left
      cases hx' : w'.executors[x]? with
      | none => rw [loopOf, loopOf, hx, hx']
      | some e' =>
        rw [loopOf, loopOf, hx, hx', Option.bind_some, (ho.added hx hx').1]
        rfl
    | some e =>
      obtain ⟨e', hx', -, -, hl | ⟨hl, -, box, hl'⟩⟩ := ho.executor hx
      · left
        rw [loopOf, loopOf, hx, hx', Option.bind_some, Option.bind_some, hl]
      · right
        rw [loopOf, loopOf, hx, hx', Option.bind_some, Option.bind_some]
        exact ⟨hl, box, hl'⟩
  refine ⟨fun {x} hx => ?_, fun {x loop} hx => ?_, fun {x loop} hx hp => ?_⟩ <;>
    obtain hl | ⟨hnone, box, hl⟩ := hloop x
  · exact (hunfinished x).trans (h.idle (hl ▸ hx))
  · exact (hunfinished x).trans (h.idle hnone)
  · exact hunfinished x ▸ h.started_eq (hl ▸ hx)
  · cases hl.symm.trans hx
    rw [hunfinished, h.idle hnone]
  · exact h.exited (hl ▸ hx) hp
  · cases hl.symm.trans hx
    rfl

theorem serve (h : w.Tally) (he : w.executors[x]? = some e) (hloop : e.loop = some loop)
    (hs : LoopStep w x loop loop' w'.requests)
    (hx : w'.executors = w.executors.modify x ({ · with loop := some loop' })) : w'.Tally := by
  have hloopOf : w.loopOf x = some loop := by rw [loopOf, he, Option.bind_some, hloop]
  have hself : w'.loopOf x = some loop' := by
    rw [loopOf, getElem?_executors_modify hx, if_pos rfl, he]
    rfl
  have hother {y : Nat} (hy : y ≠ x) : w'.loopOf y = w.loopOf y := by
    rw [loopOf, getElem?_executors_modify hx, if_neg hy, loopOf]
  have hstarted := h.started_eq hloopOf
  obtain ⟨hunfinished, hcount, hexited⟩ :
      (∀ y, y ≠ x → w'.unfinished y = w.unfinished y) ∧
        loop'.started = loop'.finished + w'.unfinished x ∧
        (loop'.phase = .exited → loop'.started = 0) := by
    have hsame (hr : w'.requests = w.requests) (y : Nat) : w'.unfinished y = w.unfinished y := by
      rw [unfinished, hr, unfinished]
    generalize hr : w'.requests = requests at hs
    -- Only joining and taking move the counts, each of them both sides by one.
    cases hs with
    | joins hp hf =>
      refine ⟨fun y _ => hsame hr y, ?_, fun hexit => absurd hexit hp⟩
      rw [hsame hr]
      show loop.started - 1 = loop.finished - 1 + w.unfinished x
      omega
    | ends => exact ⟨fun y _ => hsame hr y, (hsame hr x).symm ▸ hstarted, nofun⟩
    | exits _ hzero => exact ⟨fun y _ => hsame hr y, (hsame hr x).symm ▸ hstarted, fun _ => hzero⟩
    | takes hp d =>
      have happend := unfinished_append _ hr rfl
      refine ⟨fun y hy => (happend y).trans (if_neg hy ▸ rfl), ?_, fun hexit => ?_⟩
      · rw [happend, if_pos rfl]
        show loop.started + 1 = loop.finished + (w.unfinished x + 1)
        omega
      · cases hp.symm.trans hexit
  refine ⟨fun {y} hy => ?_, fun {y l} hy => ?_, fun {y l} hy hp => ?_⟩ <;> by_cases hyx : y = x
  · subst hyx
    cases hself.symm.trans hy
  · exact (hunfinished y hyx).trans (h.idle (hother hyx ▸ hy))
  · subst hyx
    cases hself.symm.trans hy
    exact hcount
  · rw [hunfinished y hyx]
    exact h.started_eq (hother hyx ▸ hy)
  · subst hyx
    cases hself.symm.trans hy
    exact hexited hp
  · exact h.exited (hother hyx ▸ hy) hp

theorem request (h : w.Tally) {b : RequestEntry V} {task : Request.Task V}
    {effect : Request.Effect V} (hb : w.requests[i]? = some b)
    (hopen : b.task.isFinished = false) (hr : w'.requests = w.requests.set i { b with task })
    (hx : w'.executors = w.executors.modify b.executor (credit task.isFinished effect)) :
    w'.Tally := by
  have hloop := loopOf_modify hx fun e => (credit_frame task.isFinished effect e).2.2.2
  have hset := unfinished_set hb hopen hr
  have hpos : w.unfinished b.executor ≠ 0 := by
    refine (List.countP_pos_iff.mpr ⟨b, List.mem_of_getElem? hb, ?_⟩).ne'
    simp [isPendingOf, hopen]
  refine ⟨fun {y} hy => ?_, fun {y l} hy => ?_, fun {y l} hy hp => ?_⟩
  · have hnone : w.loopOf y = none := by
      rw [hloop] at hy
      split at hy
      · exact Option.map_eq_none_iff.mp hy
      · exact hy
    have hzero := h.idle hnone
    have hy' := hset y
    omega
  · rw [hloop] at hy
    have hy' := hset y
    split at hy
    next hyx =>
      subst hyx
      obtain ⟨loop, hloop, rfl⟩ := Option.map_eq_some_iff.mp hy
      have hstarted := h.started_eq hloop
      cases hf : task.isFinished with
      | false =>
        simp only [hf, Bool.false_eq_true, and_false, if_false, Nat.add_zero] at hy'
        rw [hy']
        exact hstarted
      | true =>
        simp only [hf, and_self, if_true] at hy'
        show loop.started = loop.finished + 1 + w'.unfinished b.executor
        omega
    next hyx =>
      rw [if_neg fun hyx' => hyx hyx'.1, Nat.add_zero] at hy'
      rw [hy']
      exact h.started_eq hy
  · rw [hloop] at hy
    split at hy
    next hyx =>
      obtain ⟨loop, hloop, rfl⟩ := Option.map_eq_some_iff.mp hy
      have hphase : loop.phase = .exited := by
        rw [note] at hp
        split at hp <;> exact hp
      have hzero := h.exited hloop hphase
      have hstarted := h.started_eq hloop
      rw [hyx] at hstarted
      omega
    next => exact h.exited hy hp

theorem operates (h : w.Tally) (ho : Operates w w') : w'.Tally := by
  obtain ⟨t, hs⟩ | ho := ho
  · cases t with
    | serve x =>
      obtain ⟨e, loop, loop', he, hloop, hstep, hx, -⟩ := hs.serveStep.loopStep
      exact h.serve he hloop hstep hx
    | request j =>
      obtain ⟨isLocked, hv⟩ := hs.stepRequest?
      obtain ⟨b, task, effect, hb, hopen, hr, hx, -⟩ := executors_of_stepRequest? hv
      exact h.request hb hopen hr hx
    | expiry | collect | sweep | route | call | opening | send | deadline | abandon =>
      have hf := hs.frame rfl
      refine h.congr (fun x => ?_) hf.requests_eq
      rw [loopOf, hf.executors_eq, loopOf]
  · exact h.operation ho

end Tally

def Equipped (w : World V) : Prop :=
  ∀ (x : Nat) (e : Executor V), w.executors[x]? = some e →
    e.cache < w.caches.length ∧ e.clock < w.clocks.length

theorem Equipped.modify (h : w.Equipped) {f : Executor V → Executor V}
    (he : w'.executors = w.executors.modify x f)
    (hf : ∀ e, (f e).cache = e.cache ∧ (f e).clock = e.clock)
    (hc : w'.caches.length = w.caches.length) (hk : w'.clocks.length = w.clocks.length) :
    w'.Equipped := by
  intro y e hy
  rw [getElem?_executors_modify he] at hy
  rw [hc, hk]
  split at hy
  · obtain ⟨e₀, he₀, rfl⟩ := Option.map_eq_some_iff.mp hy
    rw [(hf e₀).1, (hf e₀).2]
    exact h _ _ he₀
  · exact h _ _ hy

theorem Equipped.operates (h : w.Equipped) (ho : Operates w w') : w'.Equipped := by
  obtain ⟨t, hs⟩ | ho := ho
  · cases t with
    | serve x =>
      obtain ⟨e, loop, loop', -, -, -, hx, hc, hk⟩ := hs.serveStep.loopStep
      exact h.modify hx (fun _ => ⟨rfl, rfl⟩) (congrArg _ hc) (congrArg _ hk)
    | request j =>
      obtain ⟨isLocked, hv⟩ := hs.stepRequest?
      obtain ⟨b, task, effect, -, -, -, hx, hc, hk⟩ := executors_of_stepRequest? hv
      refine h.modify hx (fun e => ?_) hc hk
      obtain ⟨hcache, hclock, -⟩ := credit_frame task.isFinished effect e
      exact ⟨hcache, hclock⟩
    | expiry | collect | sweep | route | call | opening | send | deadline | abandon =>
      have hf := hs.frame rfl
      refine h.modify (x := 0) (f := id) ?_ (fun _ => ⟨rfl, rfl⟩) hf.caches_length hf.clocks_length
      rw [hf.executors_eq, List.modify_id]
  · intro y e' hy
    cases he : w.executors[y]? with
    | none => exact (ho.added he hy).2
    | some e =>
      obtain ⟨hc, hk⟩ := h _ _ he
      obtain ⟨e₁, he₁, -, hcache⟩ := ho.executors he
      obtain ⟨e₂, he₂, hclock, -⟩ := ho.executor he
      cases he₁.symm.trans hy
      cases he₂.symm.trans hy
      rw [hcache, hclock]
      exact ⟨hc.trans_le ho.caches_length, hk.trans_le ho.clocks_length⟩

/-- Nothing has been requested yet, and executors have what they use. -/
structure IsReady (w : World V) : Prop extends IsFresh w where
  loops : ∀ {x : Nat} {loop : ServeLoop}, w.loopOf x = some loop →
    loop.started = 0 ∧ loop.finished = 0
  equipped : w.Equipped

theorem IsReady.tally (h : w.IsReady) : w.Tally := by
  have hzero (x : Nat) : w.unfinished x = 0 := by
    rw [unfinished, h.requests_eq, List.countP_nil]
  refine ⟨fun _ => hzero _, fun hx => ?_, fun hx _ => (h.loops hx).1⟩
  obtain ⟨hs, hf⟩ := h.loops hx
  rw [hs, hf, hzero]

def IsCancelled (w : World V) (x : Nat) : Prop :=
  ∃ e, w.executors[x]? = some e ∧ e.isCancelled = true

/-- The executor is cancelled, and its loop, if it was started, has exited. -/
def Stopped (w : World V) (x : Nat) : Prop :=
  ∃ e, w.executors[x]? = some e ∧ e.isCancelled = true ∧ e.hasExited = true

theorem Operates.executor (ho : Operates w w') (he : w.executors[x]? = some e) :
    ∃ e' : Executor V, w'.executors[x]? = some e' ∧
      (e.isCancelled = true → e'.isCancelled = true ∧
        (e.hasExited = true → e'.hasExited = true)) := by
  obtain ⟨t, hs⟩ | ho := ho
  · cases t with
    | serve y =>
      obtain ⟨e₀, loop, loop', he₀, hloop, hstep, hx, -⟩ := hs.serveStep.loopStep
      rw [getElem?_executors_modify hx, he]
      split
      next hxy =>
        subst hxy
        cases he.symm.trans he₀
        refine ⟨_, rfl, fun hc => ⟨hc, fun hexited => ?_⟩⟩
        have hphase : loop.phase = .exited := by
          simpa [Executor.hasExited, hloop] using hexited
        generalize w'.requests = requests at hstep
        cases hstep with
        | joins hp => exact absurd hphase hp
        | ends hp | exits hp | takes hp => cases hphase.symm.trans hp
      next => exact ⟨e, rfl, fun hc => ⟨hc, id⟩⟩
    | request j =>
      obtain ⟨isLocked, hv⟩ := hs.stepRequest?
      obtain ⟨b, task, effect, -, -, -, hx, -⟩ := executors_of_stepRequest? hv
      obtain ⟨-, -, hcancelled, hloop⟩ := credit_frame task.isFinished effect e
      rw [getElem?_executors_modify hx, he]
      split
      · refine ⟨_, rfl, fun hc => ⟨hcancelled.trans hc, fun hexited => ?_⟩⟩
        rw [Executor.hasExited, hloop]
        rw [Executor.hasExited] at hexited
        cases hl : e.loop with
        | none => rfl
        | some loop =>
          rw [hl] at hexited
          cases task.isFinished <;> exact hexited
      · exact ⟨e, rfl, fun hc => ⟨hc, id⟩⟩
    | expiry | collect | sweep | route | call | opening | send | deadline | abandon =>
      have hf := hs.frame rfl
      exact ⟨e, hf.executors_eq ▸ he, fun hc => ⟨hc, id⟩⟩
  · obtain ⟨e', he', -, hcancelled, hloop | ⟨-, hc', -⟩⟩ := ho.executor he
    · refine ⟨e', he', fun hc => ⟨hcancelled hc, fun hexited => ?_⟩⟩
      rwa [Executor.hasExited, hloop]
    · exact ⟨e', he', fun hc => absurd (hc.symm.trans hc') (by decide)⟩

theorem IsCancelled.operates (h : w.IsCancelled x) (ho : Operates w w') : w'.IsCancelled x := by
  obtain ⟨e, he, hc⟩ := h
  obtain ⟨e', he', hkeep⟩ := ho.executor he
  exact ⟨e', he', (hkeep hc).1⟩

theorem Stopped.operates (h : w.Stopped x) (ho : Operates w w') : w'.Stopped x := by
  obtain ⟨e, he, hc, hexited⟩ := h
  obtain ⟨e', he', hkeep⟩ := ho.executor he
  exact ⟨e', he', (hkeep hc).1, (hkeep hc).2 hexited⟩

theorem Stopped.isFinished (h : w.Stopped x) (ht : w.Tally) {b : RequestEntry V}
    (hb : w.requests[i]? = some b) (hx : b.executor = x) : b.task.isFinished = true := by
  obtain ⟨e, he, -, hexited⟩ := h
  have hloopOf : w.loopOf x = e.loop := by rw [loopOf, he, Option.bind_some]
  have hzero : w.unfinished x = 0 := by
    cases hloop : e.loop with
    | none => exact ht.idle (hloopOf.trans hloop)
    | some loop =>
      have hphase : loop.phase = .exited := by simpa [Executor.hasExited, hloop] using hexited
      have hstarted := ht.started_eq (hloopOf.trans hloop)
      have hexit := ht.exited (hloopOf.trans hloop) hphase
      omega
  have hnone := List.countP_eq_zero.mp hzero b (List.mem_of_getElem? hb)
  simpa [isPendingOf, hx] using hnone

inductive Stopping (x : Nat) (w : World V) : List Stage → Prop
  | cancels {rest : List Stage} {e : Executor V} (he : w.executors[x]? = some e) :
    Stopping x w (.cancelExecutor x :: .takeExecutor x :: rest)
  | takes {rest : List Stage} (h : w.IsCancelled x) : Stopping x w (.takeExecutor x :: rest)
  | joins {rest : List Stage} (h : w.IsCancelled x) : Stopping x w (.joinExecutor x :: rest)
  | stopped {stages : List Stage} (h : w.Stopped x) : Stopping x w stages

theorem Stopping.proceeds (h : Stopping x w (stage :: rest))
    (hs : w.stepStage? stage = some (first, v)) : Stopping x v (first ++ rest) := by
  have ho := operation_of_stepStage? hs
  cases h with
  | cancels he =>
    obtain ⟨rfl, rfl⟩ :
        [] = first ∧ w.modifyExecutor x ({ · with isCancelled := true }) = v := by
      simpa only [stepStage?, Option.some.injEq, Prod.mk.injEq] using hs
    exact .takes ⟨_, (getElem?_executors_modify rfl x).trans (by rw [if_pos rfl, he]; rfl), rfl⟩
  | takes hc =>
    have hc' := hc.operates (.inr ho)
    obtain ⟨e, he, -⟩ := hc
    simp only [stepStage?, he] at hs
    split at hs <;> cases hs <;> exact .joins hc'
  | joins hc =>
    obtain ⟨e, he, hcancelled⟩ := hc
    simp only [stepStage?, he, Option.elim_some] at hs
    split at hs
    next hexited =>
      cases hs
      exact .stopped ⟨e, he, hcancelled, hexited⟩
    next => cases hs
  | stopped hstopped => exact .stopped (hstopped.operates (.inr ho))

theorem Stopping.operates (h : Stopping x w stages) (ho : Operates w w') :
    Stopping x w' stages := by
  cases h with
  | cancels he =>
    obtain ⟨e', he', -⟩ := ho.executor he
    exact .cancels he'
  | takes hc => exact .takes (hc.operates ho)
  | joins hc => exact .joins (hc.operates ho)
  | stopped hs => exact .stopped (hs.operates ho)

theorem ShutsDown.stopped (h : ShutsDown stages w w') (hs : Stopping x w stages) :
    w'.Stopped x := by
  induction h with
  | done =>
    cases hs with
    | stopped hs => exact hs
  | stage hstep _ ih => exact ih (hs.proceeds hstep)
  | meanwhile hstep _ ih => exact ih (hs.operates hstep)

end World

end CommandBus
