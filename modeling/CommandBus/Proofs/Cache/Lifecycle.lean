import CommandBus.Cache
import Mathlib

namespace CommandBus.Cache

def IsRunning (c : Cache) : Prop :=
  ∃ id loop, c.current = some id ∧ c.loops[id]? = some loop ∧ loop.isCancelled = false ∧
    loop.phase ≠ .exited

def Starting.holdsLock : Starting → Bool
  | .marking | .spawning => true
  | _ => false

@[simp]
theorem Starting.holdsLock_locking : holdsLock .locking = false := rfl

@[simp]
theorem Starting.holdsLock_marking : holdsLock .marking = true := rfl

@[simp]
theorem Starting.holdsLock_spawning : holdsLock .spawning = true := rfl

@[simp]
theorem Starting.holdsLock_done : holdsLock .done = false := rfl

/-- A stop that has taken the loop and has yet to mark the cache stopped. -/
def Stopping.isUnderWay : Stopping → Bool
  | .joining _ | .clearing => true
  | _ => false

@[simp]
theorem Stopping.isUnderWay_taking : isUnderWay .taking = false := rfl

@[simp]
theorem Stopping.isUnderWay_joining (id : Nat) : isUnderWay (.joining id) = true := rfl

@[simp]
theorem Stopping.isUnderWay_clearing : isUnderWay .clearing = true := rfl

@[simp]
theorem Stopping.isUnderWay_done : isUnderWay .done = false := rfl

/-- A cache, and how far each call of `start` and of `stop` has come. -/
structure Lifecycle where
  cache : Cache
  starts : List Starting := []
  stops : List Stopping := []

variable {c c' : Cache}

/-- What a step of starting does: nothing if there is a loop, otherwise it locks, marks and spawns
in turn. -/
theorem stepStart?_cases {p p' : Starting} (h : c.stepStart? p = some (p', c')) :
    (p = .locking ∧ p' = .done ∧ c' = c) ∨
    (p = .locking ∧ c.isLocked = false ∧ c.current = none ∧ p' = .marking ∧
      c' = { c with isLocked := true }) ∨
    (p = .marking ∧ p' = .spawning ∧ c' = { c with isStarted := true }) ∨
    (p = .spawning ∧ p' = .done ∧ c' = { c with
      loops := c.loops ++ [({} : ExpiryLoop)], current := some c.loops.length,
      isLocked := false }) := by
  cases p with
  | locking =>
    unfold stepStart? at h
    dsimp only at h
    split at h
    · cases h
    next hl =>
      split at h <;> cases h
      · exact .inl ⟨rfl, rfl, rfl⟩
      next hc =>
        exact .inr (.inl ⟨rfl, by simpa using hl, by simpa using hc, rfl, rfl⟩)
  | marking =>
    cases h
    exact .inr (.inr (.inl ⟨rfl, rfl, rfl⟩))
  | spawning =>
    cases h
    exact .inr (.inr (.inr ⟨rfl, rfl, rfl⟩))
  | done => cases h

/-- What a step of stopping does: nothing if there is no loop, otherwise it takes the loop, waits for
its exit and marks the cache stopped. -/
theorem stepStop?_cases {p p' : Stopping} (h : c.stepStop? p = some (p', c')) :
    (p = .taking ∧ p' = .done ∧ c' = c) ∨
    (∃ id, p = .taking ∧ c.isLocked = false ∧ p' = .joining id ∧
      c' = { c.modifyLoop id ({ · with isCancelled := true }) with current := none }) ∨
    (∃ id, p = .joining id ∧ c.hasExited id = true ∧ p' = .clearing ∧ c' = c) ∨
    (p = .clearing ∧ p' = .done ∧ c' = { c with isStarted := false }) := by
  cases p with
  | taking =>
    unfold stepStop? at h
    dsimp only at h
    split at h
    · cases h
    next hl =>
      split at h <;> cases h
      · exact .inl ⟨rfl, rfl, rfl⟩
      · exact .inr (.inl ⟨_, rfl, by simpa using hl, rfl, rfl⟩)
  | joining id =>
    unfold stepStop? at h
    dsimp only at h
    split at h <;> cases h
    next hexited => exact .inr (.inr (.inl ⟨id, rfl, hexited, rfl, rfl⟩))
  | clearing =>
    cases h
    exact .inr (.inr (.inr ⟨rfl, rfl, rfl⟩))
  | done => cases h

structure SameLoops (c c' : Cache) : Prop where
  isStarted_eq : c'.isStarted = c.isStarted
  isLocked_eq : c'.isLocked = c.isLocked
  current_eq : c'.current = c.current
  /-- Loops exit only when they are cancelled. -/
  goesOn : ∀ {id : Nat} {loop : ExpiryLoop}, c.loops[id]? = some loop → loop.isCancelled = false →
    loop.phase ≠ .exited → ∃ loop', c'.loops[id]? = some loop' ∧ loop'.isCancelled = false ∧
      loop'.phase ≠ .exited

theorem SameLoops.of_loops_eq (hs : c'.isStarted = c.isStarted) (hl : c'.isLocked = c.isLocked)
    (hc : c'.current = c.current) (h : c'.loops = c.loops) : SameLoops c c' :=
  ⟨hs, hl, hc, fun hid hn hp => ⟨_, h ▸ hid, hn, hp⟩⟩

theorem SameLoops.of_modifyLoop (hs : c'.isStarted = c.isStarted) (hl : c'.isLocked = c.isLocked)
    (hc : c'.current = c.current) {id : Nat} {f : ExpiryLoop → ExpiryLoop}
    (h : c'.loops = c.loops.modify id f)
    (hf : ∀ loop, c.loops[id]? = some loop → loop.isCancelled = false →
      (f loop).isCancelled = false ∧ (f loop).phase ≠ .exited) : SameLoops c c' := by
  refine ⟨hs, hl, hc, fun {other loop} hid hn hp => ?_⟩
  rw [h, List.getElem?_modify, hid]
  by_cases hi : id = other
  · subst hi
    obtain ⟨hn', hp'⟩ := hf loop hid hn
    exact ⟨f loop, by simp, hn', hp'⟩
  · exact ⟨loop, by simp [hi], hn, hp⟩

def waitsUntil (c : Cache) (now : Nat) : Nat :=
  c.state.nextDeadline?.elim (now + longestWait) (min (now + longestWait))

/-- What a loop may do next. Of several things that are ready it may do any. -/
inductive LoopStep (c : Cache) (id now : Nat) : Cache → Prop
  | look {loop : ExpiryLoop} (hl : c.loops[id]? = some loop) (hp : loop.phase = .looking) :
    LoopStep c id now (c.modifyLoop id ({ · with phase := .waiting (c.waitsUntil now) }))
  | exit {loop : ExpiryLoop} {deadline : Nat} (hl : c.loops[id]? = some loop)
    (hp : loop.phase = .waiting deadline) (hc : loop.isCancelled = true) :
    LoopStep c id now (c.modifyLoop id ({ · with phase := .exited }))
  | wake {loop : ExpiryLoop} {deadline : Nat} (hl : c.loops[id]? = some loop)
    (hp : loop.phase = .waiting deadline) (hs : c.isSignalled = true) :
    LoopStep c id now { c.modifyLoop id ({ · with phase := .looking }) with isSignalled := false }
  | expire {loop : ExpiryLoop} {deadline : Nat} (hl : c.loops[id]? = some loop)
    (hp : loop.phase = .waiting deadline) (hle : deadline ≤ now) :
    LoopStep c id now ({ c with state := (c.state.expireOne now).2 }.modifyLoop id
      ({ · with phase := .looking }))

theorem loopStep_of_stepLoop? {id now : Nat} (h : c.stepLoop? id now = some c') : LoopStep c id now c' := by
  unfold stepLoop? at h
  obtain ⟨loop, hl, h⟩ := Option.bind_eq_some_iff.mp h
  split at h
  next hp =>
    cases h
    exact .look hl hp
  next deadline hp =>
    split at h
    next hc =>
      cases h
      exact .exit hl hp hc
    next hc =>
      split at h
      next hs =>
        cases h
        exact .wake hl hp hs
      next =>
        split at h <;> cases h
        next hle => exact .expire hl hp hle
  next => cases h

theorem sameLoops_of_loopStep {id now : Nat} (h : LoopStep c id now c') : SameLoops c c' := by
  cases h with
  | look | wake | expire => exact .of_modifyLoop rfl rfl rfl rfl fun _ _ hn => ⟨hn, nofun⟩
  | exit hl _ hc =>
    refine .of_modifyLoop rfl rfl rfl rfl fun loop hloop hn => ?_
    rw [hl, Option.some_inj] at hloop
    rw [← hloop, hc] at hn
    cases hn

theorem sameLoops_store (c : Cache) (now : Nat) (r : CommandRequest) (response : Message)
    (o : StoreOptions) : SameLoops c (c.store now r response o).2 := by
  unfold store
  split <;> exact .of_loops_eq rfl rfl rfl rfl

namespace Lifecycle

/-- What may happen next: a call is made or goes on, a loop does, or the cache is used. -/
inductive Step (s : Lifecycle) : Lifecycle → Prop
  | callStart : Step s { s with starts := .locking :: s.starts }
  | callStop : Step s { s with stops := .taking :: s.stops }
  | start {before after : List Starting} {p p' : Starting} {cache : Cache}
    (h : s.starts = before ++ p :: after) (hs : s.cache.stepStart? p = some (p', cache)) :
    Step s { s with cache, starts := before ++ p' :: after }
  | stop {before after : List Stopping} {p p' : Stopping} {cache : Cache}
    (h : s.stops = before ++ p :: after) (hs : s.cache.stepStop? p = some (p', cache)) :
    Step s { s with cache, stops := before ++ p' :: after }
  | loop {id now : Nat} {cache : Cache} (hs : LoopStep s.cache id now cache) :
    Step s { s with cache }
  | retrieve (now : Nat) (r : CommandRequest) (cacheable acrossInvokers : Bool) :
    Step s { s with cache := (s.cache.retrieve now r cacheable acrossInvokers).2 }
  | store (now : Nat) (r : CommandRequest) (response : Message) (o : StoreOptions) :
    Step s { s with cache := (s.cache.store now r response o).2 }
  | abandon (r : CommandRequest) : Step s { s with cache := (s.cache.abandon r).2 }
  | setConfig (config : Config) : Step s { s with cache := s.cache.setConfig config }

def IsAtRest (s : Lifecycle) : Prop :=
  (∀ p ∈ s.starts, p = .done) ∧ ∀ p ∈ s.stops, p = .done

def isStopping (s : Lifecycle) : Bool :=
  s.stops.any Stopping.isUnderWay

def Overtakes (s s' : Lifecycle) : Prop :=
  s.cache.isLocked = false ∧ s'.cache.isLocked = true ∧ s.isStopping = true

def OrderlyStep (s s' : Lifecycle) : Prop :=
  Step s s' ∧ ¬Overtakes s s'

structure Consistent (s : Lifecycle) : Prop where
  running : s.cache.current.isSome → s.cache.IsRunning
  holders : s.starts.countP Starting.holdsLock = if s.cache.isLocked then 1 else 0
  unheld : s.cache.isLocked = true → s.cache.current = none
  started : s.cache.isStarted = true →
    s.cache.current.isSome ∨ .spawning ∈ s.starts ∨ s.isStopping = true

variable {s s' : Lifecycle}

theorem Consistent.empty (config : Config) : Consistent { cache := ofConfig config } :=
  ⟨nofun, rfl, nofun, nofun⟩

theorem Consistent.congr (h : Consistent s) (hc : SameLoops s.cache c') :
    Consistent { s with cache := c' } := by
  refine ⟨fun hsome => ?_, ?_, fun hl => ?_, fun hs => ?_⟩
  · rw [hc.current_eq] at hsome
    obtain ⟨id, loop, hid, hloop, hn, hp⟩ := h.running hsome
    obtain ⟨loop', hloop', hn', hp'⟩ := hc.goesOn hloop hn hp
    exact ⟨id, loop', hc.current_eq.trans hid, hloop', hn', hp'⟩
  · rw [hc.isLocked_eq]
    exact h.holders
  · rw [hc.current_eq]
    exact h.unheld (hc.isLocked_eq ▸ hl)
  · rw [hc.current_eq]
    exact h.started (hc.isStarted_eq ▸ hs)

theorem countP_replace {α : Type} (f : α → Bool) (before after : List α) (a b : α) :
    (before ++ b :: after).countP f + (f a).toNat =
      (before ++ a :: after).countP f + (f b).toNat := by
  simp only [List.countP_append, List.countP_cons, Bool.toNat]
  cases f a <;> cases f b <;> simp <;> omega

theorem Consistent.start (h : Consistent s) {before after : List Starting} {p p' : Starting}
    (hstarts : s.starts = before ++ p :: after) (hs : s.cache.stepStart? p = some (p', c')) :
    Consistent { s with cache := c', starts := before ++ p' :: after } := by
  have hcount := countP_replace Starting.holdsLock before after p p'
  rw [← hstarts, h.holders] at hcount
  have hstarted := h.started
  rw [hstarts] at hstarted
  obtain ⟨rfl, rfl, rfl⟩ | ⟨rfl, hl, hc, rfl, rfl⟩ | ⟨rfl, rfl, rfl⟩ | ⟨rfl, rfl, rfl⟩ :=
    stepStart?_cases hs
  · exact ⟨h.running, hcount, h.unheld, by simpa [isStopping] using hstarted⟩
  · refine ⟨fun hsome => ?_, ?_, fun _ => hc, by simpa [isStopping] using hstarted⟩
    · rw [hc] at hsome
      cases hsome
    · rw [hl] at hcount
      exact hcount
  · exact ⟨h.running, by simpa using hcount, h.unheld, fun _ => .inr (.inl (by simp))⟩
  · refine ⟨fun _ => ⟨_, {}, rfl, by simp, rfl, nofun⟩, ?_, nofun, fun _ => .inl rfl⟩
    -- the lock had one holder, which is done
    have hle : (if s.cache.isLocked then 1 else 0) ≤ 1 := by split <;> simp
    simp only [Starting.holdsLock_spawning, Starting.holdsLock_done, Bool.toNat_true,
      Bool.toNat_false] at hcount
    have hnone : (before ++ .done :: after).countP Starting.holdsLock = 0 := by omega
    exact hnone

theorem Consistent.stop (h : Consistent s) {before after : List Stopping} {p p' : Stopping}
    (hstops : s.stops = before ++ p :: after) (hs : s.cache.stepStop? p = some (p', c')) :
    Consistent { s with cache := c', stops := before ++ p' :: after } := by
  have hstarted := h.started
  rw [isStopping, hstops] at hstarted
  obtain ⟨rfl, rfl, rfl⟩ | ⟨id, rfl, hl, rfl, rfl⟩ | ⟨id, rfl, -, rfl, rfl⟩ | ⟨rfl, rfl, rfl⟩ :=
    stepStop?_cases hs
  · exact ⟨h.running, h.holders, h.unheld, by simpa [isStopping] using hstarted⟩
  · exact ⟨nofun, h.holders, fun _ => rfl, fun _ => .inr (.inr (by simp [isStopping]))⟩
  · exact ⟨h.running, h.holders, h.unheld, fun _ => .inr (.inr (by simp [isStopping]))⟩
  · exact ⟨h.running, h.holders, h.unheld, nofun⟩

theorem Consistent.step (h : Consistent s) (hs : Step s s') : Consistent s' := by
  cases hs with
  | callStart =>
    refine ⟨h.running, ?_, h.unheld, fun hs => ?_⟩
    · simpa using h.holders
    · simpa [isStopping] using h.started hs
  | callStop => exact ⟨h.running, h.holders, h.unheld, fun hs => by
      simpa [isStopping] using h.started hs⟩
  | start hstarts hs => exact h.start hstarts hs
  | stop hstops hs => exact h.stop hstops hs
  | loop hs => exact h.congr (sameLoops_of_loopStep hs)
  | retrieve => exact h.congr (.of_loops_eq rfl rfl rfl rfl)
  | store now r response o => exact h.congr (sameLoops_store s.cache now r response o)
  | abandon => exact h.congr (.of_loops_eq rfl rfl rfl rfl)
  | setConfig => exact h.congr (.of_loops_eq rfl rfl rfl rfl)

structure Orderly (s : Lifecycle) : Prop where
  consistent : Consistent s
  started_of_current : s.cache.current.isSome → s.cache.isStarted = true
  started_of_spawning : .spawning ∈ s.starts → s.cache.isStarted = true
  stopping : s.isStopping = true → s.cache.isLocked = false ∧ s.cache.current = none

theorem Orderly.empty (config : Config) : Orderly { cache := ofConfig config } :=
  ⟨.empty config, nofun, nofun, nofun⟩

theorem Orderly.congr (h : Orderly s) (hc : SameLoops s.cache c') :
    Orderly { s with cache := c' } := by
  refine ⟨h.consistent.congr hc, fun hsome => ?_, fun hm => ?_, fun hs => ?_⟩
  · exact hc.isStarted_eq.trans (h.started_of_current (hc.current_eq ▸ hsome))
  · exact hc.isStarted_eq.trans (h.started_of_spawning hm)
  · rw [hc.isLocked_eq, hc.current_eq]
    exact h.stopping hs

theorem Orderly.not_isStopping (h : Orderly s) {p : Starting} (hp : p ∈ s.starts)
    (hl : p.holdsLock = true) : s.isStopping = false := by
  have hpos : 0 < s.starts.countP Starting.holdsLock := List.countP_pos_iff.mpr ⟨p, hp, hl⟩
  rw [h.consistent.holders] at hpos
  cases hs : s.isStopping with
  | false => rfl
  | true =>
    rw [(h.stopping hs).1] at hpos
    cases hpos

theorem Orderly.start (h : Orderly s) {before after : List Starting} {p p' : Starting}
    (hstarts : s.starts = before ++ p :: after) (hs : s.cache.stepStart? p = some (p', c'))
    (ho : ¬Overtakes s { s with cache := c', starts := before ++ p' :: after }) :
    Orderly { s with cache := c', starts := before ++ p' :: after } := by
  have hconsistent := h.consistent.start hstarts hs
  have hspawning := h.started_of_spawning
  have hmem : p ∈ s.starts := by simp [hstarts]
  rw [hstarts] at hspawning
  obtain ⟨rfl, rfl, rfl⟩ | ⟨rfl, hl, hc, rfl, rfl⟩ | ⟨rfl, rfl, rfl⟩ | ⟨rfl, rfl, rfl⟩ :=
    stepStart?_cases hs
  · exact ⟨hconsistent, h.started_of_current, by simpa using hspawning, h.stopping⟩
  · refine ⟨hconsistent, h.started_of_current, by simpa using hspawning, fun hstop => ?_⟩
    exact absurd ⟨hl, rfl, hstop⟩ ho
  · exact ⟨hconsistent, fun _ => rfl, fun _ => rfl, h.stopping⟩
  · have hstarted : s.cache.isStarted = true := hspawning (by simp)
    refine ⟨hconsistent, fun _ => hstarted, fun _ => hstarted, fun hstop => ?_⟩
    exact absurd (hstop.symm.trans (h.not_isStopping hmem rfl)) (by simp)

theorem Orderly.stop (h : Orderly s) {before after : List Stopping} {p p' : Stopping}
    (hstops : s.stops = before ++ p :: after) (hs : s.cache.stepStop? p = some (p', c')) :
    Orderly { s with cache := c', stops := before ++ p' :: after } := by
  have hconsistent := h.consistent.stop hstops hs
  have hstopping := h.stopping
  rw [isStopping, hstops] at hstopping
  obtain ⟨rfl, rfl, rfl⟩ | ⟨id, rfl, hl, rfl, rfl⟩ | ⟨id, rfl, -, rfl, rfl⟩ | ⟨rfl, rfl, rfl⟩ :=
    stepStop?_cases hs
  · exact ⟨hconsistent, h.started_of_current, h.started_of_spawning,
      by simpa [isStopping] using hstopping⟩
  · exact ⟨hconsistent, nofun, h.started_of_spawning, fun _ => ⟨hl, rfl⟩⟩
  · exact ⟨hconsistent, h.started_of_current, h.started_of_spawning,
      fun _ => hstopping (by simp)⟩
  · obtain ⟨hl, hc⟩ := hstopping (by simp)
    refine ⟨hconsistent, fun hsome => ?_, fun hm => ?_, fun _ => ⟨hl, hc⟩⟩
    · rw [hc] at hsome
      cases hsome
    · have hno := h.not_isStopping hm rfl
      rw [isStopping, hstops] at hno
      simp at hno

theorem Orderly.step (h : Orderly s) (hs : OrderlyStep s s') : Orderly s' := by
  obtain ⟨hs, ho⟩ := hs
  have hconsistent := h.consistent.step hs
  cases hs with
  | callStart => exact ⟨hconsistent, h.started_of_current, by simpa using h.started_of_spawning,
      h.stopping⟩
  | callStop => exact ⟨hconsistent, h.started_of_current, h.started_of_spawning, fun hs =>
      h.stopping (by simpa [isStopping] using hs)⟩
  | start hstarts hs => exact h.start hstarts hs ho
  | stop hstops hs => exact h.stop hstops hs
  | loop hs => exact h.congr (sameLoops_of_loopStep hs)
  | retrieve => exact h.congr (.of_loops_eq rfl rfl rfl rfl)
  | store now r response o => exact h.congr (sameLoops_store s.cache now r response o)
  | abandon => exact h.congr (.of_loops_eq rfl rfl rfl rfl)
  | setConfig => exact h.congr (.of_loops_eq rfl rfl rfl rfl)

theorem Consistent.run (h : Consistent s) (hr : Relation.ReflTransGen Step s s') :
    Consistent s' := by
  induction hr with
  | refl => exact h
  | tail _ hs ih => exact ih.step hs

theorem Orderly.run (h : Orderly s) (hr : Relation.ReflTransGen OrderlyStep s s') :
    Orderly s' := by
  induction hr with
  | refl => exact h
  | tail _ hs ih => exact ih.step hs

theorem isStopping_of_isAtRest (h : s.IsAtRest) : s.isStopping = false := by
  refine List.any_eq_false.mpr fun p hp => ?_
  rw [h.2 p hp]
  exact Bool.false_ne_true

theorem Consistent.isRunning (h : Consistent s) (hrest : s.IsAtRest)
    (hs : s.cache.isStarted = true) : s.cache.IsRunning := by
  obtain hc | hm | hstop := h.started hs
  · exact h.running hc
  · cases hrest.1 _ hm
  · rw [isStopping_of_isAtRest hrest] at hstop
    cases hstop

def started (config : Config) : Lifecycle where
  cache := { ofConfig config with isStarted := true, loops := [{}], current := some 0 }
  starts := [.done]

theorem OrderlyStep.of_stops_eq_nil (hs : Step s s') (hn : s.stops = []) : OrderlyStep s s' := by
  refine ⟨hs, fun ho => ?_⟩
  have hstop := ho.2.2
  rw [isStopping, hn] at hstop
  cases hstop

theorem run_of_orderly (h : Relation.ReflTransGen OrderlyStep s s') :
    Relation.ReflTransGen Step s s' :=
  h.lift id fun _ _ hs => hs.1

theorem run_started (config : Config) :
    Relation.ReflTransGen OrderlyStep { cache := ofConfig config } (started config) :=
  .tail (.tail (.tail (.tail .refl
    (.of_stops_eq_nil .callStart rfl))
    (.of_stops_eq_nil (@Step.start _ [] _ _ _ _ rfl rfl) rfl))
    (.of_stops_eq_nil (@Step.start _ [] _ _ _ _ rfl rfl) rfl))
    (.of_stops_eq_nil (@Step.start _ [] _ _ _ _ rfl rfl) rfl)

/-- Once all calls have returned, a cache that accepts stores has a running loop; and if no start
has overtaken a stop, a cache with a running loop accepts them. -/
theorem started_iff_running (config : Config) (s : Lifecycle) (hrest : s.IsAtRest)
    (h : Relation.ReflTransGen Step { cache := ofConfig config } s) :
    (s.cache.isStarted = true → s.cache.IsRunning) ∧
      (Relation.ReflTransGen OrderlyStep { cache := ofConfig config } s →
        (s.cache.isStarted = true ↔ s.cache.IsRunning)) := by
  have hrunning := ((Consistent.empty config).run h).isRunning hrest
  refine ⟨hrunning, fun ho => ⟨hrunning, ?_⟩⟩
  rintro ⟨id, -, hid, -⟩
  exact ((Orderly.empty config).run ho).started_of_current (by simp [hid])

theorem started_runs :
    (started {}).cache.isStarted = true ↔ (started {}).cache.IsRunning :=
  (started_iff_running {} (started {}) ⟨by simp [started], by simp [started]⟩
    (run_of_orderly (run_started {}))).2 (run_started {})

/-- A cache is started, and is to be stopped; it is started anew before the stop has seen its loop
exit. At rest its new loop runs, and it accepts no response. -/
theorem overtaken_stop_clears_started :
    ∃ s : Lifecycle, Relation.ReflTransGen Step { cache := ofConfig {} } s ∧ s.IsAtRest ∧
      s.cache.IsRunning ∧ ∀ now r response o,
        (s.cache.store now r response o).1 = some (.error .notStarted) := by
  let cancelled : ExpiryLoop := { isCancelled := true }
  let exited : ExpiryLoop := { phase := .exited, isCancelled := true }
  have hstarted := run_of_orderly (run_started {})
  have htaken : Relation.ReflTransGen Step (started {})
      { cache := { isStarted := true, loops := [cancelled] }
        starts := [.done], stops := [.joining 0] } :=
    .tail (.tail .refl .callStop) (@Step.stop _ [] _ _ _ _ rfl rfl)
  have hanew : Relation.ReflTransGen Step
      { cache := { isStarted := true, loops := [cancelled] }
        starts := [.done], stops := [.joining 0] }
      { cache := { isStarted := true, loops := [cancelled, {}], current := some 1 }
        starts := [.done, .done], stops := [.joining 0] } :=
    .tail (.tail (.tail (.tail .refl .callStart) (@Step.start _ [] _ _ _ _ rfl rfl))
      (@Step.start _ [] _ _ _ _ rfl rfl)) (@Step.start _ [] _ _ _ _ rfl rfl)
  have hexited : Relation.ReflTransGen Step
      { cache := { isStarted := true, loops := [cancelled, {}], current := some 1 }
        starts := [.done, .done], stops := [.joining 0] }
      { cache := { isStarted := true, loops := [exited, {}], current := some 1 }
        starts := [.done, .done], stops := [.joining 0] } :=
    .tail (.tail .refl (@Step.loop _ 0 0 _ (.look rfl rfl)))
      (@Step.loop _ 0 0 _ (.exit rfl rfl rfl))
  have hcleared : Relation.ReflTransGen Step
      { cache := { isStarted := true, loops := [exited, {}], current := some 1 }
        starts := [.done, .done], stops := [.joining 0] }
      { cache := { loops := [exited, {}], current := some 1 }
        starts := [.done, .done], stops := [.done] } :=
    .tail (.tail .refl (@Step.stop _ [] _ _ _ _ rfl rfl)) (@Step.stop _ [] _ _ _ _ rfl rfl)
  refine ⟨_, (((hstarted.trans htaken).trans hanew).trans hexited).trans hcleared, ?_, ?_, ?_⟩
  · exact ⟨by simp, by simp⟩
  · exact ⟨1, {}, rfl, rfl, rfl, nofun⟩
  · exact fun _ _ _ _ => rfl

end Lifecycle

end CommandBus.Cache
