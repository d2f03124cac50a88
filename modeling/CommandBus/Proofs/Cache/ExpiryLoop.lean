import CommandBus.Proofs.Cache.Expiry
import CommandBus.Proofs.Cache.Lifecycle
import Mathlib

namespace CommandBus.Cache

variable {c c' : Cache} {id now : Nat}

theorem current_of_stepStop? (h : c.stepStop? .taking = some (.joining id, c')) :
    c.current = some id := by
  unfold stepStop? at h
  dsimp only at h
  split at h
  next => cases h
  next =>
    split at h <;> cases h
    next hc => exact hc

namespace State

variable {s : State}

/-- Only a store that comes to its end schedules an entry for an earlier time than one there is. -/
theorem Timed.deadlines_apply (h : s.Timed) {operation : Operation}
    (hn : ∀ now r response o, operation = .store now r response o → s.storeHalts now r o = true) :
    ∀ time ∈ (operation.apply s).deadlines, ∃ earlier ∈ s.deadlines, earlier ≤ time := by
  rintro time ⟨key, entry, window, hg, hx⟩
  cases h.wellFormed.arises hg with
  | kept ho => exact ⟨time, ⟨key, entry, window, ho, hx⟩, le_rfl⟩
  | registered => cases hx
  | completed he _ _ _ hover =>
    have hhalts := hn _ _ _ _ rfl
    simp [storeHalts, he, hover] at hhalts
  | stranded he hp =>
    have ho := (h.wellFormed.entry?_eq_some.mp he).1
    cases hx.symm.trans (h.wellFormed.unscheduled ho hp).2
  | @moved now due _ old _ next ho hp hxo hle hd hlt =>
    obtain ⟨-, rfl⟩ := Prod.mk.inj (Option.some_inj.mp hx)
    exact ⟨due, ⟨key, old, _, ho, hxo⟩, hle.trans hlt.le⟩

end State

theorem waitsUntil_le (h : c.state.Timed) {time : Nat} (hm : time ∈ c.state.deadlines)
    (now : Nat) : c.waitsUntil now ≤ time := by
  have hleast : IsLeast c.state.deadlines (sInf c.state.deadlines) :=
    ⟨Nat.sInf_mem ⟨time, hm⟩, fun _ ht => Nat.sInf_le ht⟩
  rw [waitsUntil, h.nextDeadline?_eq_some_iff.mpr hleast, Option.elim_some]
  exact (Nat.min_le_right ..).trans (hleast.2 hm)

namespace Lifecycle

variable {s s' : Lifecycle} {config : Config}

/-- A loop that has been cancelled takes a signal, although another one runs. It can when a start has
overtaken a stop, and then the loop that runs goes on to wait. -/
def Steals (s s' : Lifecycle) : Prop :=
  s.cache.current.isSome = true ∧ s.cache.isSignalled = true ∧ s'.cache.isSignalled = false ∧
    ∃ (id : Nat) (loop : ExpiryLoop), s.cache.loops[id]? = some loop ∧
      loop.isCancelled = true ∧ s'.cache.loops[id]? ≠ some loop

def WatchfulStep (s s' : Lifecycle) : Prop :=
  Step s s' ∧ ¬Steals s s'

theorem getElem?_modifyLoop (c : Cache) (id other : Nat) (f : ExpiryLoop → ExpiryLoop) :
    (c.modifyLoop id f).loops[other]? =
      if id = other then c.loops[other]?.map f else c.loops[other]? := by
  rw [modifyLoop, List.getElem?_modify]
  split
  · rfl
  · exact Option.map_id'

theorem loops_of_loopStep {id now : Nat} (hs : LoopStep c id now c') :
    ∃ old phase, c.loops[id]? = some old ∧ old.phase ≠ .exited ∧
      ∀ other, c'.loops[other]? =
        if id = other then some { old with phase } else c.loops[other]? := by
  have hloops : ∀ {old : ExpiryLoop} {phase : LoopPhase}, c.loops[id]? = some old → ∀ other,
      (c.modifyLoop id ({ · with phase })).loops[other]? =
        if id = other then some { old with phase } else c.loops[other]? := by
    intro old phase hl other
    rw [getElem?_modifyLoop]
    split
    next heq => rw [← heq, hl, Option.map_some]
    next => rfl
  cases hs with
  | look hl hp | exit hl hp | wake hl hp | expire hl hp =>
    exact ⟨_, _, hl, by rw [hp]; exact nofun, hloops hl⟩

/-- A stop waits for each loop that has been cancelled and has yet to exit. -/
def AwaitsExits (s : Lifecycle) : Prop :=
  ∀ (id : Nat) (loop : ExpiryLoop), s.cache.loops[id]? = some loop → loop.isCancelled = true →
    loop.phase ≠ .exited → .joining id ∈ s.stops

theorem AwaitsExits.of_loops_eq (h : AwaitsExits s) (hl : s'.cache.loops = s.cache.loops)
    (hs : ∀ {id}, .joining id ∈ s.stops → .joining id ∈ s'.stops) : AwaitsExits s' :=
  fun id loop hloop hc hp => hs (h id loop (hl ▸ hloop) hc hp)

theorem AwaitsExits.start (h : AwaitsExits s) {p p' : Starting} {starts : List Starting}
    (hs : s.cache.stepStart? p = some (p', c')) :
    AwaitsExits { s with cache := c', starts } := by
  obtain ⟨-, -, rfl⟩ | ⟨-, -, -, -, rfl⟩ | ⟨-, -, rfl⟩ | ⟨-, -, rfl⟩ := stepStart?_cases hs
  · exact h
  · exact h
  · exact h
  · intro id loop hl hc hp
    rw [List.getElem?_append] at hl
    split at hl
    next => exact h id loop hl hc hp
    next =>
      rw [List.getElem?_singleton] at hl
      split at hl <;> cases hl
      cases hc

theorem AwaitsExits.stop (h : AwaitsExits s) {before after : List Stopping} {p p' : Stopping}
    (hstops : s.stops = before ++ p :: after) (hs : s.cache.stepStop? p = some (p', c')) :
    AwaitsExits { s with cache := c', stops := before ++ p' :: after } := by
  have hkeep : ∀ {id}, .joining id ∈ s.stops → p ≠ .joining id →
      .joining id ∈ before ++ p' :: after := by
    intro id hm hne
    rw [hstops] at hm
    simp only [List.mem_append, List.mem_cons] at hm ⊢
    obtain hm | rfl | hm := hm
    · exact .inl hm
    · exact absurd rfl hne
    · exact .inr (.inr hm)
  obtain ⟨rfl, rfl, rfl⟩ | ⟨id, rfl, -, rfl, rfl⟩ | ⟨id, rfl, hexited, rfl, rfl⟩ | ⟨rfl, rfl, rfl⟩ :=
    stepStop?_cases hs
  · exact fun id loop hl hc hp => hkeep (h id loop hl hc hp) nofun
  · intro other loop hl hc hp
    have hl : (s.cache.modifyLoop id ({ · with isCancelled := true })).loops[other]? = some loop :=
      hl
    rw [getElem?_modifyLoop] at hl
    split at hl
    next heq => exact heq ▸ List.mem_append_right _ List.mem_cons_self
    next => exact hkeep (h other loop hl hc hp) nofun
  · intro other loop hl hc hp
    refine hkeep (h other loop hl hc hp) fun heq => ?_
    cases heq
    rw [hasExited, hl, Option.elim_some] at hexited
    exact hp (by simpa using hexited)
  · exact fun id loop hl hc hp => hkeep (h id loop hl hc hp) nofun

theorem AwaitsExits.step (h : AwaitsExits s) (hs : Step s s') : AwaitsExits s' := by
  cases hs with
  | callStart => exact h
  | callStop => exact h.of_loops_eq rfl (List.mem_cons_of_mem _)
  | start _ hs => exact h.start hs
  | stop hstops hs => exact h.stop hstops hs
  | loop hs =>
    obtain ⟨old, phase, ho, hop, hloops⟩ := loops_of_loopStep hs
    intro other loop hl hc hp
    rw [hloops] at hl
    split at hl
    next heq =>
      cases hl
      exact h other old (heq ▸ ho) hc hop
    next => exact h other loop hl hc hp
  | store now r response o =>
    exact h.of_loops_eq (by unfold Cache.store; split <;> rfl) id
  | retrieve | abandon | setConfig => exact h.of_loops_eq rfl id

structure Watched (config : Config) (s : Lifecycle) : Prop extends Consistent s where
  reached : ∃ operations, s.cache.state = ({ config } : State).run operations
  /-- A loop that goes on is the one that runs, or has been cancelled. -/
  alone : ∀ {id loop}, s.cache.loops[id]? = some loop → loop.phase ≠ .exited →
    loop.isCancelled = false → s.cache.current = some id
  watched : ∀ {id loop deadline}, s.cache.current = some id → s.cache.loops[id]? = some loop →
    loop.phase = .waiting deadline → s.cache.isSignalled = true ∨
      ∀ time ∈ s.cache.state.deadlines, deadline ≤ time

namespace Watched

theorem empty (config : Config) : Watched config { cache := ofConfig config } where
  toConsistent := .empty config
  reached := ⟨[], rfl⟩
  alone h := by cases h
  watched h := by cases h

theorem timed (h : Watched config s) : s.cache.state.Timed := by
  obtain ⟨operations, hs⟩ := h.reached
  exact hs ▸ (State.Timed.empty config).run operations

theorem reached_apply (h : Watched config s) (operation : Operation) :
    ∃ operations, operation.apply s.cache.state = ({ config } : State).run operations := by
  obtain ⟨operations, hs⟩ := h.reached
  exact ⟨operations ++ [operation], by rw [State.run_append, hs]; rfl⟩

theorem use (h : Watched config s) (operation : Operation) (hc : SameLoops s.cache c')
    (hs : c'.state = operation.apply s.cache.state) (hl : c'.loops = s.cache.loops)
    (hsig : c'.isSignalled = s.cache.isSignalled)
    (hn : ∀ now r response o, operation = .store now r response o →
      s.cache.state.storeHalts now r o = true) :
    Watched config { s with cache := c' } where
  toConsistent := h.toConsistent.congr hc
  reached := by
    obtain ⟨operations, hr⟩ := h.reached_apply operation
    exact ⟨operations, hs.trans hr⟩
  alone hloop hp hcancelled := hc.current_eq ▸ h.alone (hl ▸ hloop) hp hcancelled
  watched hcurrent hloop hp := by
    refine (h.watched (hc.current_eq ▸ hcurrent) (hl ▸ hloop) hp).imp (hsig ▸ ·) fun hle t ht => ?_
    obtain ⟨earlier, he, hlt⟩ := h.timed.deadlines_apply hn t (hs ▸ ht)
    exact (hle earlier he).trans hlt

theorem store (h : Watched config s) (now : Nat) (r : CommandRequest) (response : Message)
    (o : StoreOptions) : Watched config { s with cache := (s.cache.store now r response o).2 } := by
  have hconsistent := h.toConsistent.congr (sameLoops_store s.cache now r response o)
  cases hs : s.cache.isStarted with
  | false =>
    have heq : (s.cache.store now r response o).2 = s.cache := by simp [Cache.store, hs]
    rw [heq]
    exact h
  | true =>
    have heq : (s.cache.store now r response o).2 = { s.cache with
        state := s.cache.state.store now r response o
        isSignalled := s.cache.isSignalled || !s.cache.state.storeHalts now r o } := by
      simp [Cache.store, hs]
    rw [heq] at hconsistent ⊢
    cases hhalts : s.cache.state.storeHalts now r o with
    | false =>
      exact ⟨hhalts ▸ hconsistent, h.reached_apply (.store now r response o), h.alone,
        fun _ _ _ => .inl (by simp)⟩
    | true =>
      -- the store breaks off before it gives a signal, and before it schedules anything
      refine h.use (.store now r response o) (.of_loops_eq rfl rfl rfl rfl) rfl rfl (by simp) ?_
      rintro _ _ _ _ ⟨⟩
      exact hhalts

theorem alone_loop (h : Watched config s) {id now : Nat} (hs : LoopStep s.cache id now c')
    {other : Nat} {loop : ExpiryLoop} (hl : c'.loops[other]? = some loop)
    (hp : loop.phase ≠ .exited) (hcancelled : loop.isCancelled = false) :
    c'.current = some other := by
  rw [(sameLoops_of_loopStep hs).current_eq]
  obtain ⟨old, phase, ho, hop, hloops⟩ := loops_of_loopStep hs
  rw [hloops] at hl
  split at hl
  next heq =>
    cases hl
    exact h.alone (heq ▸ ho) hop hcancelled
  next => exact h.alone hl hp hcancelled

theorem loop (h : Watched config s) {id now : Nat} (hs : LoopStep s.cache id now c')
    (hn : ¬Steals s { s with cache := c' }) : Watched config { s with cache := c' } := by
  have hsame := sameLoops_of_loopStep hs
  refine ⟨h.toConsistent.congr hsame, ?_, h.alone_loop hs, fun {other loop deadline} hc hl hp => ?_⟩
  · cases hs with
    | look | exit | wake => exact h.reached
    | expire => exact h.reached_apply (.expireOne now)
  · have hcurrent : s.cache.current = some other := hsame.current_eq ▸ hc
    cases hs with
    | look =>
      rw [getElem?_modifyLoop] at hl
      split at hl
      next =>
        obtain ⟨old, -, rfl⟩ := Option.map_eq_some_iff.mp hl
        cases hp
        exact .inr fun time ht => waitsUntil_le h.timed ht now
      next => exact h.watched hcurrent hl hp
    | exit =>
      rw [getElem?_modifyLoop] at hl
      split at hl
      next =>
        obtain ⟨old, -, rfl⟩ := Option.map_eq_some_iff.mp hl
        cases hp
      next => exact h.watched hcurrent hl hp
    | @wake old _ ho hop hsignalled =>
      have hl : (s.cache.modifyLoop id ({ · with phase := .looking })).loops[other]? =
          some loop := hl
      rw [getElem?_modifyLoop] at hl
      split at hl
      next =>
        obtain ⟨old, -, rfl⟩ := Option.map_eq_some_iff.mp hl
        cases hp
      next hne =>
        -- the loop that takes the signal is the one that runs
        cases hcancelled : old.isCancelled with
        | true =>
          have hloops := getElem?_modifyLoop s.cache id id ({ · with phase := .looking })
          rw [if_pos rfl, ho, Option.map_some] at hloops
          refine absurd ⟨by simp [hcurrent], hsignalled, rfl, id, old, ho, hcancelled, ?_⟩ hn
          intro heq
          have hphase := congrArg ExpiryLoop.phase (Option.some_inj.mp (hloops.symm.trans heq))
          exact LoopPhase.noConfusion (hphase.trans hop)
        | false =>
          have hrunning := h.alone ho (by rw [hop]; exact nofun) hcancelled
          exact absurd (Option.some_inj.mp (hrunning.symm.trans hcurrent)) hne
    | expire =>
      have hl : (s.cache.modifyLoop id ({ · with phase := .looking })).loops[other]? =
          some loop := hl
      rw [getElem?_modifyLoop] at hl
      split at hl
      next =>
        obtain ⟨old, -, rfl⟩ := Option.map_eq_some_iff.mp hl
        cases hp
      next =>
        refine (h.watched hcurrent hl hp).imp_right fun hle t ht => ?_
        obtain ⟨earlier, he, hlt⟩ :=
          @State.Timed.deadlines_apply _ h.timed (.expireOne now) (fun _ _ _ _ => nofun) t ht
        exact (hle earlier he).trans hlt

theorem current_of_spawning (h : Watched config s) (hm : .spawning ∈ s.starts) :
    s.cache.current = none := by
  refine h.unheld ?_
  have hpos : 0 < s.starts.countP Starting.holdsLock := List.countP_pos_iff.mpr ⟨_, hm, rfl⟩
  by_contra hn
  rw [h.holders, if_neg hn] at hpos
  exact hpos.false

theorem start (h : Watched config s) {before after : List Starting} {p p' : Starting}
    (hstarts : s.starts = before ++ p :: after) (hs : s.cache.stepStart? p = some (p', c')) :
    Watched config { s with cache := c', starts := before ++ p' :: after } := by
  have hconsistent := h.toConsistent.start hstarts hs
  obtain ⟨rfl, rfl, rfl⟩ | ⟨rfl, -, -, rfl, rfl⟩ | ⟨rfl, rfl, rfl⟩ | ⟨rfl, rfl, rfl⟩ :=
    stepStart?_cases hs
  · exact ⟨hconsistent, h.reached, h.alone, h.watched⟩
  · exact ⟨hconsistent, h.reached, h.alone, h.watched⟩
  · exact ⟨hconsistent, h.reached, h.alone, h.watched⟩
  · have hnone := h.current_of_spawning (hstarts ▸ by simp)
    refine ⟨hconsistent, h.reached, fun {id loop} hl hp hcancelled => ?_,
      fun {id loop deadline} hc hl hp => ?_⟩
    · rw [List.getElem?_append] at hl
      split at hl
      next =>
        have hcurrent := h.alone hl hp hcancelled
        rw [hnone] at hcurrent
        cases hcurrent
      next hge =>
        have hlt : id - s.cache.loops.length < 1 := (List.getElem?_eq_some_iff.mp hl).1
        exact congrArg some (by omega)
    · obtain rfl := Option.some_inj.mp hc
      rw [List.getElem?_concat_length, Option.some_inj] at hl
      subst hl
      cases hp

theorem stop (h : Watched config s) {before after : List Stopping} {p p' : Stopping}
    (hstops : s.stops = before ++ p :: after) (hs : s.cache.stepStop? p = some (p', c')) :
    Watched config { s with cache := c', stops := before ++ p' :: after } := by
  have hconsistent := h.toConsistent.stop hstops hs
  obtain ⟨rfl, rfl, rfl⟩ | ⟨id, rfl, -, rfl, rfl⟩ | ⟨id, rfl, -, rfl, rfl⟩ | ⟨rfl, rfl, rfl⟩ :=
    stepStop?_cases hs
  · exact ⟨hconsistent, h.reached, h.alone, h.watched⟩
  · refine ⟨hconsistent, h.reached, fun {other loop} hl hp hcancelled => ?_, nofun⟩
    have hl : (s.cache.modifyLoop id ({ · with isCancelled := true })).loops[other]? = some loop :=
      hl
    rw [getElem?_modifyLoop] at hl
    split at hl
    next =>
      obtain ⟨old, -, rfl⟩ := Option.map_eq_some_iff.mp hl
      cases hcancelled
    next hne =>
      have hcurrent := (current_of_stepStop? hs).symm.trans (h.alone hl hp hcancelled)
      exact absurd (Option.some_inj.mp hcurrent) hne
  · exact ⟨hconsistent, h.reached, h.alone, h.watched⟩
  · exact ⟨hconsistent, h.reached, h.alone, h.watched⟩

theorem step (h : Watched config s) (hs : WatchfulStep s s') : Watched config s' := by
  obtain ⟨hs, hn⟩ := hs
  cases hs with
  | callStart => exact ⟨h.toConsistent.step .callStart, h.reached, h.alone, h.watched⟩
  | callStop => exact ⟨h.toConsistent.step .callStop, h.reached, h.alone, h.watched⟩
  | start hstarts hs => exact h.start hstarts hs
  | stop hstops hs => exact h.stop hstops hs
  | loop hs => exact h.loop hs hn
  | retrieve now r cacheable acrossInvokers =>
    exact h.use (.retrieve now r cacheable acrossInvokers) (.of_loops_eq rfl rfl rfl rfl)
      rfl rfl rfl fun _ _ _ _ => nofun
  | store now r response o => exact h.store now r response o
  | abandon r =>
    exact h.use (.abandon r) (.of_loops_eq rfl rfl rfl rfl) rfl rfl rfl
      fun _ _ _ _ => nofun
  | setConfig config =>
    exact h.use (.setConfig config) (.of_loops_eq rfl rfl rfl rfl) rfl rfl rfl
      fun _ _ _ _ => nofun

theorem run (h : Watched config s) (hr : Relation.ReflTransGen WatchfulStep s s') :
    Watched config s' := by
  induction hr with
  | refl => exact h
  | tail _ hs ih => exact ih.step hs

end Watched

end Lifecycle

end CommandBus.Cache
