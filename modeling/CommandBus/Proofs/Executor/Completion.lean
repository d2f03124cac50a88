import CommandBus.Proofs.Executor.Answered
import CommandBus.Proofs.World.Attended
import CommandBus.Proofs.World.Shutdown
import Mathlib

namespace CommandBus

namespace Request.Task

variable {V : Type} {c : Command V} {t : Task V} {s : Surroundings} {phase : Phase V}
  {state : Cache.State} {effect : Effect V} {key : Cache.EntryKey}

/-- The steps that an execution takes at most until its entry is settled. -/
def effort (t : Task V) : Nat :=
  match t.phase with
  | .executing => 3
  | .handling .. => 2
  | .storing .. => 1
  | _ => 0

theorem effort_pos (h : t.hasReservation = true) : 0 < t.effort := by
  revert h
  rw [hasReservation, effort]
  cases t.phase <;> simp

/-- An execution goes on for fewer steps with its entry, or settles it, or drops its reservation. -/
theorem Goes.effort_lt (hg : t.Goes c s phase state effect) (hres : t.hasReservation = true)
    (hs : s.cache.state.WellFormed) (hk : s.cache.state.Reserves t.correlation key)
    (hp : state.promise key.serial = .pending) :
    ({ t with phase } : Task V).hasReservation = true ∧
        ({ t with phase } : Task V).effort < t.effort ∨
      ∃ r, effect = .release r ∧ state ≠ (s.cache.state.abandon r).2 := by
  cases hg with
  | rejected h | invoked h | returned h | timedOut h =>
    left
    simp only [effort, h]
    exact ⟨rfl, by decide⟩
  | stored h | halted h =>
    rw [hk.promise_store (r := cacheRequest c t.message) hs] at hp
    cases hp
  | unstored h =>
    refine .inr ⟨_, rfl, fun hstate => ?_⟩
    rw [hstate, (hk.promise_abandon (r := cacheRequest c t.message) hs).2] at hp
    cases hp
  | unanswerable h | refused h | accepted h | joined h | reserved h | served h | disappointed h
  | gaveUp h | answered h | lapsed h | acknowledged h =>
    rw [Task.hasReservation, h] at hres
    cases hres

end Request.Task

namespace World

variable {V : Type} {w₀ w w' u v : World V} {i j k c p x : Nat} {b b' : RequestEntry V}
  {e : Executor V} {correlation : Cache.Correlation} {key : Cache.EntryKey}

theorem Consistent.run (h : w.Consistent) (hr : Run w w') : w'.Consistent := by
  induction hr with
  | refl => exact h
  | tail _ hstep ih => exact ih.moves (moves_of_happens hstep)

theorem promise_of_run (hw : w.Consistent) (hr : Run w w')
    (hlt : p < (w.cacheState c).promises.length) :
    p < (w'.cacheState c).promises.length ∧
      ((w.cacheState c).promise p ≠ .pending →
        (w'.cacheState c).promise p = (w.cacheState c).promise p) := by
  induction hr with
  | refl => exact ⟨hlt, fun _ => rfl⟩
  | @tail v v' hrun hstep ih =>
    obtain ⟨hlt', heq⟩ := ih
    obtain ⟨kept, hc⟩ := (moves_of_happens hstep).changes (hw.run hrun).wellFormed c
    refine ⟨hlt'.trans_le hc.length_le, fun hne => ?_⟩
    have hv := heq hne
    rw [← hv] at hne ⊢
    exact hc.promise_eq hlt' hne

theorem Holds.cacheState_eq (h : w.Holds c correlation k b)
    (he : w.executors[b.executor]? = some e) : e.cache = c := by
  obtain ⟨e', he', hc⟩ := h.executor
  cases he.symm.trans he'
  exact hc

/-- The entry can be given up for the request at any time, and whoever waits for it then finds that
it failed. -/
def GivesUp (w : World V) (c p k : Nat) : Prop :=
  ∃ v, w.stepAbandon? k = some v ∧ (v.cacheState c).promise p = .evicted

theorem Abandon.evicts (ha : Abandon w w' k b e) (hw : w.Consistent)
    (hk : (w.cacheState e.cache).Reserves b.task.correlation key) :
    (w'.cacheState e.cache).promise key.serial = .evicted := by
  rw [ha.caches, if_pos rfl]
  exact (hk.promise_abandon (r := Request.cacheRequest e.command b.task.message)
    (hw.wellFormed e.cache)).2

theorem Leaves.givesUp (h : w.Leaves c correlation k b) (hw : w.Consistent)
    (hk : (w.cacheState c).Reserves correlation key) : w.GivesUp c key.serial k := by
  obtain ⟨e, he, rfl⟩ := Option.map_eq_some_iff.mp h.cacheOf
  obtain ⟨cache, hcache⟩ : ∃ cache, w.caches[e.cache]? = some cache := by
    refine Option.ne_none_iff_exists'.mp fun hnone => ?_
    rw [cacheState, hnone] at hk
    cases hk.key?
  obtain ⟨v, hv⟩ : ∃ v, w.stepAbandon? k = some v := by
    simp [stepAbandon?, h.request, he, hcache, h.mem]
  refine ⟨v, hv, ?_⟩
  obtain ⟨b', e', ha⟩ := abandon_of_stepAbandon? hv
  cases h.request.symm.trans ha.request
  cases he.symm.trans ha.executor
  exact ha.evicts hw (h.correlation_eq ▸ hk)

theorem Leaves.moves (h : u.Leaves c correlation k b) (hu : u.Consistent)
    (hk : (u.cacheState c).Reserves correlation key) (hm : Moves u v) :
    (∃ b', v.Leaves c correlation k b' ∧ (v.cacheState c).Reserves correlation key) ∨
      (v.cacheState c).promise key.serial = .evicted := by
  obtain ⟨b', hb', hsame⟩ := hm.request h.request
  have hstays (hmem : k ∈ v.leaving) (hk' : (v.cacheState c).Reserves correlation key) :
      ∃ b', v.Leaves c correlation k b' ∧ (v.cacheState c).Reserves correlation key :=
    ⟨b', ⟨hb', cacheOf_congr hsame ▸ cacheOf_steady hm.steady h.cacheOf, hmem,
      hsame.correlation_eq.trans h.correlation_eq⟩, hk'⟩
  obtain ⟨b₀, e, -, hb₀, hn, he, -⟩ := hu.leaves h.mem
  cases h.request.symm.trans hb₀
  obtain ⟨e', he', rfl⟩ := Option.map_eq_some_iff.mp h.cacheOf
  cases he.symm.trans he'
  obtain ⟨hb, -, hmem, rfl⟩ := h
  cases hm with
  | outside ho => exact .inl (hstays (ho.leaving_eq ▸ hmem) (hu.reserves_outside ho hk))
  | expiry _ _ hl _ hc => exact .inl (hstays (hl ▸ hmem) (hu.reserves_expiry hc hk))
  | arrival _ _ _ _ hl hc => exact .inl (hstays (hl ▸ hmem) (hc _ ▸ hk))
  | turn ht =>
    refine .inl (hstays (ht.mem_leaving_of_mem hmem)
      (hu.reserves_turn ht (fun hres => ?_) hb he (.inr hmem) hk))
    rintro rfl
    cases hb.symm.trans ht.request
    cases hres.symm.trans hn
  | abort ha =>
    refine .inl (hstays (ha.mem_leaving_of_mem hmem)
      (hu.reserves_abort ha (fun hres => ?_) hb he (.inr hmem) hk))
    rintro rfl
    cases hb.symm.trans ha.request
    cases hres.symm.trans hn
  | @abandon i _ _ ha =>
    by_cases hki : k = i
    · subst hki
      cases hb.symm.trans ha.request
      cases he.symm.trans ha.executor
      exact .inr (ha.evicts hu hk)
    · refine .inl (hstays ?_ (hu.reserves_abandon ha hki hb he (.inr hmem) hk))
      rw [ha.leaving_eq]
      simpa using ⟨hmem, hki⟩

theorem Leaves.run (h : u.Leaves c correlation k b) (hu : u.Consistent)
    (hk : (u.cacheState c).Reserves correlation key) (hr : Run u v) :
    (∃ b', v.Leaves c correlation k b' ∧ (v.cacheState c).Reserves correlation key) ∨
      (v.cacheState c).promise key.serial = .evicted := by
  induction hr with
  | refl => exact .inl ⟨b, h, hk⟩
  | @tail v v' hrun hstep ih =>
    obtain ⟨b', h', hk'⟩ | hevicted := ih
    · exact h'.moves (hu.run hrun) hk' (moves_of_happens hstep)
    · have hlt := Cache.State.lt_of_promise_ne (by rw [hk.promise (hu.wellFormed c)]; simp)
      obtain ⟨hlt', -⟩ := promise_of_run hu hrun hlt
      right
      rw [(promise_of_run (hu.run hrun) (.single hstep) hlt').2 (by rw [hevicted]; simp), hevicted]

/-- Whoever waits for an entry that a request has left finds that it failed, or it can be given up
at any time. -/
theorem Leaves.evicted_or_givesUp (h : u.Leaves c correlation k b) (hu : u.Consistent)
    (hk : (u.cacheState c).Reserves correlation key) (hr : Run u v) :
    (v.cacheState c).promise key.serial = .evicted ∨
      (v.cacheState c).promise key.serial = .pending ∧ v.GivesUp c key.serial k := by
  obtain ⟨b', h', hk'⟩ | hevicted := h.run hu hk hr
  · exact .inr ⟨hk'.promise ((hu.run hr).wellFormed c), h'.givesUp (hu.run hr) hk'⟩
  · exact .inl hevicted

/-- The request has its entry still, after some of the steps that it takes at most for it, or has
left the entry. -/
def Pursues (w v : World V) (c : Nat) (correlation : Cache.Correlation) (key : Cache.EntryKey)
    (k expiresAt : Nat) : Prop :=
  (v.cacheState c).Reserves correlation key ∧ ∃ b,
    (v.Holds c correlation k b ∧ b.task.expiresAt = expiresAt ∧
      ∃ log, Told k w v log ∧ log.length + b.task.effort ≤ 3) ∨
    v.Leaves c correlation k b

variable {expiresAt : Nat}

theorem Pursues.happens (h : Pursues w u c correlation key k expiresAt) (hu : u.Consistent)
    (hs : Happens u v) (hp : (v.cacheState c).promise key.serial = .pending) :
    Pursues w v c correlation key k expiresAt := by
  have hm := moves_of_happens hs
  obtain ⟨hk, b, ⟨hh, hexpires, log, htold, hle⟩ | hleft⟩ := h
  swap
  · obtain ⟨b', hleft', hk'⟩ | hevicted := hleft.moves hu hk hm
    · exact ⟨hk', b', .inr hleft'⟩
    · cases hevicted.symm.trans hp
  obtain ⟨kept, hc⟩ := hm.changes hu.wellFormed c
  refine ⟨hc.reserves_of_pending (hu.wellFormed c) hk hp, ?_⟩
  have helsewhere (he : HappensElsewhere k u v) :
      v.Holds c correlation k b ∧ b.task.expiresAt = expiresAt ∧
        ∃ log, Told k w v log ∧ log.length + b.task.effort ≤ 3 :=
    ⟨⟨he.request hh.request, cacheOf_steady hm.steady hh.cacheOf, hh.hasReservation,
      hh.correlation_eq⟩, hexpires, log, htold.elsewhere he, hle⟩
  obtain ⟨t, hstep⟩ | ho := hs
  swap
  · exact ⟨b, .inl (helsewhere (.inr ho))⟩
  by_cases ht : t = .request k
  swap
  · exact ⟨b, .inl (helsewhere (.inl ⟨t, ht, hstep⟩))⟩
  subst ht
  obtain ⟨isLocked, hv⟩ := hstep.stepRequest?
  have hcorrelation := hh.correlation_eq
  obtain ⟨b', e, ha⟩ | ⟨b', e, s, phase, state, effect, hturn⟩ := turn_of_stepRequest? hv
  · cases hh.request.symm.trans ha.request
    cases hh.cacheState_eq ha.executor
    -- An abort that finds the cache free settles the entry, so it was locked.
    refine ⟨_, .inr ⟨ha.request_self, cacheOf_steady ha.steady hh.cacheOf, ?_, hcorrelation⟩⟩
    cases isLocked with
    | true =>
      rw [ha.leaving_eq, if_pos ⟨hh.hasReservation, rfl⟩]
      exact List.mem_append_right _ (List.mem_singleton_self k)
    | false =>
      have hevicted := (hcorrelation ▸ hk).promise_abandon
        (r := Request.cacheRequest e.command b.task.message) (hu.wellFormed e.cache)
      rw [ha.caches, if_pos ⟨rfl, hh.hasReservation, rfl⟩, hevicted.2] at hp
      cases hp
  · cases hh.request.symm.trans hturn.request
    cases hh.cacheState_eq hturn.executor
    have hself := hturn.request_self
    rw [hturn.caches, if_pos rfl] at hp
    obtain ⟨hres, hlt⟩ | ⟨r, rfl, hne⟩ := hturn.goes.effort_lt hh.hasReservation
      (hturn.cacheState ▸ hu.wellFormed _) (hturn.cacheState ▸ hcorrelation ▸ hk) hp
    · refine ⟨_, .inl ⟨⟨hself, cacheOf_steady hturn.steady hh.cacheOf, hres, hcorrelation⟩,
        hexpires, _, htold.acts hturn.effect_eq hv, ?_⟩⟩
      rw [List.length_append, List.length_singleton]
      have hless := Nat.add_le_add_left (Nat.one_add_le_iff.mpr hlt)
      exact (Nat.add_assoc ..).trans_le ((hless _).trans hle)
    · obtain ⟨-, hgone⟩ | ⟨hl, -⟩ := hturn.leaving
      · exact absurd (hgone r rfl) hne
      · exact ⟨_, .inr ⟨hself, cacheOf_steady hturn.steady hh.cacheOf,
          hl ▸ List.mem_append_right _ (List.mem_singleton_self k), hcorrelation⟩⟩

/-- The promise is on its way to be settled by a request: as long as it is pending, the request has
not been aborted and has taken fewer than three steps, and once it has expired it can take the
next one at any time; or the request has left the entry, which can be given up at any time. -/
def Completes (w : World V) (c p k expiresAt : Nat) : Prop :=
  ∀ u, Operated w u → (u.cacheState c).promise p = .pending →
    (∃ log, Told k w u log ∧ log.length < 3 ∧
      (expiresAt ≤ u.now → ∀ isLocked, (u.stepRequest? k isLocked).isSome = true)) ∨
    u.GivesUp c p k

/-- What comes of a look-up in a cache, and of waiting for what it found. -/
inductive Proceeds (w w' : World V) (c : Nat) (t t' : Request.Task V) : Prop
  | executes (hp : t.phase = .lookingUp) (hp' : t'.phase = .executing)
  | finds {p place : Nat} (hp : t.phase = .lookingUp) (hp' : t'.phase = .awaiting p place)
    (hne : (w'.cacheState c).promise p ≠ .evicted)
  | answers {p place : Nat} {response : Message} (hp : t.phase = .awaiting p place)
    (hs : (w.cacheState c).promise p = .stored response)
    (hp' : t'.phase = .answering (t.address response))
  | retries {p place : Nat} (hp : t.phase = .awaiting p place)
    (hs : (w.cacheState c).promise p = .evicted) (hp' : t'.phase = .lookingUp)
  | expires {p place : Nat} (hp : t.phase = .awaiting p place) (he : t.expiresAt ≤ w.now)
    (hp' : t'.phase = .acknowledging)

end World

end CommandBus
