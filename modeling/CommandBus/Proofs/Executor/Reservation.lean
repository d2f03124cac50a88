import CommandBus.Proofs.World.Requests
import Mathlib

namespace CommandBus

namespace Request.Task

variable {V : Type} {c : Command V} {t : Task V} {s : Surroundings} {phase : Phase V}
  {state : Cache.State} {effect : Effect V}

def correlation (t : Task V) : Cache.Correlation :=
  ⟨t.message.responseTopic.getD "", t.message.correlationData.getD []⟩

def isAccepted (t : Task V) : Bool :=
  match t.phase with
  | .lookingUp | .awaiting .. => true
  | _ => t.hasReservation

structure Consistent (c : Command V) (t : Task V) (s : Cache.State) : Prop where
  reserves : t.hasReservation = true → ∃ key, s.Reserves t.correlation key
  awaits : ∀ {p place}, t.phase = .awaiting p place → p < s.promises.length ∧
    (c.isCacheable = false → s.promise p = .pending →
      ∃ key, s.key? t.correlation = some key ∧ key.serial = p)
  accepted : t.isAccepted = true →
    refusal? t.message = none ∧ t.message.responseTopic.isSome = true

theorem Consistent.changes {s s' : Cache.State} {kept : Cache.EntryKey → Cache.Entry → Prop}
    (h : t.Consistent c s) (hs : s.WellFormed) (hc : Cache.State.Changes s s' kept)
    (hr : ∀ key, t.hasReservation = true → s.Reserves t.correlation key →
      s'.Reserves t.correlation key) : t.Consistent c s' where
  reserves hres := by
    obtain ⟨key, hk⟩ := h.reserves hres
    exact ⟨key, hr key hres hk⟩
  awaits hp := by
    obtain ⟨hlt, hpending⟩ := h.awaits hp
    refine ⟨hlt.trans_le hc.length_le, fun hn hpend => ?_⟩
    obtain ⟨key, hk, rfl⟩ := hpending hn (hc.pending_of_pending hlt hpend)
    exact ⟨key, hc.key?_of_pending hs hk hpend, rfl⟩
  accepted := h.accepted

theorem consistent_of_not_accepted {s : Cache.State} (hn : t.isAccepted = false) :
    t.Consistent c s := by
  refine ⟨fun h => ?_, fun h => ?_, fun h => absurd (hn.symm.trans h) Bool.false_ne_true⟩
  · have : t.isAccepted = true := by
      revert h
      unfold isAccepted hasReservation
      cases t.phase <;> simp
    exact absurd (hn.symm.trans this) Bool.false_ne_true
  · rw [isAccepted, h] at hn
    cases hn

theorem Goes.changes (hg : t.Goes c s phase state effect) (hs : s.cache.state.WellFormed) :
    (∃ kept, Cache.State.Changes s.cache.state state kept) ∧
      ∀ {b key}, s.cache.state.Reserves b key →
        (t.hasReservation = true → b ≠ t.correlation) → state.Reserves b key := by
  cases hg with
  | reserved h hn =>
    have hr := hs.changes_register (c := t.correlation) hn
    exact ⟨⟨_, hr _⟩, fun hb _ => hb.changes hs (hr _) fun _ _ _ _ => trivial⟩
  | stored hp | halted hp =>
    have hres : t.hasReservation = true := by rw [hasReservation, hp]
    exact ⟨⟨_, hs.changes_store ..⟩, fun hb hne => hb.store hs (r := cacheRequest c t.message)
      (hne hres) _ _⟩
  | unstored hp _ hstate =>
    have hres : t.hasReservation = true := by rw [hasReservation, hp]
    obtain rfl | rfl := hstate
    · exact ⟨⟨_, hs.changes_refl⟩, fun hb _ => hb⟩
    · exact ⟨⟨_, hs.changes_abandon _⟩, fun hb hne => hb.abandon hs
        (r := cacheRequest c t.message) (hne hres)⟩
  | _ => exact ⟨⟨_, hs.changes_refl⟩, fun hb _ => hb⟩

theorem Goes.hasReservation (hg : t.Goes c s phase state effect)
    (h : ({ t with phase } : Task V).hasReservation = true) :
    t.hasReservation = true ∨ s.cache.state.key? t.correlation = none := by
  cases hg with
  | reserved _ hn => exact .inr hn
  | rejected hp | invoked hp | returned hp | timedOut hp =>
    left
    rw [Task.hasReservation, hp]
  | _ => cases h

theorem Goes.release {r : CommandRequest} (hg : t.Goes c s phase state (.release r)) :
    t.hasReservation = true ∧ ({ t with phase } : Task V).hasReservation = false := by
  generalize heffect : Effect.release r = effect at hg
  cases hg with
  | unstored hp => exact ⟨by rw [Task.hasReservation, hp], rfl⟩
  | _ => cases heffect

theorem Goes.consistent (hg : t.Goes c s phase state effect)
    (h : t.Consistent c s.cache.state) (hs : s.cache.state.WellFormed) :
    ({ t with phase } : Task V).Consistent c state := by
  cases hg with
  | accepted _ ht hr =>
    exact ⟨nofun, nofun, fun _ => ⟨hr, ht⟩⟩
  | joined hp place hr =>
    refine ⟨nofun, fun hq => ?_, fun _ => h.accepted (by rw [isAccepted, hp])⟩
    cases hq
    obtain ⟨key, rfl, hk | ⟨hc, hk⟩⟩ := Cache.State.retrieve_eq_some (congrArg Prod.fst hr)
    · obtain ⟨entry, hg, -⟩ := (hs.key?_iff _ _).mp hk
      exact ⟨hs.serial_lt hg, fun _ _ => ⟨key, hk, rfl⟩⟩
    · obtain ⟨entry, hg⟩ := Cache.State.isSome_get?_of_reusable? hk
      exact ⟨hs.serial_lt hg, fun hn => absurd (hn.symm.trans hc) Bool.false_ne_true⟩
  | reserved hp hn =>
    exact ⟨fun _ => ⟨_, hs.reserves_register hn _⟩, nofun,
      fun _ => h.accepted (by rw [isAccepted, hp])⟩
  | disappointed hp =>
    exact ⟨nofun, nofun,
      fun _ => h.accepted (by rw [isAccepted, hp])⟩
  | rejected hp | invoked hp | returned hp | timedOut hp =>
    have hres : t.hasReservation = true := by rw [Task.hasReservation, hp]
    exact ⟨fun _ => h.reserves hres, nofun,
      fun _ => h.accepted (by rw [isAccepted, hp, hres])⟩
  | _ => exact consistent_of_not_accepted rfl

end Request.Task

theorem RequestEntry.IsSame.correlation_eq {V : Type} {b b' : RequestEntry V} (h : b.IsSame b') :
    b.task.correlation = b'.task.correlation := by
  rw [Request.Task.correlation, Request.Task.correlation, h.message_eq]

namespace World

variable {V : Type} {w w' : World V} {i j : Nat} {b b' : RequestEntry V} {e e' : Executor V}

def cacheOf (w : World V) (b : RequestEntry V) : Option Nat :=
  w.executors[b.executor]?.map Executor.cache

theorem cacheOf_congr (h : b.IsSame b') : w.cacheOf b = w.cacheOf b' := by
  rw [cacheOf, cacheOf, h.executor_eq]

theorem Turn.cacheOf {s : Request.Surroundings} {phase : Request.Phase V} {state : Cache.State}
    {effect : Request.Effect V} (h : Turn w w' i b e s phase state effect) :
    w.cacheOf b = some e.cache := by
  rw [World.cacheOf, h.executor, Option.map_some]

theorem Steady.cacheOf (h : Steady w w') (he : w.executors[b.executor]? = some e) :
    w'.cacheOf b = w.cacheOf b := by
  obtain ⟨e', he', -, hc⟩ := h.executors he
  rw [World.cacheOf, World.cacheOf, he, he', Option.map_some, Option.map_some, hc]

theorem Moves.changes (h : Moves w w') (hw : ∀ c, (w.cacheState c).WellFormed) (c : Nat) :
    ∃ kept, Cache.State.Changes (w.cacheState c) (w'.cacheState c) kept := by
  have hwf := hw c
  cases h with
  | outside ho =>
    obtain ⟨config, hc⟩ := ho.caches c
    exact ⟨_, hc ▸ hwf.changes_config config⟩
  | expiry _ _ _ id hc =>
    rw [hc]
    split
    next hid =>
      rw [hid] at hwf ⊢
      exact ⟨_, hwf.changes_expireOne w.now⟩
    next => exact ⟨_, hwf.changes_refl⟩
  | arrival _ _ _ _ _ hc =>
    rw [hc]
    exact ⟨_, hwf.changes_refl⟩
  | turn ht =>
    rw [ht.caches]
    split
    next hce =>
      rw [hce, ht.cacheState] at hwf ⊢
      exact (ht.goes.changes hwf).1
    next => exact ⟨_, hwf.changes_refl⟩
  | abort ha =>
    rw [ha.caches]
    split
    · exact ⟨_, hwf.changes_abandon _⟩
    · exact ⟨_, hwf.changes_refl⟩
  | abandon ha =>
    rw [ha.caches]
    split
    · exact ⟨_, hwf.changes_abandon _⟩
    · exact ⟨_, hwf.changes_refl⟩

/-- The request has an entry to itself, by its reservation or because it has left the entry. -/
def Owns (w : World V) (i : Nat) (b : RequestEntry V) : Prop :=
  b.task.hasReservation = true ∨ i ∈ w.leaving

section Turn

variable {s : Request.Surroundings} {phase : Request.Phase V} {state : Cache.State}
  {effect : Request.Effect V}

theorem Turn.mem_leaving (h : Turn w w' i b e s phase state effect) (hj : j ∈ w'.leaving) :
    j ∈ w.leaving ∨ j = i ∧ state = s.cache.state ∧ b.task.hasReservation = true ∧
      ({ b.task with phase } : Request.Task V).hasReservation = false := by
  obtain ⟨hl, -⟩ | ⟨hl, hstate, r, rfl⟩ := h.leaving
  · exact .inl (hl ▸ hj)
  · rw [hl] at hj
    obtain hj | hj := List.mem_append.mp hj
    · exact .inl hj
    · exact .inr ⟨List.mem_singleton.mp hj, hstate, h.goes.release⟩

theorem Turn.owns (h : Turn w w' i b e s phase state effect)
    (ho : w'.Owns i { b with task := { b.task with phase } }) :
    w.Owns i b ∨ s.cache.state.key? b.task.correlation = none := by
  obtain hres | hi := ho
  · exact (h.goes.hasReservation hres).imp_left .inl
  · obtain hi | ⟨-, -, hres, -⟩ := h.mem_leaving hi
    · exact .inl (.inr hi)
    · exact .inl (.inl hres)

end Turn

/-- Caches are in order, requests can rely on what they rely on, and no two requests that use the
same cache own an entry for the same correlation. -/
structure Consistent (w : World V) : Prop where
  wellFormed : ∀ c, (w.cacheState c).WellFormed
  tasks : ∀ {i : Nat} {b : RequestEntry V}, w.requests[i]? = some b →
    ∃ e, w.executors[b.executor]? = some e ∧
      b.task.Consistent e.command (w.cacheState e.cache)
  leaves : ∀ {i : Nat}, i ∈ w.leaving → ∃ b e key, w.requests[i]? = some b ∧
    b.task.hasReservation = false ∧ w.executors[b.executor]? = some e ∧
    (w.cacheState e.cache).Reserves b.task.correlation key
  exclusive : ∀ {i j : Nat} {b b' : RequestEntry V},
    w.requests[i]? = some b → w.requests[j]? = some b' → w.cacheOf b = w.cacheOf b' →
    w.Owns i b → w.Owns j b' → b.task.correlation = b'.task.correlation → i = j

namespace Consistent

theorem of_isFresh (h : w.IsFresh) : w.Consistent where
  wellFormed c := by
    obtain ⟨config, hc⟩ := h.caches c
    rw [hc]
    exact .empty config
  tasks hb := by simp [h.requests_eq] at hb
  leaves hi := by simp [h.leaving_eq] at hi
  exclusive hb := by simp [h.requests_eq] at hb

theorem reserves (h : w.Consistent) (hb : w.requests[i]? = some b) (ho : w.Owns i b)
    (he : w.executors[b.executor]? = some e) :
    ∃ key, (w.cacheState e.cache).Reserves b.task.correlation key := by
  obtain hres | hi := ho
  · obtain ⟨e', he', ht⟩ := h.tasks hb
    cases he.symm.trans he'
    exact ht.reserves hres
  · obtain ⟨b', e', key, hb', -, he', hk⟩ := h.leaves hi
    cases hb.symm.trans hb'
    cases he.symm.trans he'
    exact ⟨key, hk⟩

section Keeps

variable {c : Nat} {correlation : Cache.Correlation} {key : Cache.EntryKey}

theorem reserves_outside (h : w.Consistent) (ho : Outside w w')
    (hk : (w.cacheState c).Reserves correlation key) :
    (w'.cacheState c).Reserves correlation key := by
  obtain ⟨config, hc⟩ := ho.caches c
  rw [hc]
  exact hk.changes (h.wellFormed c) ((h.wellFormed c).changes_config config) fun _ _ _ _ => trivial

theorem reserves_expiry (h : w.Consistent) {id : Nat}
    (hc : ∀ c, w'.cacheState c =
      if c = id then ((w.cacheState id).expireOne w.now).2 else w.cacheState c)
    (hk : (w.cacheState c).Reserves correlation key) :
    (w'.cacheState c).Reserves correlation key := by
  rw [hc]
  split
  next hid =>
    subst hid
    exact hk.changes (h.wellFormed c) ((h.wellFormed c).changes_expireOne w.now) fun _ _ _ hp => hp
  next => exact hk

theorem ne_correlation (h : w.Consistent) (hb : w.requests[i]? = some b)
    (he : w.executors[b.executor]? = some e) (ho : w.Owns i b) (hb' : w.requests[j]? = some b')
    (he' : w.executors[b'.executor]? = some e') (ho' : w.Owns j b') (hne : j ≠ i)
    (hc : e'.cache = e.cache) : b'.task.correlation ≠ b.task.correlation := by
  refine fun hcorr => hne (h.exclusive hb' hb ?_ ho' ho hcorr)
  rw [cacheOf, cacheOf, he, he', Option.map_some, Option.map_some, hc]

theorem reserves_abort (h : w.Consistent) {isLocked : Bool} (ha : Abort w w' i b e isLocked)
    (hne : b.task.hasReservation = true → j ≠ i) (hb' : w.requests[j]? = some b')
    (he' : w.executors[b'.executor]? = some e') (ho' : w.Owns j b')
    (hk : (w.cacheState e'.cache).Reserves b'.task.correlation key) :
    (w'.cacheState e'.cache).Reserves b'.task.correlation key := by
  rw [ha.caches]
  split
  next hcond =>
    exact hk.abandon (h.wellFormed _)
      (h.ne_correlation ha.request ha.executor (.inl hcond.2.1) hb' he' ho' (hne hcond.2.1) hcond.1)
  next => exact hk

theorem reserves_abandon (h : w.Consistent) (ha : Abandon w w' i b e) (hne : j ≠ i)
    (hb' : w.requests[j]? = some b') (he' : w.executors[b'.executor]? = some e')
    (ho' : w.Owns j b') (hk : (w.cacheState e'.cache).Reserves b'.task.correlation key) :
    (w'.cacheState e'.cache).Reserves b'.task.correlation key := by
  rw [ha.caches]
  split
  next hc =>
    exact hk.abandon (h.wellFormed _)
      (h.ne_correlation ha.request ha.executor (.inr ha.mem) hb' he' ho' hne hc)
  next => exact hk

theorem reserves_turn (h : w.Consistent) {s : Request.Surroundings} {phase : Request.Phase V}
    {state : Cache.State} {effect : Request.Effect V}
    (ht : Turn w w' i b e s phase state effect) (hne : b.task.hasReservation = true → j ≠ i)
    (hb' : w.requests[j]? = some b') (he' : w.executors[b'.executor]? = some e')
    (ho' : w.Owns j b') (hk : (w.cacheState e'.cache).Reserves b'.task.correlation key) :
    (w'.cacheState e'.cache).Reserves b'.task.correlation key := by
  rw [ht.caches]
  split
  next hc =>
    have hold : w.cacheState e.cache = s.cache.state := ht.cacheState
    rw [hc, hold] at hk
    exact (ht.goes.changes (hold ▸ h.wellFormed _)).2 hk fun hres =>
      h.ne_correlation ht.request ht.executor (.inl hres) hb' he' ho' (hne hres) hc
  next => exact hk

end Keeps

theorem of_owns (h : w.Consistent) (hs : Steady w w')
    (hw : ∀ c, (w'.cacheState c).WellFormed)
    (ht : ∀ {i : Nat} {b : RequestEntry V}, w'.requests[i]? = some b →
      ∃ e, w'.executors[b.executor]? = some e ∧
        b.task.Consistent e.command (w'.cacheState e.cache))
    (hl : ∀ {i : Nat}, i ∈ w'.leaving → ∃ b e key, w'.requests[i]? = some b ∧
      b.task.hasReservation = false ∧ w'.executors[b.executor]? = some e ∧
      (w'.cacheState e.cache).Reserves b.task.correlation key)
    (hr : ∀ {i : Nat} {b : RequestEntry V}, w'.requests[i]? = some b → w'.Owns i b →
      ∃ b₀, w.requests[i]? = some b₀ ∧ w.Owns i b₀ ∧ b.IsSame b₀) : w'.Consistent := by
  refine ⟨hw, ht, hl, fun hb hb' hc ho ho' hcorr => ?_⟩
  obtain ⟨b₀, hb₀, ho₀, hsame⟩ := hr hb ho
  obtain ⟨b₀', hb₀', ho₀', hsame'⟩ := hr hb' ho'
  obtain ⟨e, he, -⟩ := h.tasks hb₀
  obtain ⟨e', he', -⟩ := h.tasks hb₀'
  rw [cacheOf_congr hsame, cacheOf_congr hsame', hs.cacheOf he, hs.cacheOf he'] at hc
  exact h.exclusive hb₀ hb₀' hc ho₀ ho₀'
    (hsame.correlation_eq.symm.trans (hcorr.trans hsame'.correlation_eq))

theorem task_of_changes (h : w.Consistent) (hs : Steady w w')
    (hc : ∀ c, ∃ kept, Cache.State.Changes (w.cacheState c) (w'.cacheState c) kept)
    (hb : w.requests[i]? = some b)
    (hr : ∀ {e key}, w.executors[b.executor]? = some e → b.task.hasReservation = true →
      (w.cacheState e.cache).Reserves b.task.correlation key →
        (w'.cacheState e.cache).Reserves b.task.correlation key) :
    ∃ e, w'.executors[b.executor]? = some e ∧
      b.task.Consistent e.command (w'.cacheState e.cache) := by
  obtain ⟨e, he, ht⟩ := h.tasks hb
  obtain ⟨e', he', hcommand, hcache⟩ := hs.executors he
  obtain ⟨kept, hch⟩ := hc e.cache
  refine ⟨e', he', ?_⟩
  rw [hcommand, hcache]
  exact ht.changes (h.wellFormed _) hch fun _ hres hk => hr he hres hk

theorem leaves_of_changes (h : w.Consistent) (hs : Steady w w') (hi : i ∈ w.leaving)
    (hb : ∀ {b}, w.requests[i]? = some b → w'.requests[i]? = some b)
    (hr : ∀ {b e key}, w.requests[i]? = some b → w.executors[b.executor]? = some e →
      (w.cacheState e.cache).Reserves b.task.correlation key →
        (w'.cacheState e.cache).Reserves b.task.correlation key) :
    ∃ b e key, w'.requests[i]? = some b ∧ b.task.hasReservation = false ∧
      w'.executors[b.executor]? = some e ∧
      (w'.cacheState e.cache).Reserves b.task.correlation key := by
  obtain ⟨b, e, key, hb₀, hn, he, hk⟩ := h.leaves hi
  obtain ⟨e', he', -, hcache⟩ := hs.executors he
  exact ⟨b, e', key, hb hb₀, hn, he', hcache ▸ hr hb₀ he hk⟩

theorem outside (h : w.Consistent) (ho : Outside w w') : w'.Consistent := by
  have hch := (Moves.outside ho).changes h.wellFormed
  refine h.of_owns ho.toSteady (fun c => ?_) (fun hb => ?_) (fun hi => ?_)
    fun {i b} hb hown => ⟨b, ho.requests_eq ▸ hb, ?_, rfl, rfl⟩
  · obtain ⟨kept, hc⟩ := hch c
    exact hc.wellFormed
  · exact h.task_of_changes ho.toSteady hch (ho.requests_eq ▸ hb)
      fun _ _ hk => h.reserves_outside ho hk
  · exact h.leaves_of_changes ho.toSteady (ho.leaving_eq ▸ hi) (fun hb => ho.requests_eq ▸ hb)
      fun _ _ hk => h.reserves_outside ho hk
  · rwa [Owns, ho.leaving_eq] at hown

theorem expiry (h : w.Consistent) (hs : Steady w w') (hr : w'.requests = w.requests)
    (hl : w'.leaving = w.leaving) {id : Nat}
    (hc : ∀ c, w'.cacheState c =
      if c = id then ((w.cacheState id).expireOne w.now).2 else w.cacheState c) :
    w'.Consistent := by
  have hch := (Moves.expiry hs hr hl id hc).changes h.wellFormed
  refine h.of_owns hs (fun c => ?_) (fun hb => ?_) (fun hi => ?_)
    fun {i b} hb hown => ⟨b, hr ▸ hb, ?_, rfl, rfl⟩
  · obtain ⟨kept, hc⟩ := hch c
    exact hc.wellFormed
  · exact h.task_of_changes hs hch (hr ▸ hb) fun _ _ hk => h.reserves_expiry hc hk
  · exact h.leaves_of_changes hs (hl ▸ hi) (fun hb => hr ▸ hb) fun _ _ hk => h.reserves_expiry hc hk
  · rwa [Owns, hl] at hown

theorem arrival (h : w.Consistent) (hs : Steady w w') {x : Nat} (he : w.executors[x]? = some e)
    {d : Delivery} (hr : w'.requests = w.requests ++ [⟨x, Request.arrive d w.now⟩])
    (hl : w'.leaving = w.leaving) (hc : ∀ c, w'.cacheState c = w.cacheState c) :
    w'.Consistent := by
  have hreq : ∀ {i : Nat} {b : RequestEntry V}, w'.requests[i]? = some b →
      w.requests[i]? = some b ∨
        i = w.requests.length ∧ b = ⟨x, Request.arrive d w.now⟩ := by
    intro i b hb
    rw [hr, List.getElem?_append] at hb
    split at hb
    · exact .inl hb
    next hlt =>
      obtain ⟨hlen, -⟩ := List.getElem?_eq_some_iff.mp hb
      rw [List.length_singleton] at hlen
      exact .inr ⟨by omega, List.mem_singleton.mp (List.mem_of_getElem? hb)⟩
  have hbefore {i : Nat} {b : RequestEntry V} (hb : w.requests[i]? = some b) :
      w'.requests[i]? = some b := by
    obtain ⟨hlt, -⟩ := List.getElem?_eq_some_iff.mp hb
    rw [hr, List.getElem?_append_left hlt, hb]
  refine h.of_owns hs (fun c => hc c ▸ h.wellFormed c) (fun hb => ?_) (fun hi => ?_)
    fun {i b} hb hown => ?_
  · obtain hb | ⟨-, rfl⟩ := hreq hb
    · refine h.task_of_changes hs (fun c => ⟨fun _ _ => True, ?_⟩) hb fun _ _ hk => hc _ ▸ hk
      rw [hc]
      exact (h.wellFormed c).changes_refl
    · obtain ⟨e', he', -⟩ := hs.executors he
      exact ⟨e', he', Request.Task.consistent_of_not_accepted rfl⟩
  · exact h.leaves_of_changes hs (hl ▸ hi) hbefore fun _ _ hk => hc _ ▸ hk
  · rw [Owns, hl] at hown
    obtain hb | ⟨rfl, rfl⟩ := hreq hb
    · exact ⟨b, hb, hown, rfl, rfl⟩
    · obtain hres | hi := hown
      · cases hres
      · obtain ⟨b, -, -, hb, -⟩ := h.leaves hi
        rw [List.getElem?_eq_none le_rfl] at hb
        cases hb

theorem abort (h : w.Consistent) {isLocked : Bool} (ha : Abort w w' i b e isLocked) :
    w'.Consistent := by
  have hch := (Moves.abort ha).changes h.wellFormed
  have ⟨hs, hb, he, _, hr, hc, hl⟩ := ha
  have hw : ∀ c, (w'.cacheState c).WellFormed := fun c => by
    obtain ⟨kept, hk⟩ := hch c
    exact hk.wellFormed
  have hleaving {j : Nat} (hj : j ∈ w'.leaving) :
      j ∈ w.leaving ∨ j = i ∧ b.task.hasReservation = true ∧ isLocked = true := by
    rw [hl] at hj
    split at hj
    next hcond =>
      obtain hj | hj := List.mem_append.mp hj
      · exact .inl hj
      · exact .inr ⟨List.mem_singleton.mp hj, hcond⟩
    next => exact .inl hj
  refine h.of_owns hs hw (fun hb' => ?_) (fun {j} hj => ?_) fun {j b'} hb' hown => ?_
  · obtain ⟨rfl, rfl⟩ | ⟨hne, hb'⟩ := getElem?_requests_set hr hb'
    · obtain ⟨e', he', -⟩ := hs.executors he
      exact ⟨e', he', Request.Task.consistent_of_not_accepted rfl⟩
    · exact h.task_of_changes hs hch hb' fun he' hres hk =>
        h.reserves_abort ha (fun _ => hne) hb' he' (.inl hres) hk
  · obtain ⟨e', he', -, hcache⟩ := hs.executors he
    by_cases hne : j = i
    · -- what the request owns stays pending, unless it is given up at once
      subst hne
      have hown : w.Owns j b := by
        obtain hj | ⟨-, hres, -⟩ := hleaving hj
        · exact .inr hj
        · exact .inl hres
      obtain ⟨key, hk⟩ := h.reserves hb hown he
      refine ⟨_, e', key, ha.request_self, rfl, he', ?_⟩
      rw [hcache, hc, if_neg]
      · exact hk
      rintro ⟨-, hres, hlocked⟩
      obtain hj | ⟨-, -, hlocked'⟩ := hleaving hj
      · obtain ⟨b', -, -, hb', hn, -⟩ := h.leaves hj
        cases hb.symm.trans hb'
        cases hres.symm.trans hn
      · cases hlocked.symm.trans hlocked'
    · obtain hj | ⟨rfl, -⟩ := hleaving hj
      · exact h.leaves_of_changes hs hj
          (fun hb' => by rw [hr, List.getElem?_set_ne (Ne.symm hne), hb'])
          fun hb' he' hk => h.reserves_abort ha (fun _ => hne) hb' he' (.inr hj) hk
      · exact absurd rfl hne
  · obtain ⟨rfl, rfl⟩ | ⟨hne, hb'⟩ := getElem?_requests_set hr hb'
    · obtain hres | hj := hown
      · cases hres
      · refine ⟨b, hb, ?_, rfl, rfl⟩
        obtain hj | ⟨-, hres, -⟩ := hleaving hj
        · exact .inr hj
        · exact .inl hres
    · refine ⟨b', hb', hown.imp_right fun hj => ?_, rfl, rfl⟩
      exact (hleaving hj).resolve_right fun heq => hne heq.1

theorem abandon (h : w.Consistent) (ha : Abandon w w' i b e) : w'.Consistent := by
  have hch := (Moves.abandon ha).changes h.wellFormed
  have ⟨hs, hb, he, hi, hr, hl, hc⟩ := ha
  have hw : ∀ c, (w'.cacheState c).WellFormed := fun c => by
    obtain ⟨kept, hk⟩ := hch c
    exact hk.wellFormed
  have hleaving {j : Nat} (hj : j ∈ w'.leaving) : j ∈ w.leaving ∧ j ≠ i := by
    rw [hl] at hj
    simpa using hj
  refine h.of_owns hs hw (fun {j b'} hb' => ?_) (fun {j} hj => ?_)
    fun {j b'} hb' hown => ⟨b', hr ▸ hb', hown.imp_right fun hj => (hleaving hj).1, rfl, rfl⟩
  · rw [hr] at hb'
    refine h.task_of_changes hs hch hb' fun he' hres hk =>
      h.reserves_abandon ha ?_ hb' he' (.inl hres) hk
    rintro rfl
    obtain ⟨b'', -, -, hb'', hn, -⟩ := h.leaves hi
    cases hb'.symm.trans hb''
    cases hres.symm.trans hn
  · obtain ⟨hj, hne⟩ := hleaving hj
    exact h.leaves_of_changes hs hj (fun hb' => hr ▸ hb') fun hb' he' hk =>
      h.reserves_abandon ha hne hb' he' (.inr hj) hk

section Turn

variable {s : Request.Surroundings} {phase : Request.Phase V} {state : Cache.State}
  {effect : Request.Effect V}

theorem task_of_turn (h : w.Consistent) (hturn : Turn w w' i b e s phase state effect) :
    w.cacheState e.cache = s.cache.state ∧ s.cache.state.WellFormed ∧
      b.task.Consistent e.command s.cache.state := by
  have hk := hturn.cacheState
  obtain ⟨e₀, he₀, ht⟩ := h.tasks hturn.request
  cases hturn.executor.symm.trans he₀
  exact ⟨hk, hk ▸ h.wellFormed _, hk ▸ ht⟩

/-- What a request leaves behind with its turn, or had left before, is reserved and not its own any
more. -/
theorem reserves_of_turn (h : w.Consistent) (hturn : Turn w w' i b e s phase state effect)
    (hi : i ∈ w'.leaving) :
    ({ b.task with phase } : Request.Task V).hasReservation = false ∧
      ∃ key, state.Reserves b.task.correlation key := by
  obtain ⟨hk, hwf, ht⟩ := h.task_of_turn hturn
  obtain ⟨-, hkeep⟩ := hturn.goes.changes hwf
  obtain hi | ⟨-, rfl, hres, hn⟩ := hturn.mem_leaving hi
  · obtain ⟨b', e', key, hb', hn, he', hkey⟩ := h.leaves hi
    cases hturn.request.symm.trans hb'
    cases hturn.executor.symm.trans he'
    rw [hk] at hkey
    refine ⟨?_, key, hkeep hkey fun hres => absurd (hres.symm.trans hn) (by decide)⟩
    rw [← Bool.not_eq_true]
    intro hres
    obtain hres | hnone := hturn.goes.hasReservation hres
    · cases hres.symm.trans hn
    · cases hkey.key?.symm.trans hnone
  · exact ⟨hn, ht.reserves hres⟩

theorem owns_of_turn {j : Nat} {b' : RequestEntry V}
    (hturn : Turn w w' i b e s phase state effect) (ho : w'.Owns j b') (hne : j ≠ i) :
    w.Owns j b' :=
  ho.imp_right fun hj => (hturn.mem_leaving hj).resolve_right fun heq => hne heq.1

/-- What the request owns after its turn it had before, or has just registered, when nobody owned an
entry for it. -/
theorem correlation_ne_of_turn (h : w.Consistent)
    (hturn : Turn w w' i b e s phase state effect) {j : Nat} {b' : RequestEntry V} (hne : j ≠ i)
    (hb' : w.requests[j]? = some b') (hcache : w.cacheOf b' = w.cacheOf b) (ho' : w'.Owns j b')
    (ho : w'.Owns i { b with task := { b.task with phase } }) :
    b'.task.correlation ≠ b.task.correlation := by
  have hown := owns_of_turn hturn ho' hne
  intro hcorr
  obtain ho | hnone := hturn.owns ho
  · exact hne (h.exclusive hb' hturn.request hcache hown ho hcorr)
  · obtain ⟨e', he', -⟩ := h.tasks hb'
    obtain ⟨key, hkey⟩ := h.reserves hb' hown he'
    have hce : e'.cache = e.cache := by simpa [cacheOf, hturn.executor, he'] using hcache
    rw [hce, (h.task_of_turn hturn).1, hcorr] at hkey
    rw [hkey.key?] at hnone
    cases hnone

theorem turn (h : w.Consistent) (hturn : Turn w w' i b e s phase state effect) :
    w'.Consistent := by
  have hch := (Moves.turn hturn).changes h.wellFormed
  obtain ⟨-, hwf, ht⟩ := h.task_of_turn hturn
  have ⟨hs, hb, he, _, _, hg, hr, hc, _, _, _, _⟩ := hturn
  have hcache {j : Nat} {b' : RequestEntry V} (hb' : w.requests[j]? = some b') :
      w'.cacheOf b' = w.cacheOf b' := by
    obtain ⟨e', he', -⟩ := h.tasks hb'
    exact hs.cacheOf he'
  refine ⟨fun c => ?_, fun {j b'} hb' => ?_, fun {j} hj => ?_,
    fun hb₁ hb₂ hc' ho₁ ho₂ hcorr => ?_⟩
  · obtain ⟨kept, hk⟩ := hch c
    exact hk.wellFormed
  · obtain ⟨rfl, rfl⟩ | ⟨hne, hb'⟩ := getElem?_requests_set hr hb'
    · obtain ⟨e', he', hcommand, hcache⟩ := hs.executors he
      refine ⟨e', he', ?_⟩
      rw [hcommand, hcache, hc, if_pos rfl]
      exact hg.consistent ht hwf
    · exact h.task_of_changes hs hch hb' fun he' hres hkey =>
        h.reserves_turn hturn (fun _ => hne) hb' he' (.inl hres) hkey
  · by_cases hne : j = i
    · subst hne
      obtain ⟨e', he', -, hcache⟩ := hs.executors he
      obtain ⟨hn, key, hkey⟩ := h.reserves_of_turn hturn hj
      refine ⟨_, e', key, hturn.request_self, hn, he', ?_⟩
      rw [hcache, hc, if_pos rfl]
      exact hkey
    · have hj := (hturn.mem_leaving hj).resolve_right fun heq => hne heq.1
      exact h.leaves_of_changes hs hj
        (fun hb' => by rw [hr, List.getElem?_set_ne (Ne.symm hne), hb'])
        fun hb' he' hkey => h.reserves_turn hturn (fun _ => hne) hb' he' (.inr hj) hkey
  · obtain ⟨rfl, rfl⟩ | ⟨hne₁, hb₁⟩ := getElem?_requests_set hr hb₁ <;>
      obtain ⟨rfl, rfl⟩ | ⟨hne₂, hb₂⟩ := getElem?_requests_set hr hb₂
    · rfl
    · have hcb := hcache hb
      rw [hcache hb₂] at hc'
      exact absurd hcorr.symm
        (h.correlation_ne_of_turn hturn hne₂ hb₂ (hc'.symm.trans hcb) ho₂ ho₁)
    · have hcb := hcache hb
      rw [hcache hb₁] at hc'
      exact absurd hcorr (h.correlation_ne_of_turn hturn hne₁ hb₁ (hc'.trans hcb) ho₁ ho₂)
    · rw [hcache hb₁, hcache hb₂] at hc'
      exact h.exclusive hb₁ hb₂ hc' (owns_of_turn hturn ho₁ hne₁) (owns_of_turn hturn ho₂ hne₂)
        hcorr

end Turn

theorem moves (h : w.Consistent) (hm : Moves w w') : w'.Consistent := by
  cases hm with
  | outside ho => exact h.outside ho
  | expiry hs hr hl id hc => exact h.expiry hs hr hl hc
  | arrival hs he d hr hl hc => exact h.arrival hs he hr hl hc
  | turn ht => exact h.turn ht
  | abort ha => exact h.abort ha
  | abandon ha => exact h.abandon ha

theorem of_run (hf : w.IsFresh) (h : Relation.ReflTransGen Happens w w') : w'.Consistent := by
  induction h with
  | refl => exact of_isFresh hf
  | tail _ hstep ih => exact ih.moves (moves_of_happens hstep)

end Consistent

end World

end CommandBus
