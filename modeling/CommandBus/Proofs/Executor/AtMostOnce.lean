import CommandBus.Proofs.Executor.Duplicate
import Mathlib

namespace CommandBus.World

variable {V : Type} {w₁ w w' : World V} {i : Nat} {b : RequestEntry V} {e : Executor V}

/-- The answer to a request is settled: it is on its way, or the promise that is awaited is kept. -/
def HasAnswer (w : World V) (j : Nat) : Prop :=
  ∃ b, w.requests[j]? = some b ∧ ((∃ m, b.task.phase = .answering m) ∨
    ∃ promise place response e, b.task.phase = .awaiting promise place ∧
      w.executors[b.executor]? = some e ∧
      (w.cacheState e.cache).promise promise = .stored response)

/-- The reply to a request has become a response, which is about to be stored. -/
def Stores (w : World V) (i : Nat) (response : Message) : Prop :=
  ∃ b execution, w.requests[i]? = some b ∧ b.task.phase = .storing response execution

/-- A request for which the handler of its executor is run, and its entry in the cache. -/
structure Invocation (V : Type) where
  executor : Nat
  command : Command V
  cache : Nat
  id : Nat
  task : Request.Task V
  key : Cache.EntryKey

namespace Invocation

/-- The request executes and has its entry to itself, or its response is retained. -/
def Holds (v : Invocation V) (w₁ w : World V) : Prop :=
  ∃ b, w.requests[v.id]? = some b ∧ b.executor = v.executor ∧
    b.task.delivery = v.task.delivery ∧ b.task.expiresAt = v.task.expiresAt ∧
    (b.task.hasReservation = true ∧
        (w.cacheState v.cache).Reserves v.task.correlation v.key ∨
      ∃ response, (∃ u, Run w₁ u ∧ Run u w ∧ u.Stores v.id response) ∧
        (w.cacheState v.cache).Retains v.task.correlation v.key response v.task.expiresAt)

/-- What holds while the response may not be given up: every duplicate that was not answered when
the handler was run follows the entry of the request. -/
structure Guards (v : Invocation V) (w₁ w : World V) : Prop where
  run : Run w₁ w
  executor : ∃ e, w.executors[v.executor]? = some e ∧ e.command = v.command ∧ e.cache = v.cache
  holds : v.Holds w₁ w
  follows : ∀ {j : Nat} {b : RequestEntry V}, j ≠ v.id → ¬ w₁.HasAnswer j →
    w.requests[j]? = some b → b.executor = v.executor → b.task.IsDuplicate v.task →
    b.task.Follows (w.cacheState v.cache) v.key

variable {v : Invocation V}

theorem Holds.key? (h : v.Holds w₁ w) :
    (w.cacheState v.cache).key? v.task.correlation = some v.key := by
  obtain ⟨b, -, -, -, -, ⟨-, hr⟩ | ⟨r, -, hr⟩⟩ := h
  · exact hr.key?
  · exact hr.key?

theorem Holds.stores (h : v.Holds w₁ w) (hw : (w.cacheState v.cache).WellFormed)
    {response : Message} (hr : (w.cacheState v.cache).promise v.key.serial = .stored response) :
    ∃ u, Run w₁ u ∧ Run u w ∧ u.Stores v.id response := by
  obtain ⟨b, -, -, -, -, ⟨-, hk⟩ | ⟨r, hs, hk⟩⟩ := h
  · rw [hk.promise hw] at hr
    cases hr
  · rw [hk.promise] at hr
    cases hr
    exact hs

namespace Guards

theorem cacheOf (h : v.Guards w₁ w) (hx : b.executor = v.executor) :
    w.cacheOf b = some v.cache := by
  obtain ⟨e, he, -, hc⟩ := h.executor
  rw [World.cacheOf, hx, he, Option.map_some, hc]

theorem executor_happens (h : v.Guards w₁ w) (hh : Happens w w') :
    ∃ e, w'.executors[v.executor]? = some e ∧ e.command = v.command ∧ e.cache = v.cache := by
  obtain ⟨e, he, hcommand, hcache⟩ := h.executor
  obtain ⟨e', he', hcommand', hcache'⟩ := (moves_of_happens hh).steady.executors he
  exact ⟨e', he', hcommand'.trans hcommand, hcache'.trans hcache⟩

theorem follows_happens (h : v.Guards w₁ w) (hw : w.Consistent) (hh : Happens w w')
    (hrefusal : Request.refusal? v.task.message = none) {j : Nat} {b : RequestEntry V}
    (hne : j ≠ v.id) (ha : ¬ w₁.HasAnswer j) (hb : w'.requests[j]? = some b)
    (hx : b.executor = v.executor) (hdup : b.task.IsDuplicate v.task) :
    b.task.Follows (w'.cacheState v.cache) v.key := by
  have hm := moves_of_happens hh
  obtain ⟨kept, hch⟩ := hm.changes hw.wellFormed v.cache
  obtain ⟨e, he, -, hcache⟩ := h.executor
  obtain hb | ⟨-, hp⟩ | hp | ⟨b, e', s, phase, state, _, ht, rfl⟩ := hm.request_cases hb
  · refine (h.follows hne ha hb hx hdup).changes hch fun hp => ?_
    obtain ⟨e', he', ht⟩ := hw.tasks hb
    rw [hx, he, Option.some_inj] at he'
    rw [← hcache, he']
    exact (ht.awaits hp).1
  · rw [Request.Task.Follows, hp]
    trivial
  · rw [Request.Task.Follows, hp]
    trivial
  · have hdup : b.task.IsDuplicate v.task := ⟨hdup.topic_eq, hdup.data_eq, hdup.isSome_expiry⟩
    have hx : b.executor = v.executor := hx
    have he' := ht.executor
    rw [hx, he, Option.some_inj] at he'
    subst he'
    have hf := h.follows hne ha ht.request hx hdup
    have hkey := h.holds.key?
    rw [← hcache, ht.cacheState] at hf hkey
    rw [← hcache, ht.caches, if_pos rfl]
    exact (ht.goes.follows hf (hdup.refusal? hrefusal) (hdup.correlation_eq ▸ hkey)).2

theorem holds_congr (h : v.Guards w₁ w) (hh : Happens w w')
    (hself : ∀ {b}, w.requests[v.id]? = some b → w'.requests[v.id]? = some b)
    (hres : ∀ {b e}, w.requests[v.id]? = some b → w.executors[b.executor]? = some e →
      b.task.hasReservation = true →
      (w.cacheState e.cache).Reserves b.task.correlation v.key →
      (w'.cacheState e.cache).Reserves b.task.correlation v.key)
    (hret : ∀ {response},
      (w.cacheState v.cache).Retains v.task.correlation v.key response v.task.expiresAt →
      (w'.cacheState v.cache).Retains v.task.correlation v.key response v.task.expiresAt) :
    v.Holds w₁ w' := by
  obtain ⟨b, hb, hx, hd, hexpires, ⟨hr, hk⟩ | ⟨r, ⟨u, hu, hu', hs⟩, hk⟩⟩ := h.holds
  · obtain ⟨e, he, -, hcache⟩ := h.executor
    have hcorr : b.task.correlation = v.task.correlation := by
      rw [Request.Task.correlation, Request.Task.correlation, Request.Task.message,
        Request.Task.message, hd]
    refine ⟨b, hself hb, hx, hd, hexpires, .inl ⟨hr, ?_⟩⟩
    rw [← hcache, ← hcorr] at hk ⊢
    exact hres hb (hx ▸ he) hr hk
  · exact ⟨b, hself hb, hx, hd, hexpires, .inr ⟨r, ⟨u, hu, hu'.tail hh, hs⟩, hret hk⟩⟩

theorem holds_outside (h : v.Guards w₁ w) (hw : w.Consistent) (ho : Outside w w') :
    v.Holds w₁ w' := by
  obtain ⟨config, hconfig⟩ := ho.caches v.cache
  have hwf := hw.wellFormed v.cache
  have hc : Cache.State.Changes (w.cacheState v.cache) (w'.cacheState v.cache) fun _ _ => True :=
    hconfig ▸ hwf.changes_config config
  exact h.holds_congr (.inr ho) (fun hb => ho.requests_eq ▸ hb)
    (fun _ _ _ hk => hw.reserves_outside ho hk) fun hr => hr.changes hwf hc fun _ _ _ _ => trivial

theorem holds_expiry (h : v.Guards w₁ w) (hw : w.Consistent) (hh : Happens w w')
    (hlt : w.now < v.task.expiresAt) (hr : w'.requests = w.requests) {id : Nat}
    (hc : ∀ c, w'.cacheState c =
      if c = id then ((w.cacheState id).expireOne w.now).2 else w.cacheState c) :
    v.Holds w₁ w' := by
  refine h.holds_congr hh (fun hb => hr ▸ hb) (fun _ _ _ hk => hw.reserves_expiry hc hk)
    fun hk => ?_
  rw [hc]
  split
  next hid => exact hid ▸ hk.expireOne (hw.wellFormed v.cache) hlt
  next => exact hk

theorem holds_arrival (h : v.Guards w₁ w) (hh : Happens w w') {x : Nat} {d : Delivery}
    (hr : w'.requests = w.requests ++ [⟨x, Request.arrive d w.now⟩])
    (hc : ∀ c, w'.cacheState c = w.cacheState c) : v.Holds w₁ w' := by
  refine h.holds_congr hh (fun {b} hb => ?_) (fun _ _ _ hk => hc _ ▸ hk) fun hk => hc _ ▸ hk
  obtain ⟨hlt, -⟩ := List.getElem?_eq_some_iff.mp hb
  rw [hr, List.getElem?_append_left hlt, hb]

theorem holds_abort (h : v.Guards w₁ w) (hw : w.Consistent) (hh : Happens w w')
    (hserves : w.Serves v.executor) {i : Nat} {isLocked : Bool}
    (ha : Abort w w' i b e isLocked) : v.Holds w₁ w' := by
  have hx : b.executor ≠ v.executor := by
    rintro hx
    obtain ⟨e', k, he', hn, -⟩ := hserves
    cases (hx ▸ ha.executor).symm.trans he'
    cases hn.symm.trans ha.isEnding
  have hv : v.id ≠ i := by
    rintro rfl
    obtain ⟨b', hb', hx', -⟩ := h.holds
    cases ha.request.symm.trans hb'
    exact hx hx'
  refine h.holds_congr hh (fun hb' => ?_)
    (fun hb' he' hres' hk => hw.reserves_abort ha (fun _ => hv) hb' he' (.inl hres') hk)
    fun hk => ?_
  · rw [ha.requests_eq, List.getElem?_set_ne hv.symm, hb']
  · rw [ha.caches]
    split
    · exact hk.abandon (hw.wellFormed v.cache) _
    · exact hk

theorem holds_abandon (h : v.Guards w₁ w) (hw : w.Consistent) (hh : Happens w w') {i : Nat}
    (ha : Abandon w w' i b e) : v.Holds w₁ w' := by
  refine h.holds_congr hh (fun hb' => ha.requests_eq ▸ hb') (fun hb' he' hres' hk => ?_)
    fun hk => ?_
  · refine hw.reserves_abandon ha ?_ hb' he' (.inl hres') hk
    rintro rfl
    obtain ⟨b₀, -, -, hb₀, hn, -⟩ := hw.leaves ha.mem
    cases hb'.symm.trans hb₀
    cases hres'.symm.trans hn
  · rw [ha.caches]
    split
    · exact hk.abandon (hw.wellFormed v.cache) _
    · exact hk

theorem holds_self (h : v.Guards w₁ w) (hw : w.Consistent) (hh : Happens w w')
    (hi : v.command.isIdempotent = false) (hlt : w.now < v.task.expiresAt)
    (hserves : w.Serves v.executor) {s : Request.Surroundings} {phase : Request.Phase V}
    {state : Cache.State} {effect : Request.Effect V}
    (ht : Turn w w' v.id b e s phase state effect) : v.Holds w₁ w' := by
  obtain ⟨b₀, hb₀, hx, hd, hexpires, hcases⟩ := h.holds
  obtain rfl := Option.some.inj (ht.request.symm.trans hb₀)
  obtain ⟨e₀, he₀, hcommand, hcache⟩ := h.executor
  rw [← hx, ht.executor, Option.some_inj] at he₀
  subst he₀
  have hold : w.cacheState v.cache = s.cache.state := hcache ▸ ht.cacheState
  have hwf : s.cache.state.WellFormed := hold ▸ hw.wellFormed _
  refine ⟨{ b with task := { b.task with phase } }, ht.request_self, hx, hd, hexpires, ?_⟩
  rw [ht.caches, if_pos hcache.symm]
  rw [hold] at hcases
  obtain ⟨hres, hkey⟩ | ⟨r, ⟨u, hu, hu', hst⟩, hkey⟩ := hcases
  · obtain ⟨hres', heq⟩ | ⟨response, execution, hp, hstore⟩ := ht.goes.executes hres
    · exact .inl ⟨hres', heq ▸ hkey⟩
    · have hstarted : s.cache.isStarted = true := by
        obtain ⟨e', k, he', -, hk', hstarted⟩ := hserves
        rw [← hx, ht.executor, Option.some_inj] at he'
        rw [← he', ht.cache, Option.some_inj] at hk'
        exact hk' ▸ hstarted
      obtain ⟨o, hoi, hoe, heq⟩ := hstore hstarted
      refine .inr ⟨response, ⟨w, h.run, .single hh, b, execution, hb₀, hp⟩, ?_⟩
      have hcorr : v.task.correlation =
          (Request.cacheRequest e.command b.task.message).correlation := by
        rw [Request.Task.correlation, Request.Task.message, ← hd]
        rfl
      rw [hcorr] at hkey ⊢
      rw [heq, ← hexpires, ← hoe]
      refine hkey.retains_store hwf (hoi.trans (hcommand ▸ hi)) ?_ response
      rw [hoe, hexpires, ht.now_eq]
      exact hlt
  · exact .inr ⟨r, ⟨u, hu, hu'.tail hh, hst⟩, ht.goes.retains hwf hkey⟩

theorem holds_other (h : v.Guards w₁ w) (hw : w.Consistent) (hh : Happens w w') {i : Nat}
    (hne : i ≠ v.id) {s : Request.Surroundings} {phase : Request.Phase V} {state : Cache.State}
    {effect : Request.Effect V} (ht : Turn w w' i b e s phase state effect) : v.Holds w₁ w' := by
  have hwf : s.cache.state.WellFormed := ht.cacheState ▸ hw.wellFormed _
  refine h.holds_congr hh (fun hb' => ?_)
    (fun hb' he' hres' hk => hw.reserves_turn ht (fun _ => Ne.symm hne) hb' he' (.inl hres') hk)
    fun hk => ?_
  · rw [ht.requests_eq, List.getElem?_set_ne hne, hb']
  · rw [ht.caches]
    split
    next hv =>
      rw [hv, ht.cacheState] at hk
      exact ht.goes.retains hwf hk
    next => exact hk

theorem happens (h : v.Guards w₁ w) (hw : w.Consistent) (hh : Happens w w')
    (hi : v.command.isIdempotent = false)
    (hrefusal : Request.refusal? v.task.message = none) (hlt : w.now < v.task.expiresAt)
    (hserves : w.Serves v.executor) : v.Guards w₁ w' where
  run := h.run.tail hh
  executor := h.executor_happens hh
  follows := h.follows_happens hw hh hrefusal
  holds := by
    cases moves_of_happens hh with
    | outside ho => exact h.holds_outside hw ho
    | expiry _ hr _ id hc => exact h.holds_expiry hw hh hlt hr hc
    | arrival _ _ d hr _ hc => exact h.holds_arrival hh hr hc
    | @turn i _ _ _ _ _ _ ht =>
      by_cases hid : i = v.id
      · subst hid
        exact h.holds_self hw hh hi hlt hserves ht
      · exact h.holds_other hw hh hid ht
    | abort ha => exact h.holds_abort hw hh hserves ha
    | abandon ha => exact h.holds_abandon hw hh ha

theorem run_serving (h : v.Guards w₁ w) (hw : w.Consistent)
    (hi : v.command.isIdempotent = false)
    (hrefusal : Request.refusal? v.task.message = none)
    (hrun : RunServing v.executor w w') (hlt : w'.now < v.task.expiresAt) :
    v.Guards w₁ w' ∧ w'.Consistent := by
  induction hrun with
  | refl => exact ⟨h, hw⟩
  | tail _ hstep ih =>
    have hle := (moves_of_happens hstep.2).steady.now_le
    obtain ⟨hg, hw'⟩ := ih (hle.trans_lt hlt)
    exact ⟨hg.happens hw' hstep.2 hi hrefusal (hle.trans_lt hlt) hstep.1,
      hw'.moves (moves_of_happens hstep.2)⟩

theorem start (hw : w.Consistent) (hb : w.requests[v.id]? = some b) (htask : b.task = v.task)
    (hx : b.executor = v.executor) (he : w.executors[v.executor]? = some e)
    (hcommand : e.command = v.command) (hcache : e.cache = v.cache)
    (hi : v.command.isIdempotent = false) (hres : v.task.hasReservation = true)
    (hk : (w.cacheState v.cache).Reserves v.task.correlation v.key) : v.Guards w w := by
  refine ⟨.refl, ⟨e, he, hcommand, hcache⟩, ⟨b, hb, hx, by rw [htask], by rw [htask],
    .inl ⟨htask ▸ hres, hk⟩⟩, fun {j b'} hne ha hb' hx' hdup => ?_⟩
  have hn : ¬ b'.task.hasReservation = true := fun hres' => hne <| by
    refine hw.exclusive hb' hb ?_ (.inl hres') (.inl (htask ▸ hres)) (htask ▸ hdup.correlation_eq)
    rw [World.cacheOf, World.cacheOf, hx, hx']
  unfold Request.Task.Follows
  cases hp : b'.task.phase with
  | received | lookingUp | acknowledging | finished | halted => trivial
  | executing | handling | storing => exact (hn (by rw [Request.Task.hasReservation, hp])).elim
  | answering m => exact (ha ⟨b', hb', .inl ⟨m, hp⟩⟩).elim
  | awaiting p place =>
    obtain ⟨e', he', ht⟩ := hw.tasks hb'
    rw [hx', he, Option.some_inj] at he'
    subst he'
    have hnc : e.command.isCacheable = false := by
      rw [Command.isCacheable, hcommand, hi, Bool.false_and]
    cases hpromise : (w.cacheState v.cache).promise p with
    | evicted => exact .inl hpromise
    | stored r =>
      refine absurd ⟨b', hb', .inr ⟨p, place, r, e, hp, by rw [hx', he], ?_⟩⟩ ha
      rw [hcache, hpromise]
    | pending =>
      obtain ⟨key, hkey, hserial⟩ := (ht.awaits hp).2 hnc (by rw [hcache, hpromise])
      rw [hcache, hdup.correlation_eq, hk.key?, Option.some_inj] at hkey
      exact .inr (hkey ▸ hserial.symm)

theorem not_reserved (h : v.Guards w₁ w) (hw : w.Consistent) {j : Nat} (hne : j ≠ v.id)
    (hb : w.requests[j]? = some b) (hx : b.executor = v.executor)
    (htopic : b.task.message.responseTopic = v.task.message.responseTopic)
    (hdata : b.task.message.correlationData = v.task.message.correlationData)
    (hres : b.task.hasReservation = true) : False := by
  have hcorr : b.task.correlation = v.task.correlation := by
    rw [Request.Task.correlation, Request.Task.correlation, htopic, hdata]
  obtain ⟨e, he, -, hcache⟩ := h.executor
  obtain ⟨e', he', ht⟩ := hw.tasks hb
  rw [hx, he, Option.some_inj] at he'
  subst he'
  obtain ⟨key, hkey⟩ := ht.reserves hres
  rw [hcache, hcorr] at hkey
  obtain ⟨b', hb', hx', hd', -, ⟨hres', -⟩ | ⟨r, -, hr⟩⟩ := h.holds
  · refine hne (hw.exclusive hb hb' ?_ (.inl hres) (.inl hres') ?_)
    · rw [h.cacheOf hx, h.cacheOf hx']
    · rw [hcorr, Request.Task.correlation, Request.Task.correlation, Request.Task.message,
        Request.Task.message, hd']
  · have hk := hkey.key?
    rw [hr.key?, Option.some_inj] at hk
    subst hk
    have hp := hkey.promise (hw.wellFormed _)
    rw [hr.promise] at hp
    cases hp

end Guards

end Invocation

theorem isPast_of_step {w₂ : World V} {request : IncomingRequest V}
    (hinvoke : w₁.effect? i = some (.invoke request)) (hstep : w₁.Acts (.request i) w₂) :
    ∃ b', w₂.requests[i]? = some b' ∧ b'.task.IsPast := by
  obtain ⟨isLocked, hw'⟩ := hstep.stepRequest?
  obtain ⟨b₁, e, s, phase, state, ht⟩ := turn_of_effect? hinvoke hw'
  exact ⟨_, ht.request_self, ht.goes.isPast (.inr ⟨request, rfl⟩)⟩

theorem isPast_of_run (hb : w.requests[i]? = some b) (hp : b.task.IsPast) (h : Run w w') :
    ∃ b', w'.requests[i]? = some b' ∧ b'.task.IsPast := by
  obtain ⟨b', hb', -, hp'⟩ := exists_of_run (P := fun _ => True) hb hp
    (fun t ht => by
      rw [Request.Task.IsPast, ht]
      trivial)
    (fun _ _ _ ht hp => ht.goes.isPast (.inl hp))
    (Relation.ReflTransGen.mono (fun _ _ h => ⟨trivial, h⟩) _ _ h)
  exact ⟨b', hb', hp'⟩

/-- Once the handler has been run for a request, then up to the expiry of that request it is not
run again for the same response topic and correlation data, and every duplicate that was not
answered before is answered with the response that is stored for the request. -/
theorem executed_at_most_once {w₀ w₂ w₃ : World V} (hfresh : w₀.IsFresh) (h₀ : Run w₀ w₁)
    {a : RequestEntry V} (ha : w₁.requests[i]? = some a)
    (he : w₁.executors[a.executor]? = some e) (hi : e.command.isIdempotent = false)
    {request : IncomingRequest V} (hinvoke : w₁.effect? i = some (.invoke request))
    (hstep : w₁.Acts (.request i) w₂)
    (hserves : w₁.Serves a.executor) (hrun : RunServing a.executor w₂ w₃)
    (hlt : w₃.now < a.task.expiresAt) {j : Nat} (hb : w₃.requests[j]? = some b)
    (hx : b.executor = a.executor)
    (htopic : b.task.message.responseTopic = a.task.message.responseTopic)
    (hdata : b.task.message.correlationData = a.task.message.correlationData) :
    (∀ request, w₃.effect? j ≠ some (.invoke request)) ∧
    (j ≠ i → b.task.message.expiryInterval.isSome = true → ¬ w₁.HasAnswer j →
      ∀ m, w₃.effect? j = some (.publish m) →
        ∃ u response, Run w₁ u ∧ Run u w₃ ∧ u.Stores i response ∧
          m = { b.task.address response with expiryInterval := m.expiryInterval }) := by
  have hw₁ := Consistent.of_run hfresh h₀
  have hh : Happens w₁ w₂ := .inl ⟨_, hstep⟩
  have hphase := phase_of_invoke ha hinvoke
  have hres : a.task.hasReservation = true := by rw [Request.Task.hasReservation, hphase]
  obtain ⟨e₂, he₂, ht⟩ := hw₁.tasks ha
  rw [he, Option.some_inj] at he₂
  subst he₂
  have hrefusal : Request.refusal? a.task.message = none :=
    (ht.accepted (by rw [Request.Task.isAccepted, hphase, hres])).1
  obtain ⟨key, hkey⟩ := ht.reserves hres
  have hguards : (Invocation.mk a.executor e.command e.cache i a.task key).Guards w₁ w₁ :=
    .start hw₁ ha rfl rfl he rfl rfl hi hres hkey
  obtain ⟨hguards₃, hw₃⟩ := hguards.run_serving hw₁ hi hrefusal (.head ⟨hserves, hh⟩ hrun) hlt
  refine ⟨fun request' hinvoke' => ?_, fun hne hexpiry hunanswered m hm => ?_⟩
  · have hphase' := phase_of_invoke hb hinvoke'
    have hne : j ≠ i := by
      rintro rfl
      obtain ⟨a₂, ha₂, hpast⟩ := isPast_of_step hinvoke hstep
      obtain ⟨a₃, ha₃, hpast⟩ := isPast_of_run ha₂ hpast hrun.run
      rw [hb, Option.some_inj] at ha₃
      rw [← ha₃, Request.Task.IsPast, hphase'] at hpast
      exact hpast
    exact hguards₃.not_reserved hw₃ hne hb hx htopic hdata
      (by rw [Request.Task.hasReservation, hphase'])
  · obtain ⟨r, remaining, hp, rfl⟩ := answering_of_publish hb hm
    have hf := hguards₃.follows hne hunanswered hb hx ⟨htopic, hdata, hexpiry⟩
    rw [Request.Task.Follows, hp] at hf
    obtain ⟨response, hr, rfl⟩ := hf
    obtain ⟨u, hu, hu', hs⟩ := hguards₃.holds.stores (hw₃.wellFormed _) hr
    exact ⟨u, response, hu, hu', hs, rfl⟩

/-- Deliveries of one request wait in the mailbox of an executor, with these expiry intervals; its
handler takes this long on each of its runs. -/
def requested (intervals : List UInt32) (span : Nat → Nat) : World Bytes where
  wall := 0
  network := { broker := { mailboxes := { boxes := [
    { waiting := intervals.map fun interval => ⟨{
        topic := "c", payload := [1], responseTopic := some "r"
        correlationData := some (List.replicate 16 0), expiryInterval := some interval },
        .none⟩ }] } } }
  clocks := [Clock.start "node" 0 Clock.defaultMaxDrift]
  caches := [{ isStarted := true }]
  executors := [{
    command := {
      name := "c", requestFilter := "c", isIdempotent := false, reusableFor := 0
      acrossInvokers := false, requestCodec := .raw, responseCodec := .raw
      handler := fun run request => ⟨span run, .ok ⟨request.payload, []⟩⟩ }
    client := .plain 0, shutdownClient := false, cache := 0, clock := 0
    loop := some { box := 0 } }]

theorem isFresh_requested (intervals : List UInt32) (span : Nat → Nat) :
    (requested intervals span).IsFresh := by
  refine ⟨rfl, rfl, fun c => ⟨{}, ?_⟩⟩
  obtain _ | c := c <;> rfl

def twiceRequested : World Bytes :=
  requested [10, 10] fun _ => 0

/-- Both requests have been received, and the first is about to be executed. -/
def firstExecutes : World Bytes :=
  twiceRequested.stepAll [.serve 0, .serve 0, .request 0, .request 0]

def firstHandled : World Bytes :=
  firstExecutes.stepAll [.request 0]

def secondAnswers : World Bytes :=
  firstHandled.stepAll [.request 1, .request 1, .request 0, .request 0, .request 1]

theorem duplicate_answered_from_first :
    (∀ request, secondAnswers.effect? 1 ≠ some (.invoke request)) ∧
    ∃ m b u response, secondAnswers.effect? 1 = some (.publish m) ∧
      secondAnswers.requests[1]? = some b ∧ Run firstExecutes u ∧ Run u secondAnswers ∧
      u.Stores 0 response ∧
      m = { b.task.address response with expiryInterval := m.expiryInterval } := by
  have hfresh : twiceRequested.IsFresh := isFresh_requested ..
  have hserves : firstExecutes.Serves 0 := ⟨_, _, rfl, rfl, rfl, rfl⟩
  have hrun : RunServing 0 firstHandled secondAnswers := by
    refine runWhile_stepAll _ _ fun k hk => ?_
    simp only [List.length_cons, List.length_nil] at hk
    interval_cases k <;> exact ⟨_, _, rfl, rfl, rfl, rfl⟩
  have hunanswered : ¬ firstExecutes.HasAnswer 1 := by
    rintro ⟨b, hb, ⟨m, hp⟩ | ⟨_, _, _, _, hp, -⟩⟩ <;> cases hb <;> cases hp
  obtain ⟨a, ha, hax, hat, har, had⟩ : ∃ a, firstExecutes.requests[0]? = some a ∧
      a.executor = 0 ∧ a.task.expiresAt = 10000 ∧ a.task.message.responseTopic = some "r" ∧
      a.task.message.correlationData = some (List.replicate 16 0) := ⟨_, rfl, rfl, rfl, rfl, rfl⟩
  obtain ⟨b, hb, hbx, hbr, hbd, hbi⟩ : ∃ b, secondAnswers.requests[1]? = some b ∧
      b.executor = 0 ∧ b.task.message.responseTopic = some "r" ∧
      b.task.message.correlationData = some (List.replicate 16 0) ∧
      b.task.message.expiryInterval.isSome = true := ⟨_, rfl, rfl, rfl, rfl, rfl⟩
  obtain ⟨e, he, hi⟩ : ∃ e, firstExecutes.executors[0]? = some e ∧
      e.command.isIdempotent = false := ⟨_, rfl, rfl⟩
  obtain ⟨request, hinvoke⟩ : ∃ request, firstExecutes.effect? 0 = some (.invoke request) :=
    ⟨_, rfl⟩
  obtain ⟨m, hm⟩ : ∃ m, secondAnswers.effect? 1 = some (.publish m) := ⟨_, rfl⟩
  have hstep : firstExecutes.Acts (.request 0) firstHandled :=
    have h : firstExecutes.stepRequest? 0 false = some firstHandled := rfl
    .request h
  have hlt : secondAnswers.now < a.task.expiresAt := by
    rw [hat]
    exact Nat.zero_lt_succ _
  rw [← hax] at he hserves hrun hbx
  obtain ⟨honce, hanswer⟩ := executed_at_most_once hfresh (run_stepAll _ _) ha he hi hinvoke hstep
    hserves hrun hlt hb hbx (hbr.trans har.symm) (hbd.trans had.symm)
  obtain ⟨u, response, hu, hu', hs, heq⟩ := hanswer Nat.one_ne_zero hbi hunanswered m hm
  exact ⟨honce, m, b, u, response, hm, hb, hu, hu', hs, heq⟩

def thriceRequested : World Bytes :=
  requested [1, 10, 10] fun run => if run = 0 then 2000 else 0

def secondWaits : World Bytes :=
  thriceRequested.stepAll
    [.serve 0, .serve 0, .request 0, .request 0, .request 0, .request 1, .request 1]

/-- The first has timed out, and its entry has left the cache with its reply; so the third, which
comes only now, is about to be executed. -/
def thirdExecutes : World Bytes :=
  stepAll { secondWaits with now := 1000 }
    [.request 0, .request 0, .serve 0, .request 2, .request 2]

def thirdHandled : World Bytes :=
  thirdExecutes.stepAll [.request 2]

def thirdStores : World Bytes :=
  thirdHandled.stepAll [.request 2]

def secondAnswersLate : World Bytes :=
  thirdStores.stepAll [.request 2, .request 1]

/-- A duplicate that has waited for an earlier execution answers with its reply, after the handler
has been run for a later request and long before that expires. -/
theorem duplicate_answered_from_earlier :
    ∃ a b request response m,
      thriceRequested.IsFresh ∧ Run thriceRequested thirdExecutes ∧
      thirdExecutes.requests[2]? = some a ∧ thirdExecutes.effect? 2 = some (.invoke request) ∧
      thirdExecutes.Acts (.request 2) thirdHandled ∧ thirdExecutes.Serves a.executor ∧
      RunServing a.executor thirdHandled secondAnswersLate ∧
      secondAnswersLate.now < a.task.expiresAt ∧
      secondAnswersLate.requests[1]? = some b ∧ b.executor = a.executor ∧
      b.task.message.responseTopic = a.task.message.responseTopic ∧
      b.task.message.correlationData = a.task.message.correlationData ∧
      b.task.message.expiryInterval.isSome = true ∧
      Run thirdHandled thirdStores ∧ Run thirdStores secondAnswersLate ∧
      thirdStores.Stores 2 response ∧ secondAnswersLate.effect? 1 = some (.publish m) ∧
      m.payload ≠ response.payload := by
  have hwaits : Run thriceRequested secondWaits := run_stepAll ..
  have hexpires := outside_of_le secondWaits (show 0 ≤ 1000 by decide)
  have hexecutes : Run { secondWaits with now := 1000 } thirdExecutes := run_stepAll _ _
  have hstep : thirdExecutes.Acts (.request 2) thirdHandled :=
    have h : thirdExecutes.stepRequest? 2 false = some thirdHandled := rfl
    .request h
  have hstores : RunServing 0 thirdHandled thirdStores := by
    refine runWhile_stepAll thirdHandled _ fun k hk => ?_
    simp only [List.length_cons, List.length_nil] at hk
    interval_cases k <;> exact ⟨_, _, rfl, rfl, rfl, rfl⟩
  have hanswers : RunServing 0 thirdStores secondAnswersLate := by
    refine runWhile_stepAll thirdStores _ fun k hk => ?_
    simp only [List.length_cons, List.length_nil] at hk
    interval_cases k <;> exact ⟨_, _, rfl, rfl, rfl, rfl⟩
  have hserves : thirdExecutes.Serves 0 := ⟨_, _, rfl, rfl, rfl, rfl⟩
  obtain ⟨a, ha, hax, hat, har, had⟩ : ∃ a, thirdExecutes.requests[2]? = some a ∧
      a.executor = 0 ∧ a.task.expiresAt = 11000 ∧ a.task.message.responseTopic = some "r" ∧
      a.task.message.correlationData = some (List.replicate 16 0) := ⟨_, rfl, rfl, rfl, rfl, rfl⟩
  obtain ⟨b, hb, hbx, hbr, hbd, hbi⟩ : ∃ b, secondAnswersLate.requests[1]? = some b ∧
      b.executor = 0 ∧ b.task.message.responseTopic = some "r" ∧
      b.task.message.correlationData = some (List.replicate 16 0) ∧
      b.task.message.expiryInterval.isSome = true := ⟨_, rfl, rfl, rfl, rfl, rfl⟩
  obtain ⟨request, hinvoke⟩ : ∃ request, thirdExecutes.effect? 2 = some (.invoke request) :=
    ⟨_, rfl⟩
  obtain ⟨response, hstored, hpayload⟩ :
      ∃ response, thirdStores.Stores 2 response ∧ response.payload = [1] :=
    ⟨_, ⟨_, _, rfl, rfl⟩, rfl⟩
  obtain ⟨m, hm, hnone⟩ : ∃ m, secondAnswersLate.effect? 1 = some (.publish m) ∧ m.payload = [] :=
    ⟨_, rfl, rfl⟩
  have hlt : secondAnswersLate.now < a.task.expiresAt := by
    rw [hat]
    exact (by decide : 1000 < 11000)
  rw [← hax] at hserves hstores hanswers
  exact ⟨a, b, request, response, m, isFresh_requested .., (hwaits.tail (.inr hexpires)).trans hexecutes,
    ha, hinvoke, hstep, hserves, hstores.trans hanswers, hlt, hb, hbx.trans hax.symm, hbr.trans har.symm,
    hbd.trans had.symm, hbi, hstores.run,
    hanswers.run, hstored, hm, by simp [hpayload, hnone]⟩

end CommandBus.World
