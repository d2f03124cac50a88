import CommandBus.Proofs.Executor.Delivery
import Mathlib

namespace CommandBus.World

variable {V : Type} {x i j k p : Nat} {w₀ w w' u : World V} {a b b' : RequestEntry V}
  {e : Executor V} {reply : Reply}

/-- Whatever handler of the executor runs returns before its request expires. -/
def InTime (x : Nat) (w : World V) : Prop :=
  ∀ b ∈ w.requests, b.executor = x → b.task.isInTime = true

instance (x : Nat) (w : World V) : Decidable (w.InTime x) :=
  inferInstanceAs (Decidable (∀ b ∈ w.requests, _))

/-- Changes in any order while the handler of an executor is in time. -/
def RunInTime (x : Nat) : World V → World V → Prop :=
  Relation.ReflTransGen fun w w' => w.InTime x ∧ Happens w w'

theorem RunInTime.run (h : RunInTime x w w') : Run w w' := by
  induction h with
  | refl => exact .refl
  | tail _ hstep ih => exact ih.tail hstep.2

/-- The request is about to be executed: either it is passed on to the handler, whose outcome makes
the reply, or the reply refuses it. -/
def Gets (u : World V) (i : Nat) (reply : Reply) : Prop :=
  ∃ b e s, u.requests[i]? = some b ∧ u.executors[b.executor]? = some e ∧
    u.surroundings? i = some s ∧ b.task.phase = .executing ∧
    ((∃ request, u.effect? i = some (.invoke request) ∧
        reply = .ofHandler e.command.responseCodec (e.command.handler s.runs request).outcome) ∨
      u.effect? i = some .none ∧
        (Request.validate e.command b.task.message s).1 = .error reply)

/-- On the way from `w₀` to `w`, the request takes the step that executes it in `u`, and gets the
reply. -/
structure Yields (x : Nat) (w₀ w : World V) (i : Nat) (u : World V) (reply : Reply) : Prop where
  before : RunInTime x w₀ u
  gets : u.Gets i reply
  after : ∃ u', u.Acts (.request i) u' ∧ RunInTime x u' w

theorem Yields.tail (h : Yields x w₀ w i u reply) (ht : w.InTime x) (hh : Happens w w') :
    Yields x w₀ w' i u reply := by
  obtain ⟨hb, hg, u', hu, hr⟩ := h
  exact ⟨hb, hg, u', hu, hr.tail ⟨ht, hh⟩⟩

/-- The promise was given for this request: its entry is that of the request, no other request
reserves it, those who wait for it may have the response, and the response is the request's. -/
structure IsOrigin (x : Nat) (w₀ w : World V) (k p i : Nat) (a : RequestEntry V) : Prop where
  cacheOf : w.cacheOf a = some k
  entry : ∀ {key entry}, (w.cacheState k).entries.get? key = some entry → key.serial = p →
    entry.correlation = a.task.correlation ∧
      ∀ content, entry.content = some content → w.contentOf a = some content
  reserves : ∀ {j : Nat} {b : RequestEntry V} {key}, w.requests[j]? = some b →
    w.cacheOf b = some k → b.task.hasReservation = true →
    (w.cacheState k).Reserves b.task.correlation key → key.serial = p → j = i
  awaits : ∀ {j : Nat} {b : RequestEntry V} {place}, w.requests[j]? = some b →
    w.cacheOf b = some k → b.task.phase = .awaiting p place → w.Shares a b
  stored : ∀ {response}, (w.cacheState k).promise p = .stored response → a.executor = x →
    ∃ u reply, Yields x w₀ w i u reply ∧ a.task.Carries reply response

/-- The answer is the reply that a request got with which the request may share a response. -/
def IsTraced (x : Nat) (w₀ w : World V) (b : RequestEntry V) (m : Message) : Prop :=
  ∃ (i : Nat) (a : RequestEntry V), w.requests[i]? = some a ∧ w.cacheOf a = w.cacheOf b ∧
    w.Shares a b ∧ (a.executor = x → ∃ u reply, Yields x w₀ w i u reply ∧
      b.task.Carries reply m)

structure Traced (x : Nat) (w₀ w : World V) : Prop where
  run : RunInTime x w₀ w
  linked : ∀ k, (w.cacheState k).Linked
  underway : ∀ {j : Nat} {b : RequestEntry V} {e : Executor V}, w.requests[j]? = some b →
    w.executors[b.executor]? = some e → b.executor = x → b.task.IsUnderway →
    ∃ u reply, Yields x w₀ w j u reply ∧ b.task.Delivers e.command reply
  answers : ∀ {j : Nat} {b : RequestEntry V} {m}, w.requests[j]? = some b → b.executor = x →
    b.task.phase = .answering m → Request.refusal? b.task.message = none → IsTraced x w₀ w b m
  origins : ∀ {k p}, p < (w.cacheState k).promises.length →
    ∃ i a, w.requests[i]? = some a ∧ IsOrigin x w₀ w k p i a

theorem Steady.shares (h : Steady w w') (hw : w.Consistent) {a' : RequestEntry V}
    (ha : w.requests[i]? = some a) (hb : w.requests[j]? = some b) (haa : a'.IsSame a)
    (hbb : b'.IsSame b) (hs : w.Shares a b) : w'.Shares a' b' := by
  obtain ⟨e, he, -⟩ := hw.tasks ha
  obtain ⟨e', he', -⟩ := hw.tasks hb
  rw [Shares, haa.correlation_eq, hbb.correlation_eq, h.contentOf he haa, h.contentOf he' hbb]
  exact hs

theorem Steady.cacheOf_isSame (h : Steady w w') (hw : w.Consistent)
    (hb : w.requests[j]? = some b) (hbb : b'.IsSame b) : w'.cacheOf b' = w.cacheOf b := by
  obtain ⟨e, he, -⟩ := hw.tasks hb
  rw [cacheOf_congr hbb, h.cacheOf he]

theorem IsTraced.happens {m : Message} (h : IsTraced x w₀ w b m) (hw : w.Consistent)
    (ht : w.InTime x) (hh : Happens w w') (hb : w.requests[j]? = some b) (hbb : b'.IsSame b) :
    IsTraced x w₀ w' b' m := by
  obtain ⟨i, a, ha, hcache, hshares, hyields⟩ := h
  have hm := moves_of_happens hh
  obtain ⟨a', ha', haa⟩ := hm.request ha
  refine ⟨i, a', ha', ?_, hm.steady.shares hw ha hb haa hbb hshares, fun hx => ?_⟩
  · rw [hm.steady.cacheOf_isSame hw ha haa, hm.steady.cacheOf_isSame hw hb hbb, hcache]
  · obtain ⟨u, reply, hy, hc⟩ := hyields (haa.executor_eq ▸ hx)
    exact ⟨u, reply, hy.tail ht hh, hc.congr hbb.delivery_eq.symm⟩

namespace Traced

theorem of_isFresh (h : w.IsFresh) : Traced x w w where
  run := .refl
  linked k := by
    obtain ⟨config, hc⟩ := h.caches k
    rw [hc]
    exact .empty config
  underway hb := by simp [h.requests_eq] at hb
  answers hb := by simp [h.requests_eq] at hb
  origins {k p} hp := by
    obtain ⟨config, hc⟩ := h.caches k
    rw [hc] at hp
    exact absurd hp (Nat.not_lt_zero p)

theorem origin_of_lt (h : Traced x w₀ w) (hw : w.Consistent) (ht : w.InTime x)
    (hh : Happens w w') (hp : p < (w.cacheState k).promises.length) :
    ∃ i a, w'.requests[i]? = some a ∧ IsOrigin x w₀ w' k p i a := by
  obtain ⟨i, a, ha, ho⟩ := h.origins hp
  have hm := moves_of_happens hh
  have hs := hm.steady
  obtain ⟨kept, hch⟩ := hm.changes hw.wellFormed k
  obtain ⟨a', ha', haa⟩ := hm.request ha
  obtain ⟨e, he, -⟩ := hw.tasks ha
  refine ⟨i, a', ha', ?_, ?_, ?_, ?_, ?_⟩
  · rw [hs.cacheOf_isSame hw ha haa, ho.cacheOf]
  · intro key entry hg hserial
    obtain ⟨old, hold, hcorr, hcontent⟩ := hch.entry_of hg (hserial ▸ hp)
    rw [haa.correlation_eq, hs.contentOf he haa, ← hcorr, ← hcontent]
    exact ho.entry hold hserial
  · intro j b' key hb' hcache hres hkey hserial
    replace hkey := hch.reserves_of (hw.wellFormed k) hkey (hserial ▸ hp)
    obtain ⟨b, hb, hbb, hcase⟩ := hm.hasReservation hb' hres
    rw [hs.cacheOf_isSame hw hb hbb] at hcache
    rw [hbb.correlation_eq] at hkey
    obtain hres | ⟨k', hk', hnone⟩ := hcase
    · exact ho.reserves hb hcache hres hkey hserial
    · rw [hcache, Option.some_inj] at hk'
      rw [← hk', hkey.key?] at hnone
      cases hnone
  · intro j b' place hb' hcache hphase
    obtain ⟨b, hb, hbb, hcase⟩ := hm.awaiting hw h.linked hb' hphase
    rw [hs.cacheOf_isSame hw hb hbb] at hcache
    refine hs.shares hw ha hb haa hbb ?_
    obtain hphase | ⟨k', key, entry, hk', hg, hserial, hcase⟩ := hcase
    · exact ho.awaits hb hcache hphase
    · rw [hcache, Option.some_inj] at hk'
      obtain ⟨hcorr, hcontent⟩ := ho.entry (hk' ▸ hg) hserial
      exact hcase.imp hcorr.symm.trans fun ⟨content, hc, hb⟩ => ⟨content, hcontent content hc, hb⟩
  · intro response hr hx
    rw [haa.executor_eq] at hx
    obtain hr | ⟨j, b, execution, key, hb, hcache, hphase, hkey, hserial⟩ := hm.stored hw hr
    · obtain ⟨u, reply, hy, hc⟩ := ho.stored hr hx
      exact ⟨u, reply, hy.tail ht hh, hc.congr haa.delivery_eq.symm⟩
    · have hres : b.task.hasReservation = true := by rw [Request.Task.hasReservation, hphase]
      obtain rfl := ho.reserves hb hcache hres hkey hserial
      rw [ha, Option.some_inj] at hb
      subst hb
      obtain ⟨u, reply, hy, hd⟩ :=
        h.underway ha he hx (Request.Task.isUnderway_of_storing hphase)
      rw [Request.Task.Delivers, hphase] at hd
      exact ⟨u, reply, hy.tail ht hh, hd.congr haa.delivery_eq.symm⟩

theorem origin_of_le (h : Traced x w₀ w) (hw : w.Consistent) (hw' : w'.Consistent)
    (hh : Happens w w') (hle : (w.cacheState k).promises.length ≤ p)
    (hp : p < (w'.cacheState k).promises.length) :
    ∃ i a, w'.requests[i]? = some a ∧ IsOrigin x w₀ w' k p i a := by
  have hm := moves_of_happens hh
  have hs := hm.steady
  have hwf := hw.wellFormed k
  obtain hk | ⟨i, b, e, hb, he, rfl, hb', hnone, hc⟩ |
      ⟨i, b, e, response, execution, o, -, -, -, -, hc⟩ :=
    hm.cache_cases hw k
  · exact absurd (hk.length_eq ▸ hp) (not_lt.mpr hle)
  · rw [hc, Cache.State.length_register] at hp
    obtain rfl : p = (w.cacheState e.cache).promises.length := by omega
    have hbb : RequestEntry.IsSame { b with task := { b.task with phase := .executing } } b :=
      ⟨rfl, rfl⟩
    have hcache : w'.cacheOf { b with task := { b.task with phase := .executing } } =
        some e.cache := by
      rw [hs.cacheOf_isSame hw hb hbb, World.cacheOf, he, Option.map_some]
    have hentry : ∀ {key entry}, (w'.cacheState e.cache).entries.get? key = some entry →
        key.serial = (w.cacheState e.cache).promises.length →
        entry = { correlation := b.task.correlation, content := w.contentOf b } := by
      intro key entry hg hserial
      rw [hc, hwf.get?_register] at hg
      split at hg
      · exact (Option.some_inj.mp hg).symm
      · exact absurd hserial (hwf.serial_lt hg).ne
    refine ⟨i, _, hb', hcache, ?_, ?_, ?_, ?_⟩
    · intro key entry hg hserial
      obtain rfl := hentry hg hserial
      rw [hs.contentOf he hbb]
      exact ⟨rfl, fun _ hcontent => hcontent⟩
    · intro j b₁ key hb₁ hcache₁ hres hkey hserial
      obtain ⟨entry, hg, hcorr⟩ := (hw'.wellFormed _).key?_iff _ _ |>.mp hkey.key?
      obtain rfl := hentry hg hserial
      exact hw'.exclusive hb₁ hb' (hcache₁.trans hcache.symm) (.inl hres) (.inl rfl) hcorr.symm
    · intro j b₁ place hb₁ hcache₁ hphase
      obtain ⟨b₂, hb₂, hbb₂, hcase⟩ := hm.awaiting hw h.linked hb₁ hphase
      rw [hs.cacheOf_isSame hw hb₂ hbb₂] at hcache₁
      obtain hphase | ⟨k', key, entry, hk', hg, hserial, -⟩ := hcase
      · obtain ⟨e₂, he₂, ht⟩ := hw.tasks hb₂
        rw [World.cacheOf, he₂, Option.map_some, Option.some_inj] at hcache₁
        exact absurd (ht.awaits hphase).1 (by rw [hcache₁]; exact lt_irrefl _)
      · rw [hcache₁, Option.some_inj] at hk'
        exact absurd hserial (hwf.serial_lt (hk' ▸ hg)).ne
    · intro response hr
      rw [hc, Cache.State.promise_register, if_pos rfl] at hr
      cases hr
  · rw [hc, (hwf.store_keeps _ _ _ _).1] at hp
    exact absurd hp (not_lt.mpr hle)

theorem underway_happens (h : Traced x w₀ w) (hw : w.Consistent) (ht : w.InTime x)
    (hh : Happens w w') (hb : w'.requests[j]? = some b) (he : w'.executors[b.executor]? = some e)
    (hx : b.executor = x) (hu : b.task.IsUnderway) :
    ∃ u reply, Yields x w₀ w' j u reply ∧ b.task.Delivers e.command reply := by
  have hm := moves_of_happens hh
  have hcommand : ∀ {b₀ : RequestEntry V} {e₀ : Executor V}, w.executors[b₀.executor]? = some e₀ →
      b.executor = b₀.executor → e₀.command = e.command := by
    intro b₀ e₀ he₀ hb₀
    obtain ⟨e', he', hc, -⟩ := hm.steady.executors he₀
    rw [← hb₀, he, Option.some_inj] at he'
    exact (he' ▸ hc).symm
  obtain hb | ⟨-, hp⟩ | hp | ⟨b₀, e₀, s, phase, state, effect, hturn, rfl⟩ := hm.request_cases hb
  · obtain ⟨e₀, he₀, -⟩ := hw.tasks hb
    obtain ⟨u, reply, hy, hd⟩ := h.underway hb he₀ hx hu
    exact ⟨u, reply, hy.tail ht hh, hcommand he₀ rfl ▸ hd⟩
  · rw [Request.Task.IsUnderway, hp] at hu
    exact hu.elim
  · rw [Request.Task.IsUnderway, hp] at hu
    exact hu.elim
  · rw [← hcommand hturn.executor rfl]
    obtain hu | ⟨hphase, reply, hd, hcase⟩ := hturn.goes.isUnderway hu
    · obtain ⟨u, reply, hy, hd⟩ := h.underway hturn.request hturn.executor hx hu
      have hin := ht _ (List.mem_of_getElem? hturn.request) hx
      exact ⟨u, reply, hy.tail ht hh, hturn.goes.delivers hd hin⟩
    · have hgets : w.Gets j reply := by
        refine ⟨b₀, e₀, s, hturn.request, hturn.executor, hturn.surroundings_eq, hphase, ?_⟩
        rw [hturn.effect_eq]
        obtain ⟨request, rfl, hr⟩ | ⟨rfl, hr⟩ := hcase
        · exact .inl ⟨request, rfl, hr⟩
        · exact .inr ⟨rfl, hr⟩
      obtain ⟨isLocked, hstep⟩ := hturn.step
      exact ⟨w, reply, ⟨h.run, hgets, w', .request hstep, .refl⟩, hd⟩

theorem answers_happens (h : Traced x w₀ w) (hw : w.Consistent) (ht : w.InTime x)
    (hh : Happens w w') {m : Message} (hb : w'.requests[j]? = some b) (hx : b.executor = x)
    (hp : b.task.phase = .answering m) (hr : Request.refusal? b.task.message = none) :
    IsTraced x w₀ w' b m := by
  have hm := moves_of_happens hh
  obtain hb | ⟨-, hp'⟩ | hp' | ⟨b₀, e, s, phase, state, effect, hturn, rfl⟩ := hm.request_cases hb
  · exact (h.answers hb hx hp hr).happens hw ht hh hb ⟨rfl, rfl⟩
  · cases hp.symm.trans hp'
  · cases hp.symm.trans hp'
  · have hb₀ := hturn.request
    suffices hs : IsTraced x w₀ w b₀ m from hs.happens hw ht hh hb₀ hturn.isSame
    obtain hn | ⟨p, place, response, hphase, hs, rfl⟩ | ⟨execution, hphase⟩ :=
      hturn.goes.answering hp
    · exact absurd hr hn
    · rw [← hturn.cacheState] at hs
      obtain ⟨e₁, he₁, htask⟩ := hw.tasks hb₀
      rw [hturn.executor, Option.some_inj] at he₁
      subst he₁
      obtain ⟨i, a, ha, ho⟩ := h.origins (htask.awaits hphase).1
      refine ⟨i, a, ha, ho.cacheOf.trans hturn.cacheOf.symm,
        ho.awaits hb₀ hturn.cacheOf hphase, fun hax => ?_⟩
      obtain ⟨u, reply, hy, hc⟩ := ho.stored hs hax
      exact ⟨u, reply, hy, hc.address b₀.task⟩
    · obtain ⟨u, reply, hy, hd⟩ :=
        h.underway hb₀ hturn.executor hx (Request.Task.isUnderway_of_storing hphase)
      rw [Request.Task.Delivers, hphase] at hd
      exact ⟨j, b₀, hb₀, rfl, .inl rfl, fun _ => ⟨u, reply, hy, hd⟩⟩

theorem happens (h : Traced x w₀ w) (hw : w.Consistent) (ht : w.InTime x) (hh : Happens w w') :
    Traced x w₀ w' where
  run := h.run.tail ⟨ht, hh⟩
  linked k := (moves_of_happens hh).linked hw (h.linked k)
  underway := h.underway_happens hw ht hh
  answers := h.answers_happens hw ht hh
  origins {k p} hp := by
    by_cases hlt : p < (w.cacheState k).promises.length
    · exact h.origin_of_lt hw ht hh hlt
    · exact h.origin_of_le hw (hw.moves (moves_of_happens hh)) hh (not_lt.mp hlt) hp

theorem of_run (hf : w₀.IsFresh) (h : RunInTime x w₀ w) : Traced x w₀ w ∧ w.Consistent := by
  induction h with
  | refl => exact ⟨of_isFresh hf, .of_isFresh hf⟩
  | tail _ hstep ih =>
    obtain ⟨ht, hw⟩ := ih
    exact ⟨ht.happens hw hstep.1 hstep.2, hw.moves (moves_of_happens hstep.2)⟩

end Traced

/-- What is published for a request that is not refused at once is the reply that some request got
when it was executed. -/
theorem traced_of_publish (hf : w₀.IsFresh) (h : RunInTime x w₀ w) (hb : w.requests[j]? = some b)
    (hx : b.executor = x) (hr : Request.refusal? b.task.message = none) {m : Message}
    (hm : w.effect? j = some (.publish m)) : IsTraced x w₀ w b m := by
  obtain ⟨response, remaining, hp, rfl⟩ := answering_of_publish hb hm
  obtain ⟨i, a, ha, hcache, hs, hy⟩ := (Traced.of_run hf h).1.answers hb hx hp hr
  refine ⟨i, a, ha, hcache, hs, fun hax => ?_⟩
  obtain ⟨u, reply, hy, hc⟩ := hy hax
  exact ⟨u, reply, hy, hc.expiry remaining⟩

end CommandBus.World
