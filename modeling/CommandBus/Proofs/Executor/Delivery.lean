import CommandBus.Proofs.Cache.Linked
import CommandBus.Proofs.Executor.Reply
import CommandBus.Proofs.Executor.Reservation
import Mathlib

namespace CommandBus

namespace Request.Task

variable {V : Type} {c : Command V} {t : Task V} {s : Surroundings} {phase : Phase V}
  {state : Cache.State} {effect : Effect V} {reply : Reply}

/-- The handler of the request, if it runs, returns before the request expires. -/
def isInTime (t : Task V) : Bool :=
  match t.phase with
  | .handling _ endsAt _ => endsAt ≤ t.expiresAt
  | _ => true

/-- The request has been executed, and the reply is what it is answered with. -/
def Delivers (c : Command V) (reply : Reply) (t : Task V) : Prop :=
  match t.phase with
  | .handling _ _ outcome => reply = .ofHandler c.responseCodec outcome
  | .storing response _ | .answering response => t.Carries reply response
  | .acknowledging | .finished | .halted => True
  | _ => False

theorem Goes.delivers (hg : t.Goes c s phase state effect) (h : t.Delivers c reply)
    (ht : t.isInTime = true) : ({ t with phase } : Task V).Delivers c reply := by
  cases hg with
  | returned hp hle hc =>
    rw [Delivers, hp] at h
    exact h ▸ hc
  | timedOut hp hlt hle =>
    rw [isInTime, hp, decide_eq_true_iff] at ht
    exact absurd (ht.trans hle) (not_le.mpr hlt)
  | stored hp | unstored hp =>
    rw [Delivers, hp] at h
    exact h
  | answered | lapsed | acknowledged | halted => trivial
  | unanswerable hp | refused hp | accepted hp | joined hp | reserved hp | served hp
  | disappointed hp | gaveUp hp | rejected hp | invoked hp =>
    rw [Delivers, hp] at h
    exact h.elim

/-- The request is being handled, or what it got is about to be stored. -/
def IsUnderway (t : Task V) : Prop :=
  match t.phase with
  | .handling .. | .storing .. => True
  | _ => False

theorem isUnderway_of_storing {response : Message} {execution : Nat}
    (h : t.phase = .storing response execution) : t.IsUnderway := by
  rw [IsUnderway, h]
  trivial

theorem Goes.isUnderway (hg : t.Goes c s phase state effect)
    (h : ({ t with phase } : Task V).IsUnderway) :
    t.IsUnderway ∨ t.phase = .executing ∧ ∃ reply, ({ t with phase } : Task V).Delivers c reply ∧
      ((∃ request, effect = .invoke request ∧
          reply = .ofHandler c.responseCodec (c.handler s.runs request).outcome) ∨
        effect = .none ∧ (validate c t.message s).1 = .error reply) := by
  cases hg with
  | rejected hp hv hc => exact .inr ⟨hp, _, hc, .inr ⟨rfl, hv⟩⟩
  | invoked hp hv hr => exact .inr ⟨hp, _, rfl, .inl ⟨_, rfl, by rw [hr]⟩⟩
  | returned hp | timedOut hp =>
    left
    rw [IsUnderway, hp]
    trivial
  | _ => exact h.elim

theorem Goes.awaiting (hg : t.Goes c s phase state effect) {p place : Nat}
    (h : phase = .awaiting p place) (hs : s.cache.state.WellFormed)
    (hl : s.cache.state.Linked) :
    ∃ key entry, s.cache.state.entries.get? key = some entry ∧ key.serial = p ∧
      (entry.correlation = t.correlation ∨ c.isCacheable = true ∧
        entry.content = some ((cacheRequest c t.message).content c.acrossInvokers)) := by
  cases hg with
  | joined hp _ hr =>
    cases h
    exact hs.entry_of_retrieve hl (congrArg Prod.fst hr)
  | _ => cases h

theorem Goes.answering (hg : t.Goes c s phase state effect) {m : Message}
    (h : phase = .answering m) :
    refusal? t.message ≠ none ∨
      (∃ promise place response, t.phase = .awaiting promise place ∧
        s.cache.state.promise promise = .stored response ∧ m = t.address response) ∨
      ∃ execution, t.phase = .storing m execution := by
  cases hg with
  | refused _ hr =>
    left
    simp [hr]
  | served hp hs =>
    cases h
    exact .inr (.inl ⟨_, _, _, hp, hs, rfl⟩)
  | stored hp | unstored hp =>
    cases h
    exact .inr (.inr ⟨_, hp⟩)
  | _ => cases h

/-- What a step does to the cache: promises are given for requests that are looked up, and kept
where responses are stored. -/
theorem Goes.cache_cases (hg : t.Goes c s phase state effect) :
    Cache.State.Keeps s.cache.state state ∨
      (phase = .executing ∧ s.cache.state.key? t.correlation = none ∧
        state = s.cache.state.register t.correlation
          (if c.isCacheable then some ((cacheRequest c t.message).content c.acrossInvokers)
            else none)) ∨
      ∃ response execution o, t.phase = .storing response execution ∧
        state = s.cache.state.store s.now (cacheRequest c t.message) response o := by
  cases hg with
  | reserved _ hn => exact .inr (.inl ⟨rfl, hn, rfl⟩)
  | stored hp | halted hp => exact .inr (.inr ⟨_, _, _, hp, rfl⟩)
  | unstored _ _ hstate =>
    obtain rfl | rfl := hstate
    · exact .inl (.refl _)
    · exact .inl (Cache.State.keeps_abandon _ _)
  | _ => exact .inl (.refl _)

end Request.Task

namespace World

variable {V : Type} {w w' : World V} {i j k p x : Nat} {b b' : RequestEntry V} {e : Executor V}

/-- The content of a request if it may be answered with the response to an equivalent one. -/
def contentOf (w : World V) (b : RequestEntry V) : Option Cache.Content :=
  w.executors[b.executor]?.bind fun e =>
    if e.command.isCacheable then
      some ((Request.cacheRequest e.command b.task.message).content e.command.acrossInvokers)
    else none

def Shares (w : World V) (b b' : RequestEntry V) : Prop :=
  b.task.correlation = b'.task.correlation ∨
    ∃ content, w.contentOf b = some content ∧ w.contentOf b' = some content

theorem contentOf_eq (he : w.executors[b.executor]? = some e) :
    w.contentOf b = if e.command.isCacheable then
      some ((Request.cacheRequest e.command b.task.message).content e.command.acrossInvokers)
    else none := by
  rw [contentOf, he, Option.bind_some]

theorem Steady.contentOf (h : Steady w w') (he : w.executors[b.executor]? = some e)
    (hb : b'.IsSame b) : w'.contentOf b' = w.contentOf b := by
  obtain ⟨e', he', hc, -⟩ := h.executors he
  rw [contentOf_eq he, contentOf_eq (hb.executor_eq ▸ he'), hc, hb.message_eq]

namespace Moves

theorem cache_cases (h : Moves w w') (hw : w.Consistent) (k : Nat) :
    Cache.State.Keeps (w.cacheState k) (w'.cacheState k) ∨
      (∃ (i : Nat) (b : RequestEntry V) (e : Executor V), w.requests[i]? = some b ∧
        w.executors[b.executor]? = some e ∧ e.cache = k ∧
        w'.requests[i]? = some { b with task := { b.task with phase := .executing } } ∧
        (w.cacheState k).key? b.task.correlation = none ∧
        w'.cacheState k = (w.cacheState k).register b.task.correlation (w.contentOf b)) ∨
      ∃ (i : Nat) (b : RequestEntry V) (e : Executor V) (response : Message) (execution : Nat)
        (o : Cache.StoreOptions), w.requests[i]? = some b ∧
        w.executors[b.executor]? = some e ∧ e.cache = k ∧
        b.task.phase = .storing response execution ∧
        w'.cacheState k = (w.cacheState k).store w.now
          (Request.cacheRequest e.command b.task.message) response o := by
  cases h with
  | outside ho =>
    obtain ⟨config, hc⟩ := ho.caches k
    rw [hc]
    exact .inl (Cache.State.keeps_congr rfl rfl rfl)
  | expiry _ _ _ id hc =>
    left
    rw [hc]
    split
    next hk =>
      rw [hk]
      exact (hw.wellFormed id).keeps_expireOne w.now
    next => exact .refl _
  | arrival _ _ _ _ _ hc =>
    rw [hc]
    exact .inl (.refl _)
  | @turn i b e _ _ _ _ ht =>
    obtain ⟨hs, hb, he, hk, hn, hg, hr, hc, -⟩ := ht
    by_cases hce : k = e.cache
    · have hold := cacheState_of_getElem? hk
      have hnew : w'.cacheState k = _ := (hc k).trans (if_pos hce)
      rw [hnew, hce, hold]
      refine hg.cache_cases.imp id (Or.imp ?_ ?_)
      · rintro ⟨rfl, hnone, rfl⟩
        obtain ⟨hlt, -⟩ := List.getElem?_eq_some_iff.mp hb
        exact ⟨i, b, e, hb, he, rfl, by rw [hr, List.getElem?_set_self hlt], hnone,
          by rw [contentOf_eq he]⟩
      · rintro ⟨response, execution, o, hp, rfl⟩
        exact ⟨i, b, e, response, execution, o, hb, he, rfl, hp, by rw [hn]⟩
    · left
      rw [hc, if_neg hce]
      exact .refl _
  | abort ha | abandon ha =>
    left
    rw [ha.caches]
    split
    · exact Cache.State.keeps_abandon _ _
    · exact .refl _

theorem hasReservation (h : Moves w w') (hb : w'.requests[j]? = some b')
    (hres : b'.task.hasReservation = true) :
    ∃ b, w.requests[j]? = some b ∧ b'.IsSame b ∧ (b.task.hasReservation = true ∨
      ∃ k, w.cacheOf b = some k ∧ (w.cacheState k).key? b.task.correlation = none) := by
  obtain hb | ⟨-, hp⟩ | hp | ⟨b, e, s, phase, state, _, ht, rfl⟩ := h.request_cases hb
  · exact ⟨b', hb, ⟨rfl, rfl⟩, .inl hres⟩
  · rw [Request.Task.hasReservation, hp] at hres
    cases hres
  · rw [Request.Task.hasReservation, hp] at hres
    cases hres
  · refine ⟨b, ht.request, ht.isSame, (ht.goes.hasReservation hres).imp id fun hnone => ?_⟩
    exact ⟨e.cache, ht.cacheOf, ht.cacheState ▸ hnone⟩

theorem awaiting (h : Moves w w') (hw : w.Consistent) (hl : ∀ k, (w.cacheState k).Linked)
    (hb : w'.requests[j]? = some b') {place : Nat} (hp : b'.task.phase = .awaiting p place) :
    ∃ b, w.requests[j]? = some b ∧ b'.IsSame b ∧ (b.task.phase = .awaiting p place ∨
      ∃ k key entry, w.cacheOf b = some k ∧ (w.cacheState k).entries.get? key = some entry ∧
        key.serial = p ∧ (entry.correlation = b.task.correlation ∨
          ∃ content, entry.content = some content ∧ w.contentOf b = some content)) := by
  obtain hb | ⟨-, hp'⟩ | hp' | ⟨b, e, s, phase, state, _, ht, rfl⟩ := h.request_cases hb
  · exact ⟨b', hb, ⟨rfl, rfl⟩, .inl hp⟩
  · cases hp.symm.trans hp'
  · cases hp.symm.trans hp'
  · have hs := ht.cacheState
    obtain ⟨key, entry, hg, hserial, hcase⟩ :=
      ht.goes.awaiting hp (hs ▸ hw.wellFormed _) (hs ▸ hl _)
    refine ⟨b, ht.request, ht.isSame, .inr ⟨_, key, entry, ht.cacheOf, hs ▸ hg, hserial, ?_⟩⟩
    refine hcase.imp id fun ⟨hc, hcontent⟩ => ⟨_, hcontent, ?_⟩
    rw [contentOf_eq ht.executor, if_pos hc]

theorem stored (h : Moves w w') (hw : w.Consistent) {m : Message}
    (hp : (w'.cacheState k).promise p = .stored m) :
    (w.cacheState k).promise p = .stored m ∨
      ∃ (j : Nat) (b : RequestEntry V) (execution : Nat) (key : Cache.EntryKey),
        w.requests[j]? = some b ∧ w.cacheOf b = some k ∧ b.task.phase = .storing m execution ∧
        (w.cacheState k).Reserves b.task.correlation key ∧ key.serial = p := by
  obtain hk | ⟨i, b, e, -, -, -, -, -, hc⟩ |
      ⟨i, b, e, response, execution, o, hb, he, hcache, hphase, hc⟩ :=
    h.cache_cases hw k
  · exact .inl (hk.promise_of hp)
  · rw [hc, Cache.State.promise_register] at hp
    split at hp
    · cases hp
    · exact .inl hp
  · rw [hc] at hp
    refine (((hw.wellFormed k).store_keeps _ _ _ _).2.2 hp).imp id ?_
    rintro ⟨key, hkey, hserial, rfl⟩
    obtain ⟨e', he', ht⟩ := hw.tasks hb
    rw [he, Option.some_inj] at he'
    subst he'
    obtain ⟨key', hkey'⟩ := ht.reserves (by rw [Request.Task.hasReservation, hphase])
    rw [hcache] at hkey'
    have heq : key' = key := Option.some_inj.mp (hkey'.key?.symm.trans hkey)
    exact ⟨i, b, execution, key, hb, by rw [cacheOf, he, ← hcache]; rfl, hphase, heq ▸ hkey',
      hserial⟩

theorem linked (h : Moves w w') (hw : w.Consistent) (hl : (w.cacheState k).Linked) :
    (w'.cacheState k).Linked := by
  obtain hk | ⟨i, b, e, -, -, -, -, -, hc⟩ | ⟨i, b, e, response, execution, o, -, -, -, -, hc⟩ :=
    h.cache_cases hw k
  · exact hk.linked hl
  · exact hc ▸ (hw.wellFormed k).linked_register hl _ _
  · exact hc ▸ ((hw.wellFormed k).store_keeps _ _ _ _).2.1 hl

end Moves

end World

end CommandBus
