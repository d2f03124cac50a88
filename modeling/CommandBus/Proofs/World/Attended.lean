import CommandBus.Proofs.Cache.Pending
import CommandBus.Proofs.Executor.Reservation
import Mathlib

namespace CommandBus

namespace Request.Task

variable {V : Type} {c : Command V} {t : Task V} {s : Surroundings} {phase : Phase V}
  {state : Cache.State} {effect : Effect V} {b : Cache.Correlation} {key : Cache.EntryKey}

/-- A pending entry was there before a step, and if it is the request's own the request still has
it or leaves it; or the request has just reserved it. -/
theorem Goes.reserves_of (hg : t.Goes c s phase state effect) (hs : s.cache.state.WellFormed)
    (hr : state.Reserves b key) :
    s.cache.state.Reserves b key ∧ (t.hasReservation = true → b = t.correlation →
        ({ t with phase } : Task V).hasReservation = true ∨
          ∃ r, effect = .release r ∧ state ≠ (s.cache.state.abandon r).2) ∨
      b = t.correlation ∧ ({ t with phase } : Task V).hasReservation = true := by
  cases hg with
  | reserved hp hn =>
    obtain hold | hnew := hs.reserves_of_register hn hr
    · exact .inl ⟨hold, fun _ _ => .inl rfl⟩
    · exact .inr ⟨hnew, rfl⟩
  | stored hp | halted hp =>
    obtain ⟨hold, hne⟩ := hs.reserves_of_store hr
    exact .inl ⟨hold, fun _ heq => absurd heq hne⟩
  | unstored hp _ hstate =>
    have hgone (heq : state = (s.cache.state.abandon (cacheRequest c t.message)).2) :
        b ≠ t.correlation := (hs.reserves_of_abandon (heq ▸ hr)).2
    refine .inl ⟨?_, fun _ heq => .inr ⟨_, rfl, fun hstate => hgone hstate heq⟩⟩
    obtain rfl | rfl := hstate
    · exact hr
    · exact (hs.reserves_of_abandon hr).1
  | rejected | invoked | returned | timedOut => exact .inl ⟨hr, fun _ _ => .inl rfl⟩
  | unanswerable hp | refused hp | accepted hp | joined hp | served hp | disappointed hp
  | gaveUp hp | answered hp | lapsed hp | acknowledged hp =>
    refine .inl ⟨hr, fun hres _ => ?_⟩
    rw [Task.hasReservation, hp] at hres
    cases hres

theorem Goes.answerable (hg : t.Goes c s phase state effect) (hs : s.cache.state.WellFormed)
    (h : s.cache.state.Answerable) : state.Answerable := by
  cases hg with
  | reserved _ hn => exact h.register hs _ _
  | stored | halted => exact h.apply hs (.store ..)
  | unstored _ _ hstate =>
    obtain rfl | rfl := hstate
    · exact h
    · exact h.apply hs (.abandon _)
  | _ => exact h

end Request.Task

namespace World

variable {V : Type} {w w' : World V} {i j c : Nat} {b b' : RequestEntry V} {e : Executor V}
  {key : Cache.EntryKey}

structure Holds (w : World V) (c : Nat) (correlation : Cache.Correlation) (j : Nat)
    (b : RequestEntry V) : Prop where
  request : w.requests[j]? = some b
  cacheOf : w.cacheOf b = some c
  hasReservation : b.task.hasReservation = true
  correlation_eq : b.task.correlation = correlation

/-- The request has left a pending entry of a cache, which a task of its own is to give up. -/
structure Leaves (w : World V) (c : Nat) (correlation : Cache.Correlation) (j : Nat)
    (b : RequestEntry V) : Prop where
  request : w.requests[j]? = some b
  cacheOf : w.cacheOf b = some c
  mem : j ∈ w.leaving
  correlation_eq : b.task.correlation = correlation

structure Attended (w : World V) : Prop where
  answerable : ∀ c, (w.cacheState c).Answerable
  holder : ∀ {c : Nat} {correlation : Cache.Correlation} {key : Cache.EntryKey},
    (w.cacheState c).Reserves correlation key →
      ∃ j b, w.Holds c correlation j b ∨ w.Leaves c correlation j b

variable {correlation : Cache.Correlation}

theorem Holds.executor (h : w.Holds c correlation j b) :
    ∃ e, w.executors[b.executor]? = some e ∧ e.cache = c :=
  Option.map_eq_some_iff.mp h.cacheOf

theorem cacheOf_steady (hs : Steady w w') (hc : w.cacheOf b = some c) : w'.cacheOf b = some c := by
  obtain ⟨e, he, -⟩ := Option.map_eq_some_iff.mp hc
  exact (hs.cacheOf he).trans hc

theorem attends_steady (hs : Steady w w') (hb : w'.requests[j]? = w.requests[j]?)
    (hj : j ∈ w.leaving → j ∈ w'.leaving)
    (h : w.Holds c correlation j b ∨ w.Leaves c correlation j b) :
    w'.Holds c correlation j b ∨ w'.Leaves c correlation j b :=
  h.imp
    (fun h => ⟨hb.trans h.request, cacheOf_steady hs h.cacheOf, h.hasReservation, h.correlation_eq⟩)
    (fun h => ⟨hb.trans h.request, cacheOf_steady hs h.cacheOf, hj h.mem, h.correlation_eq⟩)

namespace Attended

theorem of_isFresh (h : w.IsFresh) : w.Attended := by
  refine ⟨fun c => ?_, fun {c _ _} hr => ?_⟩ <;> obtain ⟨config, hc⟩ := h.caches c
  · rw [hc]
    exact Cache.State.Answerable.empty config
  · rw [hc] at hr
    cases hr.key?

theorem turn (h : w.Attended) (hw : w.Consistent) {s : Request.Surroundings}
    {phase : Request.Phase V} {state : Cache.State} {effect : Request.Effect V}
    (ht : Turn w w' i b e s phase state effect) : w'.Attended := by
  have hold : w.cacheState e.cache = s.cache.state := ht.cacheState
  have hwf : s.cache.state.WellFormed := hold ▸ hw.wellFormed _
  have hself := ht.request_self
  have hother {c : Nat} {correlation : Cache.Correlation} {j : Nat} {b' : RequestEntry V}
      (hh : w.Holds c correlation j b' ∨ w.Leaves c correlation j b') (hne : j ≠ i) :
      w'.Holds c correlation j b' ∨ w'.Leaves c correlation j b' :=
    attends_steady ht.steady (by rw [ht.requests_eq, List.getElem?_set_ne (Ne.symm hne)])
      ht.mem_leaving_of_mem hh
  have hcache : w'.cacheOf { b with task := { b.task with phase } } = some e.cache :=
    cacheOf_steady ht.steady ht.cacheOf
  refine ⟨fun c => ?_, fun {c correlation key} hr => ?_⟩
  · rw [ht.caches]
    split
    · exact ht.goes.answerable hwf (hold ▸ h.answerable _)
    · exact h.answerable c
  · rw [ht.caches] at hr
    split at hr
    next hc =>
      subst hc
      -- An entry that is pending after the turn was so before, or is reserved by it.
      obtain ⟨hr, hown⟩ | ⟨rfl, hres⟩ := ht.goes.reserves_of hwf hr
      · obtain ⟨j, b', hh⟩ := h.holder (hold.symm ▸ hr)
        by_cases hj : j = i
        · subst hj
          refine ⟨j, { b with task := { b.task with phase } }, ?_⟩
          obtain hh | hh := hh <;> cases ht.request.symm.trans hh.request
          · refine (hown hh.hasReservation hh.correlation_eq.symm).imp
              (fun hres => ⟨hself, hcache, hres, hh.correlation_eq⟩) ?_
            rintro ⟨r, rfl, hne⟩
            obtain ⟨-, hgone⟩ | ⟨hl, -⟩ := ht.leaving
            · exact absurd (hgone r rfl) hne
            · exact ⟨hself, hcache, hl ▸ List.mem_append_right _ (List.mem_singleton_self j),
                hh.correlation_eq⟩
          · exact .inr ⟨hself, hcache, ht.mem_leaving_of_mem hh.mem, hh.correlation_eq⟩
        · exact ⟨j, b', hother hh hj⟩
      · exact ⟨i, _, .inl ⟨hself, hcache, hres, rfl⟩⟩
    next hc =>
      obtain ⟨j, b', hh⟩ := h.holder hr
      refine ⟨j, b', hother hh ?_⟩
      rintro rfl
      refine hc ?_
      obtain hh | hh := hh <;> cases ht.request.symm.trans hh.request <;>
        exact Option.some.inj (hh.cacheOf.symm.trans ht.cacheOf)

theorem abort (h : w.Attended) (hw : w.Consistent) {isLocked : Bool}
    (ha : Abort w w' i b e isLocked) : w'.Attended := by
  have hcacheOf : w.cacheOf b = some e.cache := by rw [World.cacheOf, ha.executor, Option.map_some]
  refine ⟨fun c => ?_, fun {c correlation key} hr => ?_⟩
  · rw [ha.caches]
    split
    · exact (h.answerable c).apply (hw.wellFormed c) (.abandon _)
    · exact h.answerable c
  · rw [ha.caches] at hr
    have hold : (w.cacheState c).Reserves correlation key ∧
        (c = e.cache → b.task.hasReservation = true → isLocked = false →
          correlation ≠ b.task.correlation) := by
      split at hr
      next =>
        obtain ⟨hr, hne⟩ := (hw.wellFormed c).reserves_of_abandon hr
        exact ⟨hr, fun _ _ _ => hne⟩
      next hcond => exact ⟨hr, fun hc hres hlocked => absurd ⟨hc, hres, hlocked⟩ hcond⟩
    obtain ⟨j, b', hh⟩ := h.holder hold.1
    by_cases hj : j = i
    · -- The request that is aborted gives up what it has reserved, or leaves it.
      subst hj
      obtain hh | hh := hh <;> cases ha.request.symm.trans hh.request <;>
        refine ⟨j, _, .inr ⟨ha.request_self, cacheOf_steady ha.steady hh.cacheOf, ?_,
          hh.correlation_eq⟩⟩
      · have hc := Option.some.inj (hh.cacheOf.symm.trans hcacheOf)
        have hlocked : isLocked = true := by
          rw [← Bool.not_eq_false]
          exact fun hn => hold.2 hc hh.hasReservation hn hh.correlation_eq.symm
        rw [ha.leaving_eq, if_pos ⟨hh.hasReservation, hlocked⟩]
        exact List.mem_append_right _ (List.mem_singleton_self j)
      · exact ha.mem_leaving_of_mem hh.mem
    · exact ⟨j, b', attends_steady ha.steady
        (by rw [ha.requests_eq, List.getElem?_set_ne (Ne.symm hj)]) ha.mem_leaving_of_mem hh⟩

theorem abandon (h : w.Attended) (hw : w.Consistent) (ha : Abandon w w' i b e) : w'.Attended := by
  have hcacheOf : w.cacheOf b = some e.cache := by rw [World.cacheOf, ha.executor, Option.map_some]
  refine ⟨fun c => ?_, fun {c correlation key} hr => ?_⟩
  · rw [ha.caches]
    split
    · exact (h.answerable c).apply (hw.wellFormed c) (.abandon _)
    · exact h.answerable c
  · rw [ha.caches] at hr
    have hold : (w.cacheState c).Reserves correlation key ∧
        (c = e.cache → correlation ≠ b.task.correlation) := by
      split at hr
      next =>
        obtain ⟨hr, hne⟩ := (hw.wellFormed c).reserves_of_abandon hr
        exact ⟨hr, fun _ => hne⟩
      next hcond => exact ⟨hr, fun hc => absurd hc hcond⟩
    obtain ⟨j, b', hh⟩ := h.holder hold.1
    have hne : j ≠ i := by
      rintro rfl
      obtain hh | hh := hh <;> cases ha.request.symm.trans hh.request <;>
        exact hold.2 (Option.some.inj (hh.cacheOf.symm.trans hcacheOf)) hh.correlation_eq.symm
    refine ⟨j, b', attends_steady ha.steady (by rw [ha.requests_eq]) (fun hj => ?_) hh⟩
    rw [ha.leaving_eq]
    simpa using ⟨hj, hne⟩

theorem moves (h : w.Attended) (hw : w.Consistent) (hm : Moves w w') : w'.Attended := by
  cases hm with
  | outside ho =>
    refine ⟨fun c => ?_, fun {c _ _} hr => ?_⟩ <;> obtain ⟨config, hc⟩ := ho.caches c
    · rw [hc]
      exact (h.answerable c).apply (hw.wellFormed c) (.setConfig config)
    · have hch := (hw.wellFormed c).changes_config config
      rw [hc] at hr
      obtain ⟨j, b, hh⟩ := h.holder (hch.reserves_of_length_eq (hw.wellFormed c) rfl hr)
      exact ⟨j, b, attends_steady ho.toSteady (by rw [ho.requests_eq]) (ho.leaving_eq ▸ id) hh⟩
  | expiry hs hreq hl id hc =>
    refine ⟨fun c => ?_, fun {c correlation key} hr => ?_⟩
    · rw [hc]
      split
      · exact (h.answerable id).apply (hw.wellFormed id) (.expireOne _)
      · exact h.answerable c
    · rw [hc] at hr
      have hold : (w.cacheState c).Reserves correlation key := by
        split at hr
        next heq =>
          subst heq
          exact (hw.wellFormed c).reserves_of_expireOne hr
        next => exact hr
      obtain ⟨j, b, hh⟩ := h.holder hold
      exact ⟨j, b, attends_steady hs (by rw [hreq]) (hl ▸ fun hj => hj) hh⟩
  | arrival hs _ d hreq hl hc =>
    refine ⟨fun c => hc c ▸ h.answerable c, fun hr => ?_⟩
    rw [hc] at hr
    obtain ⟨j, b, hh⟩ := h.holder hr
    refine ⟨j, b, attends_steady hs ?_ (hl ▸ fun hj => hj) hh⟩
    obtain ⟨hlt, -⟩ := List.getElem?_eq_some_iff.mp (hh.elim (·.request) (·.request))
    rw [hreq, List.getElem?_append_left hlt]
  | turn ht => exact h.turn hw ht
  | abort ha => exact h.abort hw ha
  | abandon ha => exact h.abandon hw ha

theorem of_run (hf : w.IsFresh) (h : Run w w') : w'.Attended := by
  induction h with
  | refl => exact of_isFresh hf
  | tail hrun hstep ih => exact ih.moves (.of_run hf hrun) (moves_of_happens hstep)

end Attended

end World

end CommandBus
