import CommandBus.Proofs.Executor.Completion
import Mathlib

namespace CommandBus

namespace Request.Task

variable {V : Type} {t : Task V} {received now : Nat} {log : List (Nat × Effect V)}

end Request.Task

namespace World

variable {V : Type} {w₀ w w' u v : World V} {i j k c p x : Nat} {b b' : RequestEntry V}
  {e : Executor V} {correlation : Cache.Correlation} {key : Cache.EntryKey}

theorem Moves.arrived (h : Moves w w') (hn : w.requests[i]? = none)
    (hb : w'.requests[i]? = some b) :
    b = ⟨b.executor, Request.arrive b.task.delivery w.now⟩ := by
  have hset {j : Nat} {b₀ b₁ : RequestEntry V} (hb₀ : w.requests[j]? = some b₀)
      (hr : w'.requests = w.requests.set j b₁) : False := by
    obtain ⟨rfl, -⟩ | ⟨-, hb⟩ := getElem?_requests_set hr hb
    · cases hn.symm.trans hb₀
    · cases hn.symm.trans hb
  cases h with
  | outside ho => cases hn.symm.trans (ho.requests_eq ▸ hb)
  | expiry _ hr => cases hn.symm.trans (hr ▸ hb)
  | arrival _ _ d hr =>
    rw [hr, List.getElem?_append_right (List.getElem?_eq_none_iff.mp hn)] at hb
    obtain rfl := List.mem_singleton.mp (List.mem_of_getElem? hb)
    rfl
  | turn ht => exact (hset ht.request ht.requests_eq).elim
  | abort ha => exact (hset ha.request ha.requests_eq).elim
  | abandon ha => cases hn.symm.trans (ha.requests_eq ▸ hb)

theorem arrival_of_run (hf : w₀.IsFresh) (h : Run w₀ w) (hb : w.requests[i]? = some b) :
    ∃ u received, Run w₀ u ∧ Run u w ∧ received ≤ u.now ∧
      u.requests[i]? = some ⟨b.executor, Request.arrive b.task.delivery received⟩ := by
  induction h generalizing b with
  | refl =>
    rw [hf.requests_eq] at hb
    cases hb
  | @tail v w hrun hstep ih =>
    have hm := moves_of_happens hstep
    cases hv : v.requests[i]? with
    | none =>
      exact ⟨w, v.now, hrun.tail hstep, .refl, hm.steady.now_le,
        hb.trans (congrArg some (hm.arrived hv hb))⟩
    | some b₀ =>
      obtain ⟨b', hb', hsame⟩ := hm.request hv
      cases hb.symm.trans hb'
      obtain ⟨u, received, hu, hu', hle, hr⟩ := ih hv
      rw [← hsame.executor_eq, ← hsame.delivery_eq] at hr
      exact ⟨u, received, hu, hu'.tail hstep, hle, hr⟩

/-- A cache has no entry for a correlation, or a response, or an entry that is pending: a request of
another executor is about to complete it, or a request has left it, and it can be given up at any
time. -/
inductive Spares (w : World V) (x c : Nat) (correlation : Cache.Correlation) : Prop
  | absent (h : (w.cacheState c).key? correlation = none)
  | stored {key : Cache.EntryKey} {response : Message}
    (hk : (w.cacheState c).key? correlation = some key)
    (hp : (w.cacheState c).promise key.serial = .stored response)
  | pending {key : Cache.EntryKey} {k : Nat} {b : RequestEntry V}
    (hk : (w.cacheState c).Reserves correlation key) (hh : w.Holds c correlation k b)
    (hx : b.executor ≠ x) (hc : w.Completes c key.serial k b.task.expiresAt)
  | left {key : Cache.EntryKey} {k : Nat} {b : RequestEntry V}
    (hk : (w.cacheState c).Reserves correlation key) (hl : w.Leaves c correlation k b)
    (hc : ∀ u, Operated w u → (u.cacheState c).promise key.serial = .pending →
      u.GivesUp c key.serial k)

theorem Abort.evicts {isLocked : Bool} (ha : Abort w w' i b e isLocked) (hw : w.Consistent)
    (hres : b.task.hasReservation = true) : ∃ key,
      (w.cacheState e.cache).Reserves b.task.correlation key ∧
        ∀ z, Run w' z → (z.cacheState e.cache).promise key.serial = .evicted ∨
          isLocked = true ∧ (z.cacheState e.cache).promise key.serial = .pending ∧
            z.GivesUp e.cache key.serial i := by
  obtain ⟨e', he', ht⟩ := hw.tasks ha.request
  cases ha.executor.symm.trans he'
  obtain ⟨key, hk⟩ := ht.reserves hres
  have hwf := hw.wellFormed e.cache
  have hw' := hw.moves (.abort ha)
  refine ⟨key, hk, fun z hz => ?_⟩
  cases isLocked with
  | false =>
    have hevicted : (w'.cacheState e.cache).promise key.serial = .evicted := by
      rw [ha.caches, if_pos ⟨rfl, hres, rfl⟩]
      exact (hk.promise_abandon (r := Request.cacheRequest e.command b.task.message) hwf).2
    have hlt : key.serial < (w'.cacheState e.cache).promises.length := by
      obtain ⟨entry, hg, -⟩ := hk.exists_entry
      obtain ⟨kept, hc⟩ := (Moves.abort ha).changes hw.wellFormed e.cache
      exact (hwf.serial_lt hg).trans_le hc.length_le
    left
    rw [(promise_of_run hw' hz hlt).2 (by rw [hevicted]; simp), hevicted]
  | true =>
    have hk' : (w'.cacheState e.cache).Reserves b.task.correlation key := by
      rw [ha.caches, if_neg (by simp)]
      exact hk
    have hleft : w'.Leaves e.cache b.task.correlation i
        { b with task := { b.task with phase := .finished } } := by
      refine ⟨ha.request_self, cacheOf_steady ha.steady ?_, ?_, rfl⟩
      · exact congrArg (Option.map Executor.cache) ha.executor
      · rw [ha.leaving_eq, if_pos ⟨hres, rfl⟩]
        exact List.mem_append_right _ (List.mem_singleton_self i)
    exact (hleft.evicted_or_givesUp hw' hk' hz).imp_right fun h => ⟨rfl, h⟩

/-- The first executor has been told to end, and takes no more requests. -/
def ending (w : World Bytes) : World Bytes :=
  ((w.modifyExecutor 0 ({ · with isCancelled := true })).modifyExecutor 0
    ({ · with isTaken := true })).stepAll [.serve 0]

def aborting (w : World Bytes) (i : Nat) (isLocked : Bool) : World Bytes :=
  (w.ending.stepRequest? i isLocked).getD w.ending

def ended (w : World Bytes) (i : Nat) (isLocked : Bool) : World Bytes :=
  ((w.aborting i isLocked).stepAll [.serve 0, .serve 0]).modifyNetwork fun n =>
    (n.unsubscribe (.plain 0) "c").2

end World

end CommandBus
