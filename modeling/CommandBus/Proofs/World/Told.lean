import CommandBus.Proofs.World.Serving
import Mathlib

namespace CommandBus

namespace World

variable {V : Type} {w w' v v' : World V} {i : Nat} {b : RequestEntry V} {e : Executor V}
  {effect : Request.Effect V} {log : List (Nat × Request.Effect V)}

def effectOn (client : Client) (n : Network) : Request.Effect V → Network
  | .publish m => (n.publish client m).2
  | .acknowledge ack => n.acknowledge ack
  | .none | .invoke _ | .release _ => n

def HappensElsewhere (i : Nat) (w w' : World V) : Prop :=
  (∃ t, t ≠ .request i ∧ Acts w t w') ∨ Outside w w'

/-- A run in which this request is not aborted, with the effects of its steps. -/
inductive Told (i : Nat) (w : World V) : World V → List (Nat × Request.Effect V) → Prop
  | refl : Told i w w []
  | acts {v v' : World V} {log : List (Nat × Request.Effect V)} {effect : Request.Effect V}
    {isLocked : Bool} (h : Told i w v log) (he : v.effect? i = some effect)
    (hs : v.stepRequest? i isLocked = some v') :
    Told i w v' (log ++ [(v.now, effect)])
  | elsewhere {v v' : World V} {log : List (Nat × Request.Effect V)} (h : Told i w v log)
    (hs : HappensElsewhere i v v') : Told i w v' log

theorem Told.run (h : Told i w w' log) : Run w w' := by
  induction h with
  | refl => exact .refl
  | acts _ he hs ih => exact ih.tail (.inl ⟨.request i, .request hs⟩)
  | elsewhere _ hs ih =>
    obtain ⟨t, -, hs⟩ | ho := hs
    · exact ih.tail (.inl ⟨t, hs⟩)
    · exact ih.tail (.inr ho)

theorem Told.stepAll (h : Told i w v log) (tasks : List WorldTask)
    (hacts : ∀ k < tasks.length, tasks[k]? = some (.request i) →
      ((v.stepAll (tasks.take k)).effect? i).isSome = true) :
    ∃ log', Told i w (v.stepAll tasks) log' := by
  induction tasks generalizing v log with
  | nil => exact ⟨log, h⟩
  | cons t rest ih =>
    have hrest : ∀ k < rest.length, rest[k]? = some (.request i) →
        (((((step? t v).map Prod.fst).getD v).stepAll (rest.take k)).effect? i).isSome = true :=
      fun k hk hr => hacts (k + 1) (Nat.succ_lt_succ hk) hr
    rw [World.stepAll]
    cases hs : step? t v with
    | none =>
      rw [hs] at hrest
      exact ih h hrest
    | some p =>
      rw [hs] at hrest
      by_cases ht : t = .request i
      · subst ht
        obtain ⟨effect, he⟩ := Option.isSome_iff_exists.mp (hacts 0 (Nat.succ_pos _) rfl)
        obtain ⟨v', hv, rfl⟩ := Option.map_eq_some_iff.mp hs
        exact ih (h.acts he hv) hrest
      · exact ih (h.elsewhere (.inl ⟨t, ht, .task hs⟩)) hrest

theorem HappensElsewhere.request (h : HappensElsewhere i w w') (hb : w.requests[i]? = some b) :
    w'.requests[i]? = some b := by
  obtain ⟨t, ht, hs⟩ | ho := h
  · cases t with
    | serve x =>
      obtain ⟨e, loop, loop', -, -, hloop, -⟩ := hs.serveStep.loopStep
      obtain ⟨hlt, -⟩ := List.getElem?_eq_some_iff.mp hb
      generalize w'.requests = after at hloop ⊢
      cases hloop with
      | joins | ends | exits => exact hb
      | takes => rw [List.getElem?_append_left hlt, hb]
    | request j =>
      have hj : j ≠ i := fun hj => ht (hj ▸ rfl)
      obtain ⟨isLocked, hs⟩ := hs.stepRequest?
      obtain ⟨b', e, s, s', task, effect, ha⟩ := exists_advance hs
      rw [ha.requests_eq, List.getElem?_set_ne hj, hb]
    | expiry | collect | sweep | route | call | opening | send | deadline | abandon =>
      rw [(hs.frame rfl).requests_eq, hb]
  · rw [ho.requests_eq, hb]

theorem acts_of_effect? {isLocked : Bool} (he : w.effect? i = some effect)
    (hs : w.stepRequest? i isLocked = some w') :
    ∃ b e s task s', w.requests[i]? = some b ∧ w.executors[b.executor]? = some e ∧
      s.now = w.now ∧ b.task.step? e.command s = some (task, s', effect) ∧
      w'.requests = w.requests.set i { b with task } ∧
      w'.network = effectOn e.client w.network effect := by
  obtain ⟨b, e, s, s', task, effect', ha⟩ := exists_advance hs
  obtain ⟨b', e', hb', he', hending, -⟩ := goes_of_effect? he
  cases ha.request.symm.trans hb'
  cases ha.executor.symm.trans he'
  obtain ⟨phase, state, hturn⟩ := ha.turn hending hs
  cases he.symm.trans hturn.effect_eq
  have hproceed := ha.proceed
  rw [Request.Task.proceed?, if_neg (by simp [hending])] at hproceed
  refine ⟨b, e, s, task, s', ha.request, ha.executor, ha.now_eq, hproceed, ha.requests_eq, ?_⟩
  rw [ha.eq]
  cases effect with
  | release r => cases isLocked <;> (dsimp only; split <;> rfl)
  | none | invoke | publish | acknowledge => dsimp only; split <;> rfl

end World

end CommandBus
