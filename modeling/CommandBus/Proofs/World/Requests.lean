import CommandBus.Proofs.World.Moves
import Mathlib

namespace CommandBus

structure RequestEntry.IsSame {V : Type} (b b' : RequestEntry V) : Prop where
  executor_eq : b.executor = b'.executor
  delivery_eq : b.task.delivery = b'.task.delivery

namespace RequestEntry.IsSame

variable {V : Type} {b b' b'' : RequestEntry V}

theorem trans (h : b.IsSame b') (h' : b'.IsSame b'') : b.IsSame b'' :=
  ⟨h.executor_eq.trans h'.executor_eq, h.delivery_eq.trans h'.delivery_eq⟩

theorem message_eq (h : b.IsSame b') : b.task.message = b'.task.message := by
  rw [Request.Task.message, Request.Task.message, h.delivery_eq]

end RequestEntry.IsSame

namespace World

variable {V : Type} {w w' : World V} {i j : Nat} {b b' : RequestEntry V} {e : Executor V}

theorem getElem?_requests_set {b₁ : RequestEntry V} (hr : w'.requests = w.requests.set i b₁)
    (hb : w'.requests[j]? = some b') : j = i ∧ b' = b₁ ∨ j ≠ i ∧ w.requests[j]? = some b' := by
  rw [hr, List.getElem?_set] at hb
  by_cases hj : i = j
  · rw [if_pos hj] at hb
    split at hb <;> cases hb
    exact .inl ⟨hj.symm, rfl⟩
  · rw [if_neg hj] at hb
    exact .inr ⟨Ne.symm hj, hb⟩

theorem phase_of_invoke {request : IncomingRequest V} (hb : w.requests[i]? = some b)
    (h : w.effect? i = some (.invoke request)) : b.task.phase = .executing := by
  obtain ⟨b', e, hb', -, -, s, phase, state, -, -, hg⟩ := goes_of_effect? h
  obtain rfl := Option.some.inj (hb.symm.trans hb')
  cases hg
  assumption

theorem answering_of_publish {m : Message} (hb : w.requests[i]? = some b)
    (h : w.effect? i = some (.publish m)) :
    ∃ response remaining, b.task.phase = .answering response ∧
      m = { response with expiryInterval := some remaining } := by
  obtain ⟨b', e, hb', -, -, s, phase, state, -, -, hg⟩ := goes_of_effect? h
  obtain rfl := Option.some.inj (hb.symm.trans hb')
  cases hg with
  | answered hp remaining => exact ⟨_, remaining, hp, rfl⟩

namespace Turn

variable {s : Request.Surroundings} {phase : Request.Phase V} {state : Cache.State}
  {effect : Request.Effect V}

theorem isSame (_ : Turn w w' i b e s phase state effect) :
    RequestEntry.IsSame { b with task := { b.task with phase } } b :=
  ⟨rfl, rfl⟩

theorem cacheState (h : Turn w w' i b e s phase state effect) :
    w.cacheState e.cache = s.cache.state :=
  cacheState_of_getElem? h.cache

theorem request_self (h : Turn w w' i b e s phase state effect) :
    w'.requests[i]? = some { b with task := { b.task with phase } } := by
  obtain ⟨hlt, -⟩ := List.getElem?_eq_some_iff.mp h.request
  rw [h.requests_eq, List.getElem?_set_self hlt]

theorem mem_leaving_of_mem (h : Turn w w' i b e s phase state effect) (hj : j ∈ w.leaving) :
    j ∈ w'.leaving := by
  obtain ⟨hl, -⟩ | ⟨hl, -⟩ := h.leaving
  · exact hl ▸ hj
  · exact hl ▸ List.mem_append_left _ hj

end Turn

theorem Abort.request_self {isLocked : Bool} (h : Abort w w' i b e isLocked) :
    w'.requests[i]? = some { b with task := { b.task with phase := .finished } } := by
  obtain ⟨hlt, -⟩ := List.getElem?_eq_some_iff.mp h.request
  rw [h.requests_eq, List.getElem?_set_self hlt]

theorem Abort.mem_leaving_of_mem {isLocked : Bool} (h : Abort w w' i b e isLocked)
    (hj : j ∈ w.leaving) : j ∈ w'.leaving := by
  rw [h.leaving_eq]
  split
  · exact List.mem_append_left _ hj
  · exact hj

namespace Moves

theorem request (h : Moves w w') (hb : w.requests[i]? = some b) :
    ∃ b', w'.requests[i]? = some b' ∧ b'.IsSame b := by
  have hset : ∀ {j b₀ phase}, w.requests[j]? = some b₀ →
      w'.requests = w.requests.set j { b₀ with task := { b₀.task with phase } } →
      ∃ b', w'.requests[i]? = some b' ∧ b'.IsSame b := by
    intro j b₀ phase hb₀ hr
    obtain ⟨hlt, -⟩ := List.getElem?_eq_some_iff.mp hb
    by_cases hj : j = i
    · subst hj
      rw [hb, Option.some_inj] at hb₀
      exact ⟨_, by rw [hr, List.getElem?_set_self hlt], by rw [hb₀], by rw [hb₀]⟩
    · exact ⟨b, by rw [hr, List.getElem?_set_ne hj, hb], rfl, rfl⟩
  cases h with
  | outside ho => exact ⟨b, ho.requests_eq ▸ hb, rfl, rfl⟩
  | expiry _ hr => exact ⟨b, hr ▸ hb, rfl, rfl⟩
  | arrival _ _ d hr =>
    obtain ⟨hlt, -⟩ := List.getElem?_eq_some_iff.mp hb
    exact ⟨b, by rw [hr, List.getElem?_append_left hlt, hb], rfl, rfl⟩
  | turn ht => exact hset ht.request ht.requests_eq
  | abort ha => exact hset ha.request ha.requests_eq
  | abandon ha => exact ⟨b, ha.requests_eq ▸ hb, rfl, rfl⟩

theorem request_cases (h : Moves w w') (hb : w'.requests[j]? = some b') :
    w.requests[j]? = some b' ∨ w.requests[j]? = none ∧ b'.task.phase = .received ∨
      b'.task.phase = .finished ∨
      ∃ b e s phase state effect, Turn w w' j b e s phase state effect ∧
        b' = { b with task := { b.task with phase } } := by
  cases h with
  | outside ho => exact .inl (ho.requests_eq ▸ hb)
  | expiry _ hr => exact .inl (hr ▸ hb)
  | arrival _ _ d hr =>
    rw [hr, List.getElem?_append] at hb
    split at hb
    · exact .inl hb
    next hlt =>
      obtain rfl := List.mem_singleton.mp (List.mem_of_getElem? hb)
      exact .inr (.inl ⟨List.getElem?_eq_none (not_lt.mp hlt), rfl⟩)
  | turn ht =>
    obtain ⟨rfl, rfl⟩ | ⟨-, hb⟩ := getElem?_requests_set ht.requests_eq hb
    · exact .inr (.inr (.inr ⟨_, _, _, _, _, _, ht, rfl⟩))
    · exact .inl hb
  | abort ha =>
    obtain ⟨rfl, rfl⟩ | ⟨-, hb⟩ := getElem?_requests_set ha.requests_eq hb
    · exact .inr (.inr (.inl rfl))
    · exact .inl hb
  | abandon ha => exact .inl (ha.requests_eq ▸ hb)

end Moves

theorem Run.request (h : Run w w') (hb : w.requests[i]? = some b) :
    ∃ b', w'.requests[i]? = some b' ∧ b'.IsSame b := by
  induction h with
  | refl => exact ⟨b, hb, rfl, rfl⟩
  | tail _ hstep ih =>
    obtain ⟨b₁, hb₁, hsame⟩ := ih
    obtain ⟨b₂, hb₂, hsame₂⟩ := (moves_of_happens hstep).request hb₁
    exact ⟨b₂, hb₂, hsame₂.trans hsame⟩

/-- What steps preserve while `P` holds, and what holds when a request is finished, holds along a
run. -/
theorem exists_of_run {P : World V → Prop} {Q : Request.Task V → Prop}
    (hb : w.requests[i]? = some b) (hq : Q b.task) (hfinished : ∀ t, t.phase = .finished → Q t)
    (hturn : ∀ {v v' : World V} {b₁ : RequestEntry V} {e : Executor V} {s : Request.Surroundings}
      {phase : Request.Phase V} {state : Cache.State} {effect : Request.Effect V}, Run w v → P v →
      b₁.IsSame b → Turn v v' i b₁ e s phase state effect → Q b₁.task →
      Q { b₁.task with phase })
    (h : Relation.ReflTransGen (fun w w' => P w ∧ Happens w w') w w') :
    ∃ b', w'.requests[i]? = some b' ∧ b'.IsSame b ∧ Q b'.task := by
  induction h with
  | refl => exact ⟨b, hb, ⟨rfl, rfl⟩, hq⟩
  | @tail v v' hrun hstep ih =>
    obtain ⟨b₁, hb₁, hsame, hq₁⟩ := ih
    have hm := moves_of_happens hstep.2
    obtain ⟨b₂, hb₂, hsame₂⟩ := hm.request hb₁
    refine ⟨b₂, hb₂, hsame₂.trans hsame, ?_⟩
    obtain hb | ⟨hnone, -⟩ | hp | ⟨b₀, e, s, phase, state, _, ht, rfl⟩ := hm.request_cases hb₂
    · obtain rfl := Option.some.inj (hb₁.symm.trans hb)
      exact hq₁
    · cases hb₁.symm.trans hnone
    · exact hfinished _ hp
    · obtain rfl := Option.some.inj (hb₁.symm.trans ht.request)
      have hrun : Run w v := Relation.ReflTransGen.mono (fun _ _ h => h.2) _ _ hrun
      exact hturn hrun hstep.1 hsame ht hq₁

end World

end CommandBus
