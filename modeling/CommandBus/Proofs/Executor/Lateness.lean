import CommandBus.Proofs.Executor.Redelivery
import CommandBus.Proofs.Executor.Reuse
import Mathlib

namespace CommandBus

namespace Request.Task

variable {V : Type} {c : Command V} {t t' : Task V} {s s' : Surroundings} {m : Message}

/-- The request takes its next step without waiting, and comes closer to its handler by it. -/
def IsProceeding (t : Task V) : Prop :=
  match t.phase with
  | .received | .lookingUp | .executing => True
  | _ => False

theorem now_lt_of_publish (h : t.step? c s = some (t', s', .publish m)) : s.now < t.expiresAt := by
  obtain ⟨phase, -, hg⟩ := goes_of_step? h
  generalize s'.cache.state = state at hg
  cases hg with
  | answered hp =>
    rw [step?, hp] at h
    simp only [answer] at h
    split at h
    · cases h
    next hne => exact not_le.mp fun hle => hne (remainingSecs_eq_zero_iff.mpr hle)

end Request.Task

namespace World

variable {V : Type} {w₀ w w' : World V} {i : Nat} {b b' : RequestEntry V}

theorem Moves.expiresAt_eq (h : Moves w w') (hb : w.requests[i]? = some b)
    (hb' : w'.requests[i]? = some b') : b'.task.expiresAt = b.task.expiresAt := by
  have hset {j : Nat} {b₀ : RequestEntry V} {phase : Request.Phase V}
      (hb₀ : w.requests[j]? = some b₀)
      (hr : w'.requests = w.requests.set j { b₀ with task := { b₀.task with phase } }) :
      b'.task.expiresAt = b.task.expiresAt := by
    obtain ⟨rfl, rfl⟩ | ⟨-, hsame⟩ := getElem?_requests_set hr hb'
    · cases hb.symm.trans hb₀
      rfl
    · cases hb.symm.trans hsame
      rfl
  cases h with
  | outside ho => cases hb.symm.trans (ho.requests_eq ▸ hb'); rfl
  | expiry _ hr => cases hb.symm.trans (hr ▸ hb'); rfl
  | arrival _ _ d hr =>
    obtain ⟨hlt, -⟩ := List.getElem?_eq_some_iff.mp hb
    rw [hr, List.getElem?_append_left hlt] at hb'
    cases hb.symm.trans hb'
    rfl
  | turn ht => exact hset ht.request ht.requests_eq
  | abort ha => exact hset ha.request ha.requests_eq
  | abandon ha => cases hb.symm.trans (ha.requests_eq ▸ hb'); rfl

theorem Run.expiresAt_eq (h : Run w w') (hb : w.requests[i]? = some b)
    (hb' : w'.requests[i]? = some b') : b'.task.expiresAt = b.task.expiresAt := by
  induction h generalizing b' with
  | refl =>
    cases hb.symm.trans hb'
    rfl
  | tail hrun hstep ih =>
    obtain ⟨b₁, hb₁, -⟩ := Run.request hrun hb
    exact ((moves_of_happens hstep).expiresAt_eq hb₁ hb').trans (ih hb₁)

theorem now_lt_expiresAt_of_publish {m : Message} (hb : w.requests[i]? = some b)
    (h : w.effect? i = some (.publish m)) : w.now < b.task.expiresAt := by
  simp only [effect?, Option.bind_eq_bind, Option.bind_eq_some_iff] at h
  obtain ⟨b', hb', e, -, k, -, clock, -, h⟩ := h
  cases hb.symm.trans hb'
  split at h
  · cases h
  obtain ⟨⟨task, s, effect⟩, hstep, rfl⟩ := Option.map_eq_some_iff.mp h
  exact Request.Task.now_lt_of_publish hstep

def IsStranded (w : World V) (b : RequestEntry V) : Prop :=
  ∃ e promise place, w.executors[b.executor]? = some e ∧
    b.task.phase = .awaiting promise place ∧
    (w.cacheState e.cache).promise promise = .evicted

structure KeepsTime (w₀ w : World V) (i : Nat) : Prop where
  /-- It does not expire with its arrival. -/
  lasts : ∀ b, w.requests[i]? = some b → b.task.message.expiryInterval ≠ some 0
  /-- It does not expire before it notices that it waits in vain. -/
  resumes : ∀ u b, Run w₀ u → Run u w → u.requests[i]? = some b → u.IsStranded b →
    u.now < b.task.expiresAt
  /-- It does not expire between two steps. -/
  proceeds : ∀ u u' b, Run w₀ u → Happens u u' → Run u' w → u.requests[i]? = some b →
    b.task.IsProceeding → u.now < b.task.expiresAt → u'.now < b.task.expiresAt

theorem lt_expiresAt_arrive (d : Delivery) (now : Nat) (h : d.message.expiryInterval ≠ some 0) :
    now < (Request.arrive (V := V) d now).expiresAt := by
  rw [Request.arrive]
  cases he : d.message.expiryInterval with
  | none =>
    simp [Request.defaultExpirySecs]
  | some secs =>
    have hne : secs ≠ 0 := fun hz => h (hz ▸ he)
    have hpos : secs.toNat ≠ 0 := fun hz => hne (UInt32.toNat_inj.mp hz)
    dsimp only [Option.elim_some]
    omega

theorem KeepsTime.happens (hk : KeepsTime w₀ w i) {u u' : World V} (hu : Run w₀ u)
    (hstep : Happens u u') (hu' : Run u' w)
    (h : ∀ b, u.requests[i]? = some b → b.task.IsProceeding → u.now < b.task.expiresAt)
    (hb : u'.requests[i]? = some b) (hproceeding : b.task.IsProceeding) :
    u'.now < b.task.expiresAt := by
  have hm := moves_of_happens hstep
  obtain ⟨t, ht⟩ | ho := hstep
  · rw [ht.now_eq]
    obtain hsame | ⟨hnone, -⟩ | hp | ⟨a, e, s, phase, state, effect, hturn, rfl⟩ :=
      hm.request_cases hb
    · exact h b hsame hproceeding
    · obtain ⟨b', hb', hsame⟩ := hu'.request hb
      have hne := hk.lasts b' hb'
      rw [hsame.message_eq] at hne
      rw [hm.arrived hnone hb]
      exact lt_expiresAt_arrive _ _ hne
    · rw [Request.Task.IsProceeding, hp] at hproceeding
      exact hproceeding.elim
    · have hrequest := hturn.request
      cases hturn.goes with
      | accepted hp | reserved hp =>
        exact h a hrequest (by rw [Request.Task.IsProceeding, hp]; trivial)
      | disappointed hp hevicted =>
        refine hk.resumes u a hu (.head (.inl ⟨t, ht⟩) hu') hrequest
          ⟨e, _, _, hturn.executor, hp, ?_⟩
        rw [hturn.cacheState, hevicted]
      | _ => exact hproceeding.elim
  · have hsame : u.requests[i]? = some b := ho.requests_eq ▸ hb
    exact hk.proceeds u u' b hu (.inr ho) hu' hsame hproceeding (h b hsame hproceeding)

theorem KeepsTime.run (hk : KeepsTime w₀ w i) (hf : w₀.IsFresh) {u : World V} (hu : Run w₀ u)
    (hu' : Run u w) (hb : u.requests[i]? = some b) (hproceeding : b.task.IsProceeding) :
    u.now < b.task.expiresAt := by
  induction hu generalizing b with
  | refl =>
    rw [hf.requests_eq] at hb
    cases hb
  | tail hrun hstep ih =>
    exact hk.happens hrun hstep hu' (fun a ha hp => ih (.head hstep hu') ha hp) hb hproceeding

theorem keepsTime_of_lt (hf : w₀.IsFresh) (h : Run w₀ w) (hb : w.requests[i]? = some b)
    (hlt : w.now < b.task.expiresAt) : KeepsTime w₀ w i where
  lasts b' hb' hzero := by
    cases hb.symm.trans hb'
    obtain ⟨u, received, -, hu', hle, hr⟩ := arrival_of_run hf h hb
    have hexpires := hu'.expiresAt_eq hr hb
    have hnow := hu'.steady.now_le
    have hinterval : b.task.delivery.message.expiryInterval = some 0 := hzero
    rw [Request.arrive, hinterval] at hexpires
    simp only [Option.elim_some, UInt32.toNat_zero] at hexpires
    omega
  resumes u a hu hu' ha hs := by
    rw [← hu'.expiresAt_eq ha hb]
    exact hu'.steady.now_le.trans_lt hlt
  proceeds u u' a hu hstep hu' ha hp hlt' := by
    rw [← Run.expiresAt_eq (.head hstep hu') ha hb]
    exact hu'.steady.now_le.trans_lt hlt

/-- The handler is started in time exactly if nothing makes the request late for it. A request that
is late for its handler gets no response. -/
theorem starts_in_time_iff (hf : w₀.IsFresh) (h : Run w₀ w) (hb : w.requests[i]? = some b)
    {request : IncomingRequest V} (hi : w.effect? i = some (.invoke request)) :
    (w.now < b.task.expiresAt ↔ KeepsTime w₀ w i) ∧
      (b.task.expiresAt ≤ w.now → ∀ w', Run w w' → ∀ m, w'.effect? i ≠ some (.publish m)) := by
  have hproceeding : b.task.IsProceeding := by
    rw [Request.Task.IsProceeding, phase_of_invoke hb hi]
    trivial
  refine ⟨⟨keepsTime_of_lt hf h hb, fun hk => hk.run hf h .refl hb hproceeding⟩,
    fun hle w' hrun m hm => ?_⟩
  obtain ⟨b', hb', -⟩ := hrun.request hb
  have hlt := now_lt_expiresAt_of_publish hb' hm
  rw [hrun.expiresAt_eq hb hb'] at hlt
  exact absurd (hle.trans hrun.steady.now_le) (not_le.mpr hlt)

def lastingRequest (secs : UInt32) : Message :=
  { echoRequest 0 "1.0" with expiryInterval := some secs }

/-- The request has just arrived, and its handler is about to be started. -/
def starting (secs : UInt32) : World Bytes :=
  (echoing [lastingRequest secs]).stepAll [.serve 0, .request 0, .request 0]

/-- A request that expires with its arrival is passed on to the handler all the same. -/
theorem started_when_expired :
    (echoing [lastingRequest 0]).IsFresh ∧ Run (echoing [lastingRequest 0]) (starting 0) ∧
    ∃ b request, (starting 0).requests[0]? = some b ∧
      b.task.message.expiryInterval = some 0 ∧
      (starting 0).effect? 0 = some (.invoke request) ∧
      ¬ (starting 0).now < b.task.expiresAt :=
  ⟨isFresh_echoing _, run_stepAll _ _, _, _, rfl, rfl, rfl, by decide⟩

/-- A request that lives for a second is passed on in time if this happens at once. -/
theorem started_in_time :
    (∃ request, (starting 1).effect? 0 = some (.invoke request)) ∧
      KeepsTime (echoing [lastingRequest 1]) (starting 1) 0 := by
  obtain ⟨b, request, hb, hi, hlt⟩ : ∃ b request, (starting 1).requests[0]? = some b ∧
      (starting 1).effect? 0 = some (.invoke request) ∧ (starting 1).now < b.task.expiresAt :=
    ⟨_, _, rfl, rfl, by decide⟩
  exact ⟨⟨request, hi⟩,
    (starts_in_time_iff (isFresh_echoing _) (run_stepAll _ _) hb hi).1.mp hlt⟩

end World

end CommandBus
