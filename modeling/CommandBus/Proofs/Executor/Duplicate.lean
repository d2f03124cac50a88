import CommandBus.Proofs.Executor.Reservation
import Mathlib

namespace CommandBus

namespace Request.Task

variable {V : Type} {c : Command V} {t a : Task V} {s : Surroundings} {phase : Phase V}
  {state : Cache.State} {effect : Effect V} {key : Cache.EntryKey}

structure IsDuplicate (t a : Task V) : Prop where
  topic_eq : t.message.responseTopic = a.message.responseTopic
  data_eq : t.message.correlationData = a.message.correlationData
  isSome_expiry : t.message.expiryInterval.isSome = true

theorem IsDuplicate.correlation_eq (h : t.IsDuplicate a) : t.correlation = a.correlation := by
  rw [correlation, correlation, h.topic_eq, h.data_eq]

theorem refusal?_eq_none {m : Message} : refusal? m = none ↔
    (∃ data, m.correlationData = some data ∧ data.length = correlationSize) ∧
      m.expiryInterval.isSome = true := by
  unfold refusal?
  cases m.correlationData with
  | none => simp
  | some data =>
    by_cases hl : data.length = correlationSize <;> cases m.expiryInterval <;> simp [hl]

theorem IsDuplicate.refusal? (h : t.IsDuplicate a) (ha : Request.refusal? a.message = none) :
    Request.refusal? t.message = none := by
  obtain ⟨⟨data, hd, hl⟩, -⟩ := refusal?_eq_none.mp ha
  exact refusal?_eq_none.mpr ⟨⟨data, h.data_eq.trans hd, hl⟩, h.isSome_expiry⟩

/-- The request gets no answer but the response of the entry with this key. -/
def Follows (t : Task V) (s : Cache.State) (key : Cache.EntryKey) : Prop :=
  match t.phase with
  | .received | .lookingUp | .acknowledging | .finished | .halted => True
  | .awaiting promise _ => s.promise promise = .evicted ∨ promise = key.serial
  | .answering m => ∃ response, s.promise key.serial = .stored response ∧ m = t.address response
  | _ => False

theorem Follows.changes {s s' : Cache.State} {kept : Cache.EntryKey → Cache.Entry → Prop}
    (h : t.Follows s key) (hc : Cache.State.Changes s s' kept)
    (ha : ∀ {p place}, t.phase = .awaiting p place → p < s.promises.length) :
    t.Follows s' key := by
  unfold Follows at h ⊢
  cases hp : t.phase with
  | awaiting p place =>
    rw [hp] at h
    refine h.imp (fun he => ?_) id
    rw [hc.promise_eq (ha hp) (by rw [he]; simp), he]
  | answering m =>
    rw [hp] at h
    obtain ⟨r, hr, hm⟩ := h
    refine ⟨r, ?_, hm⟩
    rw [hc.promise_eq (Cache.State.lt_of_promise_ne (by rw [hr]; simp)) (by rw [hr]; simp), hr]
  | received | lookingUp | acknowledging | finished | halted => trivial
  | executing | handling | storing =>
    rw [hp] at h
    exact h.elim

theorem Goes.follows (hg : t.Goes c s phase state effect) (h : t.Follows s.cache.state key)
    (hr : Request.refusal? t.message = none)
    (hk : s.cache.state.key? t.correlation = some key) :
    state = s.cache.state ∧ ({ t with phase } : Task V).Follows state key := by
  cases hg with
  | refused _ hrefused => exact absurd (hr.symm.trans hrefused) (by simp)
  | joined hp place hret =>
    refine ⟨rfl, .inr ?_⟩
    rw [Cache.State.retrieve_of_key? (r := cacheRequest c t.message) hk] at hret
    cases hret
    rfl
  | reserved _ hn => exact absurd (hk.symm.trans hn) (by simp)
  | served hp hs =>
    rw [Follows, hp] at h
    obtain he | rfl := h
    · exact absurd (he.symm.trans hs) (by simp)
    · exact ⟨rfl, _, hs, rfl⟩
  | rejected hp | invoked hp | returned hp | timedOut hp | stored hp | unstored hp | halted hp =>
    rw [Follows, hp] at h
    exact h.elim
  | _ => exact ⟨rfl, trivial⟩

theorem Goes.retains (hg : t.Goes c s phase state effect) (hs : s.cache.state.WellFormed)
    {b : Cache.Correlation} {response : Message} {deadline : Nat}
    (h : s.cache.state.Retains b key response deadline) :
    state.Retains b key response deadline := by
  cases hg with
  | reserved _ hn => exact h.changes hs (hs.changes_register hn _) fun _ _ _ _ => trivial
  | stored | halted => exact h.store hs _ _ _
  | unstored _ _ hstate =>
    obtain rfl | rfl := hstate
    · exact h
    · exact h.abandon hs _
  | _ => exact h

theorem Goes.executes (hg : t.Goes c s phase state effect) (h : t.hasReservation = true) :
    ({ t with phase } : Task V).hasReservation = true ∧ state = s.cache.state ∨
      ∃ response execution, t.phase = .storing response execution ∧
        (s.cache.isStarted = true → ∃ o : Cache.StoreOptions, o.isIdempotent = c.isIdempotent ∧
          o.expiresAt = t.expiresAt ∧
          state = s.cache.state.store s.now (cacheRequest c t.message) response o) := by
  cases hg with
  | rejected | invoked | returned | timedOut => exact .inl ⟨rfl, rfl⟩
  | stored hp _ hi he | halted hp _ hi he => exact .inr ⟨_, _, hp, fun _ => ⟨_, hi, he, rfl⟩⟩
  | unstored hp hn =>
    exact .inr ⟨_, _, hp, fun hs => absurd (hs.symm.trans hn) (by simp)⟩
  | unanswerable hp | refused hp | accepted hp | joined hp | reserved hp | served hp
  | disappointed hp | gaveUp hp | answered hp | lapsed hp | acknowledged hp =>
    rw [Task.hasReservation, hp] at h
    cases h

def IsPast (t : Task V) : Prop :=
  match t.phase with
  | .handling .. | .storing .. | .answering .. | .acknowledging | .finished | .halted => True
  | _ => False

theorem Goes.isPast (hg : t.Goes c s phase state effect)
    (h : t.IsPast ∨ ∃ request, effect = .invoke request) :
    ({ t with phase } : Task V).IsPast := by
  cases hg with
  | accepted hp | joined hp | reserved hp | disappointed hp =>
    obtain h | ⟨request, h⟩ := h
    · rw [IsPast, hp] at h
      exact h.elim
    · cases h
  | _ => trivial

end Request.Task

end CommandBus
