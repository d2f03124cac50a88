import CommandBus.Executor.Request
import CommandBus.Proofs.Cache.Retention
import Mathlib

namespace CommandBus

theorem Cache.state_wait (k : Cache) (promise : Nat) : (k.wait promise).2.state = k.state := by
  unfold wait
  dsimp only
  split <;> rfl

namespace Request

variable {V : Type}

namespace Task

/-- A response that carries this reply to the invoker of the request. -/
def Carries (t : Task V) (reply : Reply) (response : Message) : Prop :=
  ∃ stamp expiry, response = reply.response (t.message.responseTopic.getD "")
    t.message.correlationData stamp expiry

/-- The steps of a request, one constructor for each way in which a phase can end. -/
inductive Goes (c : Command V) (t : Task V) (s : Surroundings) :
    Phase V → Cache.State → Effect V → Prop
  | unanswerable (h : t.phase = .received) (ht : t.message.responseTopic = none) :
    Goes c t s .acknowledging s.cache.state .none
  | refused (h : t.phase = .received) {reply : Reply} (hr : refusal? t.message = some reply)
    {response : Message} (hc : t.Carries reply response) :
    Goes c t s (.answering response) s.cache.state .none
  | accepted (h : t.phase = .received) (ht : t.message.responseTopic.isSome)
    (hr : refusal? t.message = none) : Goes c t s .lookingUp s.cache.state .none
  | joined (h : t.phase = .lookingUp) {promise : Nat} (place : Nat)
    (hp : s.cache.state.retrieve s.now (cacheRequest c t.message) c.isCacheable
      c.acrossInvokers = (some promise, s.cache.state)) :
    Goes c t s (.awaiting promise place) s.cache.state .none
  | reserved (h : t.phase = .lookingUp)
    (hn : s.cache.state.key? (cacheRequest c t.message).correlation = none) :
    Goes c t s .executing
      (s.cache.state.register (cacheRequest c t.message).correlation
        (if c.isCacheable then some ((cacheRequest c t.message).content c.acrossInvokers)
          else none)) .none
  | served {promise place : Nat} (h : t.phase = .awaiting promise place) {response : Message}
    (hp : s.cache.state.promise promise = .stored response) :
    Goes c t s (.answering (t.address response)) s.cache.state .none
  | disappointed {promise place : Nat} (h : t.phase = .awaiting promise place)
    (hp : s.cache.state.promise promise = .evicted) : Goes c t s .lookingUp s.cache.state .none
  | gaveUp {promise place : Nat} (h : t.phase = .awaiting promise place) :
    Goes c t s .acknowledging s.cache.state .none
  | rejected (h : t.phase = .executing) {reply : Reply}
    (hv : (validate c t.message s).1 = .error reply) {response : Message}
    (hc : t.Carries reply response) (execution : Nat) :
    Goes c t s (.storing response execution) s.cache.state .none
  | invoked (h : t.phase = .executing) {request : IncomingRequest V}
    (hv : (validate c t.message s).1 = .ok request) {run : Execution V}
    (hr : c.handler s.runs request = run) :
    Goes c t s (.handling s.now (s.now + run.span) run.outcome) s.cache.state (.invoke request)
  | returned {since endsAt : Nat} {outcome : Except ApplicationError (HandlerReply V)}
    (h : t.phase = .handling since endsAt outcome) (hle : endsAt ≤ s.now) {response : Message}
    (hc : t.Carries (.ofHandler c.responseCodec outcome) response) (execution : Nat) :
    Goes c t s (.storing response execution) s.cache.state .none
  | timedOut {since endsAt : Nat} {outcome : Except ApplicationError (HandlerReply V)}
    (h : t.phase = .handling since endsAt outcome) (hlt : s.now < endsAt)
    (hle : t.expiresAt ≤ s.now) {response : Message}
    (hc : t.Carries (Request.timedOut t.expiresAt s.now) response) (execution : Nat) :
    Goes c t s (.storing response execution) s.cache.state .none
  | stored {response : Message} {execution : Nat} (h : t.phase = .storing response execution)
    (hs : s.cache.isStarted = true) {o : Cache.StoreOptions}
    (hi : o.isIdempotent = c.isIdempotent) (he : o.expiresAt = t.expiresAt) :
    Goes c t s (.answering response)
      (s.cache.state.store s.now (cacheRequest c t.message) response o) .none
  | unstored {response : Message} {execution : Nat} (h : t.phase = .storing response execution)
    (hs : s.cache.isStarted = false) {state : Cache.State}
    -- whether the entry is given up by now depends on the lock of the cache
    (hstate : state = s.cache.state ∨
      state = (s.cache.state.abandon (cacheRequest c t.message)).2) :
    Goes c t s (.answering response) state (.release (cacheRequest c t.message))
  | halted {response : Message} {execution : Nat} (h : t.phase = .storing response execution)
    (hs : s.cache.isStarted = true) {o : Cache.StoreOptions}
    (hi : o.isIdempotent = c.isIdempotent) (he : o.expiresAt = t.expiresAt) :
    Goes c t s .halted (s.cache.state.store s.now (cacheRequest c t.message) response o) .none
  | answered {response : Message} (h : t.phase = .answering response) (remaining : UInt32) :
    Goes c t s .acknowledging s.cache.state
      (.publish { response with expiryInterval := some remaining })
  | lapsed {response : Message} (h : t.phase = .answering response) :
    Goes c t s .acknowledging s.cache.state .none
  | acknowledged (h : t.phase = .acknowledging) :
    Goes c t s .finished s.cache.state (.acknowledge t.delivery.ack)

variable {c : Command V} {t t' : Task V} {s s' : Surroundings} {effect : Effect V}

theorem carries_respondWith (t : Task V) (reply : Reply) (s : Surroundings) :
    t.Carries reply (t.respondWith reply s).1 :=
  ⟨_, _, rfl⟩

theorem validate_frame (c : Command V) (m : Message) (s : Surroundings) :
    (validate c m s).2.cache = s.cache ∧ (validate c m s).2.now = s.now ∧
      (validate c m s).2.runs = s.runs := by
  have ho : ∀ p, (observeTimestamp p s).2.cache = s.cache ∧
      (observeTimestamp p s).2.now = s.now ∧ (observeTimestamp p s).2.runs = s.runs := by
    intro p
    unfold observeTimestamp
    split
    · exact ⟨rfl, rfl, rfl⟩
    split <;> exact ⟨rfl, rfl, rfl⟩
  have hp := ho (ProtocolProperties.ofUser m.userProperties)
  unfold validate
  dsimp only
  split
  · exact ⟨rfl, rfl, rfl⟩
  split
  next heq => rwa [heq] at hp
  next heq =>
    rw [heq] at hp
    split <;> exact hp

theorem goes_of_step? (h : t.step? c s = some (t', s', effect)) :
    ∃ phase, t' = { t with phase } ∧ Goes c t s phase s'.cache.state effect := by
  unfold step? at h
  split at h
  next hp =>
    unfold receive at h
    split at h
    next ht =>
      cases h
      exact ⟨_, rfl, .unanswerable hp (by simpa using ht)⟩
    next ht =>
      split at h <;> cases h
      next hr => exact ⟨_, rfl, .refused hp hr (t.carries_respondWith _ s)⟩
      next hr => exact ⟨_, rfl, .accepted hp (by simpa [Option.isSome_iff_ne_none] using ht) hr⟩
  next hp =>
    rcases s.cache.state.retrieve_cases s.now (cacheRequest c t.message) c.isCacheable
      c.acrossInvokers with ⟨p, hr⟩ | ⟨hn, hr⟩
    · simp only [lookUp, Cache.retrieve, hr] at h
      cases h
      exact ⟨_, rfl, .joined hp _ hr⟩
    · simp only [lookUp, Cache.retrieve, hr] at h
      cases h
      exact ⟨_, rfl, .reserved hp hn⟩
  next promise place hp =>
    have hw : (s.cache.wait promise).2.state = s.cache.state := s.cache.state_wait promise
    unfold awaitStored? at h
    dsimp only at h
    split at h
    next hs =>
      cases h
      exact ⟨_, rfl, hw ▸ .served hp hs⟩
    next hs =>
      cases h
      exact ⟨_, rfl, hw ▸ .disappointed hp hs⟩
    next =>
      split at h <;> cases h
      exact ⟨_, rfl, hw ▸ .gaveUp hp⟩
  next hp =>
    obtain ⟨hc, hn, hruns⟩ := validate_frame c t.message s
    unfold execute at h
    split at h
    next reply after hv =>
      rw [hv] at hc
      cases h
      exact ⟨_, rfl, congrArg Cache.state hc ▸
        .rejected hp (congrArg Prod.fst hv) (t.carries_respondWith reply after) _⟩
    next request after hv =>
      rw [hv] at hc hn hruns
      dsimp only at hc hn hruns
      rw [hn, hruns] at h
      cases h
      exact ⟨_, rfl, congrArg Cache.state hc ▸ .invoked hp (congrArg Prod.fst hv) rfl⟩
  next since endsAt outcome hp =>
    unfold handle? at h
    split at h
    next hle =>
      cases h
      exact ⟨_, rfl, .returned hp hle (t.carries_respondWith _ s) _⟩
    next hlt =>
      split at h <;> cases h
      next hle =>
        exact ⟨_, rfl, .timedOut hp (not_le.mp hlt) hle (t.carries_respondWith _ s) _⟩
  next response execution hp =>
    unfold store at h
    by_cases hs : s.cache.isStarted = true
    · simp only [Cache.store, hs, if_true] at h
      split at h
      next heq =>
        cases h
        exact ⟨_, rfl, .stored hp hs rfl rfl⟩
      next heq => split at heq <;> cases heq
      next =>
        cases h
        exact ⟨_, rfl, .halted hp hs rfl rfl⟩
    · simp only [Cache.store, hs] at h
      cases h
      exact ⟨_, rfl, .unstored hp (by simpa using hs) (.inl rfl)⟩
  next response hp =>
    unfold answer at h
    dsimp only at h
    split at h <;> cases h
    · exact ⟨_, rfl, .lapsed hp⟩
    · exact ⟨_, rfl, .answered hp _⟩
  next hp =>
    cases h
    exact ⟨_, rfl, .acknowledged hp⟩
  next => cases h
  next => cases h

theorem goes_of_release {r : CommandRequest} (h : t.step? c s = some (t', s', .release r)) :
    ∃ phase, t' = { t with phase } ∧ s'.cache.state = s.cache.state ∧
      Goes c t s phase (s.cache.state.abandon r).2 (.release r) := by
  obtain ⟨phase, -, hg⟩ := goes_of_step? h
  generalize hstate : s'.cache.state = state at hg ⊢
  generalize heffect : Effect.release r = effect at hg
  cases hg with
  | unstored hp hs =>
    cases heffect
    rw [step?, hp] at h
    simp only [store, Cache.store, hs, Bool.false_eq_true, if_false] at h
    cases h
    exact ⟨_, rfl, hstate.symm, .unstored hp hs (.inr rfl)⟩
  | _ => cases heffect

theorem state_abort (c : Command V) (t : Task V) (s : Surroundings) :
    (t.abort c s).2.1.cache.state = s.cache.state := by
  unfold abort
  cases t.phase <;> rfl

end Task

end Request

end CommandBus
