import CommandBus.Queue
import Mathlib

namespace CommandBus.Queue

variable {α : Type}

/-- What may happen to a queue. A consumer that cannot go on stays where it is. -/
inductive Event (α : Type)
  | enqueue (a : α)
  | signal
  | cancel (token : Nat)
  | consume (token : Nat) (takesSignals : Bool)
  | step (id : Nat)
  | giveUp (id : Nat)

def Event.apply : Event α → Queue α → Queue α
  | .enqueue a, q => q.enqueue a
  | .signal, q => q.signal
  | .cancel token, q => q.cancel token
  | .consume token takesSignals, q => (q.consume token takesSignals).2
  | .step id, q => (q.stepConsumer? id).getD q
  | .giveUp id, q => (q.giveUp? id).getD q

def run (q : Queue α) (events : List (Event α)) : Queue α :=
  events.foldl (fun q event => event.apply q) q

def Event.item? : Event α → Option α
  | .enqueue a => some a
  | _ => none

def Outcome.item? : Outcome α → Option α
  | .item a => some a
  | _ => none

def handedOut (q : Queue α) : List α :=
  q.finished.filterMap fun finished => finished.2.item?

def Proceeds (q next : Queue α) : Prop :=
  ∃ id, q.stepConsumer? id = some next ∨ q.giveUp? id = some next

def IsAtRest (q : Queue α) : Prop :=
  ∀ next, ¬q.Proceeds next

def Phase.isActive : Phase → Bool
  | .looking | .notified | .taking => true
  | .waiting | .finished => false

theorem Phase.ne_waiting {phase : Phase} (h : phase.isActive = true) : phase ≠ .waiting := by
  rintro rfl
  cases h

inductive Goes (q : Queue α) (id : Nat) (c : Consumer) : Queue α → Prop
  | takes {a : α} {items : List α} (hp : c.phase.isActive = true) (hi : q.items = a :: items) :
    Goes q id c (({ q with items }).finish id (.item a))
  | leaves (outcome : Outcome α) (hp : c.phase.isActive = true) (hi : q.items = [])
    (ho : outcome.item? = none) : Goes q id c (q.finish id outcome)
  | permitted (hp : c.phase = .looking) (hi : q.items = []) (hq : q.hasPermit = true) :
    Goes q id c { q.setPhase id .taking with hasPermit := false }
  | waits (hp : c.phase = .looking) (hi : q.items = []) :
    Goes q id c { q.setPhase id .waiting with waiters := q.waiters ++ [id] }
  | withdraws (hp : c.phase = .waiting) :
    Goes q id c (({ q with waiters := q.waiters.erase id }).finish id .cancelled)
  | wakes (hp : c.phase = .notified) : Goes q id c (q.setPhase id .taking)
  | retries (hp : c.phase = .taking) (hi : q.items = []) : Goes q id c (q.setPhase id .looking)
  | givesUp (hp : c.phase = .notified) : Goes q id c (q.finish id .cancelled).notify

variable {q q' : Queue α} {id k owed : Nat} {c : Consumer} {phase : Phase}

theorem goes_of_stepConsumer? (h : q.stepConsumer? id = some q') :
    ∃ c, q.consumers[id]? = some c ∧ Goes q id c q' := by
  unfold stepConsumer? at h
  rw [Option.bind_eq_bind, Option.bind_eq_some_iff] at h
  obtain ⟨c, hc, h⟩ := h
  refine ⟨c, hc, ?_⟩
  split at h
  next hp =>
    split at h
    next a items hi =>
      cases h
      exact .takes (by rw [hp]; rfl) hi
    next hi =>
      split at h <;> cases h
      · exact .leaves _ (by rw [hp]; rfl) hi rfl
      · unfold await
        split
        next hq => exact .permitted hp hi hq
        next => exact .waits hp hi
  next hp =>
    split at h <;> cases h
    exact .withdraws hp
  next hp =>
    cases h
    exact .wakes hp
  next hp =>
    split at h
    next a items hi =>
      cases h
      exact .takes (by rw [hp]; rfl) hi
    next hi =>
      cases h
      split
      · exact .leaves _ (by rw [hp]; rfl) hi rfl
      · exact .retries hp hi
  next => cases h

theorem goes_of_giveUp? (h : q.giveUp? id = some q') :
    ∃ c, q.consumers[id]? = some c ∧ Goes q id c q' := by
  unfold giveUp? at h
  rw [Option.bind_eq_bind, Option.bind_eq_some_iff] at h
  obtain ⟨c, hc, h⟩ := h
  split at h
  next hp =>
    cases h
    exact ⟨c, hc, .givesUp hp.1⟩
  next => cases h

theorem handedOut_notify (q : Queue α) :
    q.notify.handedOut ++ q.notify.items = q.handedOut ++ q.items := by
  unfold notify
  split <;> rfl

theorem handedOut_finish (q : Queue α) (id : Nat) (outcome : Outcome α) :
    (q.finish id outcome).handedOut = q.handedOut ++ outcome.item?.toList := by
  unfold handedOut finish
  rw [List.filterMap_append]
  cases h : outcome.item? <;> simp [h]

theorem Goes.handedOut (h : Goes q id c q') :
    q'.handedOut ++ q'.items = q.handedOut ++ q.items := by
  cases h with
  | takes _ hi =>
    rw [handedOut_finish, hi]
    exact List.append_assoc ..
  | leaves outcome _ hi ho =>
    rw [handedOut_finish, ho]
    exact congrArg (· ++ _) (List.append_nil _)
  | permitted | waits | wakes | retries => rfl
  | withdraws =>
    rw [handedOut_finish]
    exact congrArg (· ++ _) (List.append_nil _)
  | givesUp =>
    rw [handedOut_notify, handedOut_finish]
    exact congrArg (· ++ _) (List.append_nil _)

theorem handedOut_apply (event : Event α) (q : Queue α) :
    (event.apply q).handedOut ++ (event.apply q).items =
      q.handedOut ++ q.items ++ event.item?.toList := by
  have hstep : ∀ next : Option (Queue α), (∀ q', next = some q' → ∃ id c, Goes q id c q') →
      (next.getD q).handedOut ++ (next.getD q).items = q.handedOut ++ q.items := by
    intro next h
    cases next with
    | none => rfl
    | some q' =>
      obtain ⟨id, c, hg⟩ := h q' rfl
      exact hg.handedOut
  cases event with
  | enqueue a =>
    refine (handedOut_notify _).trans ?_
    exact (List.append_assoc ..).symm
  | signal => exact q.handedOut_notify.trans (List.append_nil _).symm
  | cancel token => exact (List.append_nil _).symm
  | consume token takesSignals => exact (List.append_nil _).symm
  | step id =>
    refine (hstep _ fun q' h => ?_).trans (List.append_nil _).symm
    obtain ⟨c, -, hg⟩ := goes_of_stepConsumer? h
    exact ⟨id, c, hg⟩
  | giveUp id =>
    refine (hstep _ fun q' h => ?_).trans (List.append_nil _).symm
    obtain ⟨c, -, hg⟩ := goes_of_giveUp? h
    exact ⟨id, c, hg⟩

theorem handedOut_run (q : Queue α) (events : List (Event α)) :
    (q.run events).handedOut ++ (q.run events).items =
      q.handedOut ++ q.items ++ events.filterMap Event.item? := by
  induction events generalizing q with
  | nil => exact (List.append_nil _).symm
  | cons event rest ih =>
    have hrest : (event :: rest).filterMap Event.item? =
        event.item?.toList ++ rest.filterMap Event.item? := by
      cases h : event.item? <;> simp [h]
    rw [hrest, ← List.append_assoc, ← handedOut_apply]
    exact ih (event.apply q)

theorem consumers_setPhase (hc : q.consumers[id]? = some c) (phase : Phase) :
    (q.setPhase id phase).consumers = q.consumers.set id { c with phase } := by
  unfold setPhase
  simp [List.modify_eq_set_getElem?, hc]

def tally (f : Phase → Nat) (q : Queue α) : Nat :=
  (q.consumers.map fun c => f c.phase).sum

/-- The consumers that are about to look for an item, or on the way there. -/
def active (q : Queue α) : Nat :=
  q.tally fun phase => phase.isActive.toNat

theorem tally_setPhase (f : Phase → Nat) (hc : q.consumers[id]? = some c) (phase : Phase)
    (h : q'.consumers = (q.setPhase id phase).consumers) :
    q'.tally f + f c.phase = q.tally f + f phase := by
  obtain ⟨hlt, hget⟩ := List.getElem?_eq_some_iff.mp hc
  have hold : q.consumers.set id c = q.consumers := by
    rw [← hget, List.set_getElem_self]
  have hsum : ∀ c', ((q.consumers.set id c').map fun c => f c.phase).sum =
      ((q.consumers.take id).map fun c => f c.phase).sum + f c'.phase +
        ((q.consumers.drop (id + 1)).map fun c => f c.phase).sum := by
    intro c'
    rw [List.set_eq_take_append_cons_drop, if_pos hlt]
    simp only [List.map_append, List.map_cons, List.sum_append, List.sum_cons]
    omega
  have hbefore := hsum c
  have hafter := hsum { c with phase }
  dsimp only at hafter
  rw [hold] at hbefore
  unfold tally
  rw [h, consumers_setPhase hc]
  omega

theorem active_setPhase (hc : q.consumers[id]? = some c) (phase : Phase)
    (h : q'.consumers = (q.setPhase id phase).consumers) :
    q'.active + c.phase.isActive.toNat = q.active + phase.isActive.toNat :=
  tally_setPhase (fun phase => phase.isActive.toNat) hc phase h

/-- The waiting consumers are those in line, and while there are any, all items but those `owed`
have somebody about to take them. -/
structure Consistent (q : Queue α) (owed : Nat) : Prop where
  nodup : q.waiters.Nodup
  mem_waiters : ∀ id, id ∈ q.waiters ↔ ∃ c, q.consumers[id]? = some c ∧ c.phase = .waiting
  items_le : q.waiters ≠ [] → q.items.length ≤ q.active + owed

namespace Consistent

theorem empty : ({} : Queue α).Consistent 0 :=
  ⟨List.nodup_nil, by simp, nofun⟩

theorem move (h : q.Consistent owed) (hc : q.consumers[id]? = some c) (phase : Phase)
    (hq : q'.consumers = (q.setPhase id phase).consumers) (hn : q'.waiters.Nodup)
    (hw : ∀ k, k ∈ q'.waiters ↔ if k = id then phase = .waiting else k ∈ q.waiters)
    {owed' : Nat} (hi : q'.waiters ≠ [] → q'.items.length ≤ q'.active + owed') :
    q'.Consistent owed' := by
  refine ⟨hn, fun k => ?_, hi⟩
  rw [hw, hq, consumers_setPhase hc, List.getElem?_set]
  obtain ⟨hlt, -⟩ := List.getElem?_eq_some_iff.mp hc
  by_cases hk : k = id
  · subst hk
    simp [hlt]
  · rw [if_neg hk, if_neg (Ne.symm hk)]
    exact h.mem_waiters k

theorem phase_of_mem (h : q.Consistent owed) (hm : id ∈ q.waiters) :
    ∃ c, q.consumers[id]? = some c ∧ c.phase = .waiting :=
  (h.mem_waiters id).mp hm

theorem notMem (h : q.Consistent owed) (hc : q.consumers[id]? = some c)
    (hp : c.phase ≠ .waiting) : id ∉ q.waiters := by
  intro hm
  obtain ⟨c', hc', hp'⟩ := h.phase_of_mem hm
  rw [hc, Option.some_inj] at hc'
  exact hp (hc' ▸ hp')

theorem stay (h : q.Consistent owed) (hc : q.consumers[id]? = some c) (hp : c.phase ≠ .waiting)
    (phase : Phase) (hp' : phase ≠ .waiting)
    (hq : q'.consumers = (q.setPhase id phase).consumers)
    (hw : q'.waiters = q.waiters) {owed' : Nat}
    (hi : q'.waiters ≠ [] → q'.items.length ≤ q'.active + owed') : q'.Consistent owed' := by
  refine h.move hc phase hq (hw ▸ h.nodup) (fun k => ?_) hi
  rw [hw]
  split
  next hk =>
    subst hk
    exact iff_of_false (h.notMem hc hp) hp'
  next => exact Iff.rfl

theorem notify (h : q.Consistent 1) : q.notify.Consistent 0 := by
  unfold Queue.notify
  split
  next first rest hw =>
    have hnodup := h.nodup
    rw [hw] at hnodup
    obtain ⟨hnot, hrest⟩ := List.nodup_cons.mp hnodup
    obtain ⟨c, hc, hp⟩ := h.phase_of_mem (hw ▸ List.mem_cons_self)
    refine h.move hc .notified ?_ hrest (fun k => ?_) fun _ => ?_
    · rfl
    · rw [hw, List.mem_cons]
      by_cases hk : k = first
      · subst hk
        simp [hnot]
      · simp [hk]
    · have hle := h.items_le (hw ▸ List.cons_ne_nil first rest)
      have ha := active_setPhase hc .notified rfl
      simp only [hp, Phase.isActive, Bool.toNat_false, Bool.toNat_true] at ha
      change q.items.length ≤ (q.setPhase first .notified).active + 0
      omega
  next hw => exact ⟨h.nodup, h.mem_waiters, fun hne => absurd hw hne⟩

theorem finish_notified (h : q.Consistent 0) (hc : q.consumers[id]? = some c)
    (hp : c.phase = .notified) : (q.finish id .cancelled).Consistent 1 := by
  refine h.stay hc (by simp [hp]) .finished (by simp) ?_ ?_ fun hne => ?_
  · rfl
  · rfl
  · have hle := h.items_le hne
    have ha := active_setPhase hc .finished rfl
    simp only [hp, Phase.isActive, Bool.toNat_true, Bool.toNat_false] at ha
    change q.items.length ≤ (q.setPhase id .finished).active + 1
    omega

theorem goes (h : q.Consistent 0) (hc : q.consumers[id]? = some c) (hg : Goes q id c q') :
    q'.Consistent 0 := by
  have hnil : ∀ {n}, q.items = [] → q.items.length ≤ n := fun hi => hi ▸ Nat.zero_le _
  cases hg with
  | @takes a items hp hi =>
    refine h.stay hc (Phase.ne_waiting hp) .finished (by simp) ?_ ?_ fun hne => ?_
    · rfl
    · rfl
    · -- the one who leaves takes an item along
      have hle := h.items_le hne
      have ha := active_setPhase hc .finished rfl
      rw [hi, List.length_cons] at hle
      rw [hp] at ha
      simp only [Phase.isActive, Bool.toNat_false, Bool.toNat_true] at ha
      change items.length ≤ (q.setPhase id .finished).active + 0
      omega
  | leaves outcome hp hi ho =>
    refine h.stay hc (Phase.ne_waiting hp) .finished (by simp) ?_ ?_ fun _ => hnil hi
    · rfl
    · rfl
  | permitted hp hi hq =>
    refine h.stay hc (by simp [hp]) .taking (by simp) ?_ ?_ fun _ => hnil hi
    · rfl
    · rfl
  | waits hp hi =>
    have hnot : id ∉ q.waiters := h.notMem hc (by simp [hp])
    refine h.move hc .waiting ?_ ?_ (fun k => ?_) fun _ => hnil hi
    · rfl
    · rw [← List.concat_eq_append]
      exact h.nodup.concat hnot
    · by_cases hk : k = id <;> simp [hk]
  | withdraws hp =>
    refine h.move hc .finished ?_ ?_ (fun k => ?_) fun hne => ?_
    · rfl
    · exact h.nodup.erase id
    · change k ∈ q.waiters.erase id ↔ _
      rw [h.nodup.mem_erase_iff]
      by_cases hk : k = id <;> simp [hk]
    · have hle := h.items_le fun hw => hne (by simp [finish, setPhase, hw])
      have ha := active_setPhase hc .finished rfl
      simp only [hp, Phase.isActive, Bool.toNat_false] at ha
      change q.items.length ≤ (q.setPhase id .finished).active + 0
      omega
  | wakes hp =>
    refine h.stay hc (by simp [hp]) .taking (by simp) ?_ ?_ fun hne => ?_
    · rfl
    · rfl
    · have hle := h.items_le hne
      have ha := active_setPhase hc .taking rfl
      simp only [hp, Phase.isActive, Bool.toNat_true] at ha
      change q.items.length ≤ (q.setPhase id .taking).active + 0
      omega
  | retries hp hi =>
    refine h.stay hc (by simp [hp]) .looking (by simp) ?_ ?_ fun _ => hnil hi
    · rfl
    · rfl
  | givesUp hp => exact (h.finish_notified hc hp).notify

theorem consume (h : q.Consistent 0) (token : Nat) (takesSignals : Bool) :
    (q.consume token takesSignals).2.Consistent 0 := by
  let newcomer : Consumer := { token, takesSignals }
  have hconsumers : (q.consume token takesSignals).2.consumers = q.consumers ++ [newcomer] := rfl
  refine ⟨h.nodup, fun k => ?_, fun hne => ?_⟩
  · rw [hconsumers]
    refine (h.mem_waiters k).trans ?_
    by_cases hk : k < q.consumers.length
    · rw [List.getElem?_append_left hk]
    · rw [List.getElem?_append_right (not_lt.mp hk), List.getElem?_eq_none (not_lt.mp hk),
        List.getElem?_singleton]
      split <;> simp [newcomer]
  · have hle := h.items_le hne
    have ha : (q.consume token takesSignals).2.active = q.active + 1 := by
      unfold active tally
      rw [hconsumers, List.map_append, List.sum_append]
      rfl
    rw [ha]
    exact hle.trans (Nat.le_succ _)

theorem apply (h : q.Consistent 0) (event : Event α) : (event.apply q).Consistent 0 := by
  cases event with
  | enqueue a =>
    have howed : ({ q with items := q.items ++ [a] } : Queue α).Consistent 1 := by
      refine ⟨h.nodup, h.mem_waiters, fun hne => ?_⟩
      rw [List.length_append]
      exact Nat.succ_le_succ (h.items_le hne)
    exact howed.notify
  | signal =>
    have howed : q.Consistent 1 :=
      ⟨h.nodup, h.mem_waiters, fun hne => (h.items_le hne).trans (Nat.le_succ _)⟩
    exact howed.notify
  | cancel token => exact ⟨h.nodup, h.mem_waiters, h.items_le⟩
  | consume token takesSignals => exact h.consume token takesSignals
  | step id =>
    cases hs : q.stepConsumer? id with
    | none => rwa [Event.apply, hs]
    | some q' =>
      obtain ⟨c, hc, hg⟩ := goes_of_stepConsumer? hs
      rw [Event.apply, hs]
      exact h.goes hc hg
  | giveUp id =>
    cases hs : q.giveUp? id with
    | none => rwa [Event.apply, hs]
    | some q' =>
      obtain ⟨c, hc, hg⟩ := goes_of_giveUp? hs
      rw [Event.apply, hs]
      exact h.goes hc hg

theorem run (h : q.Consistent 0) (events : List (Event α)) : (q.run events).Consistent 0 := by
  induction events generalizing q with
  | nil => exact h
  | cons event rest ih => exact ih (h.apply event)

end Consistent

theorem goes_of_proceeds (h : q.Proceeds q') :
    ∃ id c, q.consumers[id]? = some c ∧ Goes q id c q' := by
  obtain ⟨id, h | h⟩ := h
  · exact ⟨id, goes_of_stepConsumer? h⟩
  · exact ⟨id, goes_of_giveUp? h⟩

theorem proceeds_of_isActive (hc : q.consumers[id]? = some c) (hp : c.phase.isActive = true) :
    ∃ next, q.Proceeds next := by
  have hs : q.stepConsumer? id ≠ none := by
    unfold stepConsumer?
    rw [hc, Option.bind_eq_bind, Option.bind_some]
    cases hphase : c.phase with
    | looking =>
      dsimp only
      split
      · simp
      · split <;> simp
    | notified => simp
    | taking =>
      dsimp only
      split <;> simp
    | waiting | finished =>
      rw [hphase] at hp
      cases hp
  obtain ⟨next, hnext⟩ := Option.ne_none_iff_exists'.mp hs
  exact ⟨next, id, .inl hnext⟩

theorem IsAtRest.phase_eq (h : q.IsAtRest) (hm : c ∈ q.consumers) :
    c.phase = .waiting ∨ c.phase = .finished := by
  obtain ⟨id, hid⟩ := List.getElem?_of_mem hm
  have hn : c.phase.isActive = false := by
    by_contra hp
    obtain ⟨next, hnext⟩ := proceeds_of_isActive hid (Bool.eq_true_of_not_eq_false hp)
    exact h next hnext
  cases hphase : c.phase with
  | waiting => exact .inl rfl
  | finished => exact .inr rfl
  | looking | notified | taking =>
    rw [hphase] at hn
    cases hn

theorem IsAtRest.active_eq_zero (h : q.IsAtRest) : q.active = 0 := by
  refine List.sum_eq_zero fun n hn => ?_
  obtain ⟨c, hc, rfl⟩ := List.mem_map.mp hn
  obtain hp | hp := h.phase_eq hc <;> rw [hp] <;> rfl

theorem Consistent.phase_of_rest (h : q.Consistent 0) (hr : q.IsAtRest) (hi : q.items ≠ [])
    (hm : c ∈ q.consumers) : c.phase = .finished := by
  refine (hr.phase_eq hm).resolve_left fun hp => ?_
  obtain ⟨id, hid⟩ := List.getElem?_of_mem hm
  have hwaiter : id ∈ q.waiters := (h.mem_waiters id).mpr ⟨c, hid, hp⟩
  have hle := h.items_le (List.ne_nil_of_mem hwaiter)
  rw [hr.active_eq_zero] at hle
  exact hi (List.eq_nil_of_length_eq_zero (Nat.le_zero.mp hle))

def Phase.effort : Phase → Nat
  | .finished => 0
  | .waiting => 1
  | .looking => 2
  | .taking => 3
  | .notified => 4

def effort (q : Queue α) : Nat :=
  q.tally Phase.effort + 2 * q.hasPermit.toNat

theorem Consistent.effort_notify (h : q.Consistent owed) : q.notify.effort ≤ q.effort + 3 := by
  unfold Queue.notify
  split
  next first rest hw =>
    obtain ⟨c, hc, hp⟩ := h.phase_of_mem (hw ▸ List.mem_cons_self)
    have ht := tally_setPhase Phase.effort hc .notified rfl
    rw [hp] at ht
    simp only [Phase.effort] at ht
    change (q.setPhase first .notified).tally Phase.effort + 2 * q.hasPermit.toNat ≤ _
    unfold effort
    omega
  next =>
    change q.tally Phase.effort + 2 * 1 ≤ _
    unfold effort
    omega

theorem effort_lt_of_move (hc : q.consumers[id]? = some c) (phase : Phase)
    (hq : q'.consumers = (q.setPhase id phase).consumers) (hp : q'.hasPermit = q.hasPermit)
    (hlt : phase.effort < c.phase.effort) : q'.effort < q.effort := by
  have ht := tally_setPhase Phase.effort hc phase hq
  unfold effort
  rw [hp]
  omega

theorem Phase.effort_pos {phase : Phase} (h : phase.isActive = true) : 0 < phase.effort := by
  cases phase with
  | looking | notified | taking => simp [effort]
  | waiting | finished => cases h

theorem Consistent.effort_lt (h : q.Consistent 0) (hc : q.consumers[id]? = some c)
    (hg : Goes q id c q') : q'.effort < q.effort := by
  cases hg with
  | takes hp => exact effort_lt_of_move hc .finished rfl rfl (Phase.effort_pos hp)
  | leaves outcome hp =>
    exact effort_lt_of_move hc .finished rfl rfl (Phase.effort_pos hp)
  | permitted hp hi hq =>
    have ht := tally_setPhase Phase.effort hc .taking rfl
    rw [hp] at ht
    simp only [Phase.effort] at ht
    change (q.setPhase id .taking).tally Phase.effort + 2 * 0 < _
    rw [effort, hq, Bool.toNat_true]
    omega
  | waits hp => exact effort_lt_of_move hc .waiting rfl rfl (by rw [hp]; decide)
  | withdraws hp => exact effort_lt_of_move hc .finished rfl rfl (by rw [hp]; decide)
  | wakes hp => exact effort_lt_of_move hc .taking rfl rfl (by rw [hp]; decide)
  | retries hp => exact effort_lt_of_move hc .looking rfl rfl (by rw [hp]; decide)
  | givesUp hp =>
    -- giving up uses up more than the consumer notified in its place has to do
    have ht := tally_setPhase Phase.effort hc .finished rfl
    rw [hp] at ht
    simp only [Phase.effort] at ht
    have hn := (h.finish_notified hc hp).effort_notify
    have hbefore : q.effort = q.tally Phase.effort + 2 * q.hasPermit.toNat := rfl
    have hafter : (q.finish id .cancelled).effort =
        (q.setPhase id .finished).tally Phase.effort + 2 * q.hasPermit.toNat := rfl
    omega

theorem Consistent.acc (h : q.Consistent 0) : Acc (fun next q => q.Proceeds next) q := by
  induction hn : q.effort using Nat.strong_induction_on generalizing q with
  | _ n ih =>
    refine Acc.intro q fun next hnext => ?_
    obtain ⟨id, c, hc, hg⟩ := goes_of_proceeds hnext
    exact ih next.effort (hn ▸ h.effort_lt hc hg) (h.goes hc hg) rfl

/-- After any run, the items handed out and those still in the queue are what was put in, in that
order. The consumers come to rest in whatever order they go on, and at rest nobody waits while an
item is there. -/
theorem fifo_without_missed_wakeups (events : List (Event α)) :
    let q := ({} : Queue α).run events
    q.handedOut ++ q.items = events.filterMap Event.item? ∧
      (q.IsAtRest → q.items ≠ [] → ∀ c ∈ q.consumers, c.phase = .finished) ∧
      Acc (fun next q => q.Proceeds next) q := by
  intro q
  have hq : q.Consistent 0 := Consistent.empty.run events
  exact ⟨handedOut_run {} events, fun hr hi c hm => hq.phase_of_rest hr hi hm, hq.acc⟩

/-- Of two consumers the one that was notified gives up, and the other gets the item. Another item
stays, and nobody waits for it. -/
theorem item_stays_when_nobody_waits :
    let q := ({} : Queue String).run [.consume 0 false, .consume 1 true, .step 0, .step 1,
      .enqueue "first", .cancel 0, .giveUp 0, .step 1, .step 1, .enqueue "second"]
    (q.handedOut = ["first"] ∧ q.items = ["second"]) ∧ q.IsAtRest ∧
      ∀ c ∈ q.consumers, c.phase = .finished := by
  intro q
  have hrest : q.IsAtRest := by
    have hnone : ∀ id, q.stepConsumer? id = none ∧ q.giveUp? id = none := by
      rintro (_ | _ | id) <;> exact ⟨rfl, rfl⟩
    rintro next ⟨id, h | h⟩
    · rw [(hnone id).1] at h
      cases h
    · rw [(hnone id).2] at h
      cases h
  exact ⟨⟨rfl, rfl⟩, hrest, (fifo_without_missed_wakeups _).2.1 hrest (List.cons_ne_nil _ _)⟩

end CommandBus.Queue
