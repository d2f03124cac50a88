import CommandBus.Proofs.World.Told
import Mathlib

namespace CommandBus

namespace Request

variable {V : Type}

def Effect.IsQuiet (effect : Effect V) : Prop :=
  match effect with
  | .none | .invoke _ | .release _ => True
  | .publish _ | .acknowledge _ => False

theorem toNat_remainingSecs {deadline now : Nat} (h : deadline - now ≤ 1000 * (UInt32.size - 1)) :
    (remainingSecs deadline now).toNat = (deadline - now + 999) / 1000 := by
  have hsize : UInt32.size = 4294967296 := rfl
  rw [hsize] at h
  rw [remainingSecs, Nat.toUInt32, UInt32.toNat_ofNat', hsize]
  omega

theorem remainingSecs_eq_zero_iff {deadline now : Nat} :
    remainingSecs deadline now = 0 ↔ deadline ≤ now := by
  have hsize : UInt32.size = 4294967296 := rfl
  rw [← UInt32.toNat_inj, remainingSecs, Nat.toUInt32, UInt32.toNat_ofNat', hsize,
    UInt32.toNat_zero]
  omega

namespace Task

variable {c : Command V} {t t' : Task V} {s s' : Surroundings} {effect : Effect V}
  {m : Message} {reply : Reply}

def Addresses (t : Task V) (m : Message) : Prop :=
  t.message.responseTopic = some m.topic ∧ m.correlationData = t.message.correlationData

theorem addresses_of_carries (ht : t.message.responseTopic.isSome = true)
    (hc : t.Carries reply m) : t.Addresses m := by
  obtain ⟨stamp, expiry, rfl⟩ := hc
  obtain ⟨topic, htopic⟩ := Option.isSome_iff_exists.mp ht
  exact ⟨by rw [htopic]; rfl, rfl⟩

theorem addresses_address (ht : t.message.responseTopic.isSome = true) (m : Message) :
    t.Addresses (t.address m) := by
  obtain ⟨topic, htopic⟩ := Option.isSome_iff_exists.mp ht
  exact ⟨by rw [htopic, address, htopic]; rfl, rfl⟩

/-- The request has not been answered yet, and what it will be answered with, if that is known, is
for whoever made it. -/
def IsOpen (t : Task V) : Prop :=
  match t.phase with
  | .received | .halted => True
  | .lookingUp | .awaiting .. | .executing | .handling .. => t.message.responseTopic.isSome = true
  | .storing m _ | .answering m => t.Addresses m
  | .acknowledging | .finished => False

inductive Attempt (t : Task V) (now : Nat) : Effect V → Prop
  | unanswerable (ht : t.message.responseTopic = none) : Attempt t now .none
  | lapsed (hle : t.expiresAt ≤ now) : Attempt t now .none
  | sent {m : Message} (hlt : now < t.expiresAt) (hm : t.Addresses m)
    (he : m.expiryInterval = some (remainingSecs t.expiresAt now)) : Attempt t now (.publish m)

theorem isSome_of_refused (hp : t.phase = .received) (h : t.step? c s = some (t', s', effect))
    (hp' : t'.phase = .answering m) : t.message.responseTopic.isSome = true := by
  by_contra hn
  have hnone : t.message.responseTopic.isNone = true := by simpa using hn
  rw [step?, hp] at h
  simp only [receive, hnone, if_true] at h
  cases h
  cases hp'

theorem expired_of_gaveUp {promise place : Nat} (hp : t.phase = .awaiting promise place)
    (h : t.step? c s = some (t', s', effect)) (hp' : t'.phase = .acknowledging) :
    t.expiresAt ≤ s.now := by
  rw [step?, hp] at h
  simp only [awaitStored?] at h
  split at h
  · cases h
    cases hp'
  · cases h
    cases hp'
  · split at h
    · assumption
    · cases h

theorem attempt_of_answering (hp : t.phase = .answering m) (hm : t.Addresses m)
    (h : t.step? c s = some (t', s', effect)) : t.Attempt s.now effect := by
  rw [step?, hp] at h
  simp only [answer] at h
  split at h
  next hzero =>
    cases h
    exact .lapsed (remainingSecs_eq_zero_iff.mp hzero)
  next hne =>
    cases h
    exact .sent (not_le.mp fun hle => hne (remainingSecs_eq_zero_iff.mpr hle)) hm rfl

theorem IsOpen.step (ho : t.IsOpen) (h : t.step? c s = some (t', s', effect)) :
    effect.IsQuiet ∧ t'.IsOpen ∨ t.Attempt s.now effect ∧ t'.phase = .acknowledging := by
  obtain ⟨phase, rfl, hg⟩ := goes_of_step? h
  generalize s'.cache.state = state at hg
  cases hg with
  | unanswerable hp ht => exact .inr ⟨.unanswerable ht, rfl⟩
  | refused hp hr hc =>
    have ht := isSome_of_refused hp h rfl
    exact .inl ⟨trivial, addresses_of_carries ht hc⟩
  | accepted hp ht => exact .inl ⟨trivial, ht⟩
  | joined hp | reserved hp | disappointed hp | invoked hp | stored hp | unstored hp =>
    rw [IsOpen, hp] at ho
    exact .inl ⟨trivial, ho⟩
  | halted => exact .inl ⟨trivial, trivial⟩
  | served hp =>
    rw [IsOpen, hp] at ho
    exact .inl ⟨trivial, addresses_address ho _⟩
  | gaveUp hp => exact .inr ⟨.lapsed (expired_of_gaveUp hp h rfl), rfl⟩
  | rejected hp _ hc | returned hp _ hc | timedOut hp _ _ hc =>
    rw [IsOpen, hp] at ho
    exact .inl ⟨trivial, addresses_of_carries ho hc⟩
  | answered hp | lapsed hp =>
    rw [IsOpen, hp] at ho
    exact .inr ⟨attempt_of_answering hp ho h, rfl⟩
  | acknowledged hp =>
    rw [IsOpen, hp] at ho
    exact ho.elim

/-- How far a request has come that arrived at a time, and what it has done. -/
inductive Course (received : Nat) (t : Task V) (now : Nat) : List (Nat × Effect V) → Prop
  | unanswered {log : List (Nat × Effect V)} (ho : t.IsOpen) (hq : ∀ p ∈ log, p.2.IsQuiet)
    (hle : received ≤ now) : Course received t now log
  | attempted {before : List (Nat × Effect V)} {time : Nat} {effect : Effect V}
    (hp : t.phase = .acknowledging) (hq : ∀ p ∈ before, p.2.IsQuiet)
    (ha : t.Attempt time effect) (hle : received ≤ time) (hnow : time ≤ now) :
    Course received t now (before ++ [(time, effect)])
  | acknowledged {before : List (Nat × Effect V)} {time time' : Nat} {effect : Effect V}
    (hp : t.phase = .finished) (hq : ∀ p ∈ before, p.2.IsQuiet) (ha : t.Attempt time effect)
    (hle : received ≤ time) (htime : time ≤ time') (hnow : time' ≤ now) :
    Course received t now (before ++ [(time, effect), (time', .acknowledge t.delivery.ack)])

theorem Attempt.eq_none {time : Nat} (ha : t.Attempt time effect)
    (h : t.message.responseTopic = none ∨ t.expiresAt ≤ time) : effect = .none := by
  cases ha with
  | unanswerable | lapsed => rfl
  | sent hlt hm =>
    obtain h | h := h
    · cases h.symm.trans hm.1
    · exact absurd h (not_le.mpr hlt)

theorem Attempt.exists_publish {time : Nat} (ha : t.Attempt time effect) {topic : String}
    (ht : t.message.responseTopic = some topic) (hlt : time < t.expiresAt)
    (hbound : t.expiresAt - time ≤ 1000 * (UInt32.size - 1)) :
    ∃ m secs, effect = .publish m ∧ m.topic = topic ∧
      m.correlationData = t.message.correlationData ∧ m.expiryInterval = some secs ∧
      1 ≤ secs.toNat ∧ time + 1000 * (secs.toNat - 1) < t.expiresAt ∧
      t.expiresAt ≤ time + 1000 * secs.toNat := by
  cases ha with
  | unanswerable h => cases ht.symm.trans h
  | lapsed h => exact absurd h (not_le.mpr hlt)
  | @sent m _ hm he =>
    have hsecs := toNat_remainingSecs hbound
    obtain ⟨htopic, hdata⟩ := hm
    rw [ht, Option.some_inj] at htopic
    refine ⟨m, _, rfl, htopic.symm, hdata, he, ?_, ?_, ?_⟩ <;> rw [hsecs] <;> omega

variable {received now now' : Nat} {log : List (Nat × Effect V)}

theorem Attempt.congr {time : Nat} (ha : t.Attempt time effect) (hd : t'.delivery = t.delivery)
    (he : t'.expiresAt = t.expiresAt) : t'.Attempt time effect := by
  have hm : t'.message = t.message := congrArg Delivery.message hd
  cases ha with
  | unanswerable ht => exact .unanswerable (hm ▸ ht)
  | lapsed hle => exact .lapsed (he ▸ hle)
  | sent hlt haddress hexpiry =>
    exact .sent (he ▸ hlt) (by rwa [Addresses, hm]) (he ▸ hexpiry)

theorem Course.wait (h : t.Course received now log) (hle : now ≤ now') :
    t.Course received now' log := by
  cases h with
  | unanswered ho hq hr => exact .unanswered ho hq (hr.trans hle)
  | attempted hp hq ha hr hn => exact .attempted hp hq ha hr (hn.trans hle)
  | acknowledged hp hq ha hr ht hn => exact .acknowledged hp hq ha hr ht (hn.trans hle)

theorem Course.step (h : t.Course received s.now log)
    (hs : t.step? c s = some (t', s', effect)) :
    t'.Course received s.now (log ++ [(s.now, effect)]) := by
  obtain ⟨phase, rfl, -⟩ := goes_of_step? hs
  cases h with
  | unanswered ho hq hr =>
    obtain ⟨heffect, ho'⟩ | ⟨ha, hp⟩ := ho.step hs
    · refine .unanswered ho' (fun p hp => ?_) hr
      obtain hp | hp := List.mem_append.mp hp
      · exact hq p hp
      · rw [List.mem_singleton.mp hp]
        exact heffect
    · exact .attempted hp hq (ha.congr rfl rfl) hr le_rfl
  | @attempted before time effect' hp hq ha hr hn =>
    rw [step?, hp] at hs
    cases hs
    rw [List.append_assoc]
    exact .acknowledged rfl hq (ha.congr rfl rfl) hr hn le_rfl
  | acknowledged hp =>
    rw [step?, hp] at hs
    cases hs

end Task

end Request

namespace World

open Request

variable {V : Type} {w w' : World V} {i x received : Nat} {d : Delivery}
  {log : List (Nat × Effect V)}

theorem Told.course (h : Told i w w' log) (hb : w.requests[i]? = some ⟨x, arrive d received⟩)
    (hreceived : received ≤ w.now) :
    ∃ t : Request.Task V, w'.requests[i]? = some ⟨x, t⟩ ∧ t.delivery = d ∧
      t.expiresAt = (arrive (V := V) d received).expiresAt ∧ t.Course received w'.now log := by
  induction h with
  | refl => exact ⟨_, hb, rfl, rfl, .unanswered trivial (List.forall_mem_nil _) hreceived⟩
  | @acts v v' log effect isLocked htold he hs ih =>
    obtain ⟨t, ht, hd, hexpires, hcourse⟩ := ih
    obtain ⟨b, e, s, t', s', hb', -, hnow, hstep, hr, -⟩ := acts_of_effect? he hs
    cases ht.symm.trans hb'
    have hle : v.now ≤ v'.now :=
      (moves_of_stepRequest? hs).steady.now_le
    obtain ⟨hlt, -⟩ := List.getElem?_eq_some_iff.mp ht
    refine ⟨t', by rw [hr, List.getElem?_set_self hlt], ?_, ?_, ?_⟩
    · obtain ⟨phase, rfl, -⟩ := Task.goes_of_step? hstep
      exact hd
    · obtain ⟨phase, rfl, -⟩ := Task.goes_of_step? hstep
      exact hexpires
    · rw [← hnow] at hcourse hle ⊢
      exact (hcourse.step hstep).wait hle
  | @elsewhere v v' log _ hs ih =>
    obtain ⟨t, ht, hd, hexpires, hcourse⟩ := ih
    have hle : v.now ≤ v'.now := by
      obtain ⟨_, -, hs⟩ | ho := hs
      · exact (moves_of_acts hs).steady.now_le
      · exact ho.now_le
    exact ⟨t, hs.request ht, hd, hexpires, hcourse.wait hle⟩

theorem expiresAt_arrive_le (d : Delivery) (now : Nat) :
    (arrive (V := V) d now).expiresAt ≤ now + 1000 * (UInt32.size - 1) := by
  have hsize : UInt32.size = 4294967296 := rfl
  have hsecs : d.message.expiryInterval.elim defaultExpirySecs UInt32.toNat ≤ UInt32.size - 1 := by
    cases d.message.expiryInterval with
    | none => decide
    | some secs =>
      have hlt := secs.toNat_lt
      rw [Option.elim_some]
      omega
  exact Nat.add_le_add_left (Nat.mul_le_mul_left 1000 hsecs) now

/-- A request that has just arrived goes through anything, but is not aborted, and finishes. Its
steps do nothing to the outside but run the handler, until at one time the attempt is made to
answer it; then it is acknowledged, and that is all. It is answered if it names a topic and has not
expired at that time: on its topic, with its correlation data, and with the seconds that remain,
rounded up. What is published and acknowledged goes to the network. -/
theorem Told.answered_then_acknowledged (h : Told i w w' log)
    (hb : w.requests[i]? = some ⟨x, arrive d received⟩) (hreceived : received ≤ w.now)
    {b : RequestEntry V} (hb' : w'.requests[i]? = some b) (hf : b.task.phase = .finished) :
    (∃ (before : List (Nat × Effect V)) (time : Nat) (effect : Effect V) (time' : Nat),
      log = before ++ [(time, effect), (time', .acknowledge d.ack)] ∧
      (∀ p ∈ before, p.2.IsQuiet) ∧ received ≤ time ∧ time ≤ time' ∧ time' ≤ w'.now ∧
      (d.message.responseTopic = none ∨ (arrive (V := V) d received).expiresAt ≤ time →
        effect = .none) ∧
      ∀ topic, d.message.responseTopic = some topic →
        time < (arrive (V := V) d received).expiresAt →
        ∃ (m : Message) (secs : UInt32), effect = .publish m ∧ m.topic = topic ∧
          m.correlationData = d.message.correlationData ∧ m.expiryInterval = some secs ∧
          1 ≤ secs.toNat ∧
          time + 1000 * (secs.toNat - 1) < (arrive (V := V) d received).expiresAt ∧
          (arrive (V := V) d received).expiresAt ≤ time + 1000 * secs.toNat) ∧
    ∀ (v v' : World V) effect isLocked, v.effect? i = some effect →
      v.stepRequest? i isLocked = some v' →
      ∃ b e, v.requests[i]? = some b ∧ v.executors[b.executor]? = some e ∧
        v'.network = effectOn e.client v.network effect := by
  refine ⟨?_, fun v v' effect isLocked he hs => ?_⟩
  · obtain ⟨t, ht, hd, hexpires, hcourse⟩ := h.course hb hreceived
    cases hb'.symm.trans ht
    cases hcourse with
    | unanswered ho =>
      rw [Request.Task.IsOpen, hf] at ho
      exact ho.elim
    | attempted hp => cases hp.symm.trans hf
    | @acknowledged before time time' effect hp hq ha hle htime hnow =>
      have hm : t.message = d.message := congrArg Delivery.message hd
      have hbound := expiresAt_arrive_le (V := V) d received
      refine ⟨before, time, effect, time', by rw [hd], hq, hle, htime, hnow, fun hnone => ?_,
        fun topic htopic hlt => ?_⟩
      · rw [← hm, ← hexpires] at hnone
        exact ha.eq_none hnone
      · rw [← hexpires] at hlt hbound ⊢
        rw [← hm] at htopic ⊢
        exact ha.exists_publish htopic hlt (by omega)
  · obtain ⟨b, e, s, t, s', hb, he, -, -, -, hn⟩ := acts_of_effect? he hs
    exact ⟨b, e, hb, he, hn⟩

/-- Two invokers have made equivalent requests, under ids and to topics of their own. -/
def twoEquivalent : World Bytes where
  wall := 0
  clocks := [Clock.start "node" 0 Clock.defaultMaxDrift]
  caches := [{ isStarted := true }]
  executors := [{
    command := {
      name := "c", requestFilter := "c", isIdempotent := true, reusableFor := 1000
      acrossInvokers := true, requestCodec := .raw, responseCodec := .raw
      handler := fun _ request => ⟨0, .ok ⟨request.payload, []⟩⟩ }
    client := .plain 0, shutdownClient := false, cache := 0, clock := 0
    loop := some { box := 0 } }]
  requests := [
    ⟨0, arrive ⟨{
      topic := "c", responseTopic := some "r", correlationData := some (List.replicate 16 0)
      expiryInterval := some 10 }, ⟨[0]⟩⟩ 0⟩,
    ⟨0, arrive ⟨{
      topic := "c", responseTopic := some "s", correlationData := some (List.replicate 16 1)
      expiryInterval := some 20 }, ⟨[1]⟩⟩ 0⟩]

/-- The first request is executed, while the second looks for it and waits; then both finish. -/
def bothAnswered : World Bytes :=
  twoEquivalent.stepAll [.request 0, .request 0, .request 0, .request 0, .request 1, .request 1,
    .request 0, .request 1, .request 1, .request 1]

/-- The response to the first request answers the second as well: to its topic, with its
correlation data and its expiry. -/
theorem equivalent_answered_as_its_own : ∃ log, Told 1 twoEquivalent bothAnswered log ∧
    ∃ (before : List (Nat × Effect Bytes)) (m : Message) (secs : UInt32),
      log = before ++ [(0, .publish m), (0, .acknowledge ⟨[1]⟩)] ∧
      m.topic = "s" ∧ m.correlationData = some (List.replicate 16 1) ∧
      m.expiryInterval = some secs ∧ secs.toNat = 20 := by
  obtain ⟨log, htold⟩ : ∃ log, Told 1 twoEquivalent bothAnswered log := by
    refine Told.stepAll .refl _ fun k hk hi => ?_
    simp only [List.length_cons, List.length_nil] at hk
    interval_cases k <;> first | rfl | cases hi
  have hnow : bothAnswered.now = 0 := rfl
  obtain ⟨⟨before, time, effect, time', hlog, -, -, hle, hle', -, hanswer⟩, -⟩ :=
    htold.answered_then_acknowledged rfl le_rfl rfl rfl
  obtain ⟨m, secs, rfl, htopic, hdata, hsecs, -, hlower, hupper⟩ :=
    hanswer "s" rfl (by rw [hnow] at hle'; exact (hle.trans hle').trans_lt (Nat.zero_lt_succ _))
  rw [hnow] at hle'
  obtain rfl : time' = 0 := Nat.le_zero.mp hle'
  obtain rfl : time = 0 := Nat.le_zero.mp hle
  have hlower : 0 + 1000 * (secs.toNat - 1) < 20000 := hlower
  have hupper : 20000 ≤ 0 + 1000 * secs.toNat := hupper
  exact ⟨log, htold, before, m, secs, hlog, htopic, hdata, hsecs, by omega⟩

end World

end CommandBus
