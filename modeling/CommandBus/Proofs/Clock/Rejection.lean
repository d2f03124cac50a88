import CommandBus.Clock
import CommandBus.Proofs.Clock.Encoding
import Mathlib

namespace CommandBus

namespace Timestamp

variable (t other : Timestamp) (wall : Int) (max : Duration)

def IsExhausted : Prop := t.counter.toNat + 1 = 2 ^ 64

instance : Decidable t.IsExhausted := inferInstanceAs (Decidable (_ = _))

def Differs (t u : Timestamp) : Prop :=
  u.node = t.node ∧ (u.nanos ≠ t.nanos ∨ u.counter ≠ t.counter)

variable {t other wall max}

theorem Differs.ne {u : Timestamp} (h : t.Differs u) : u ≠ t := by
  rintro rfl
  obtain ⟨-, h | h⟩ := h <;> exact h rfl

theorem lt_of_not_isExhausted (h : ¬ t.IsExhausted) : t.counter.toNat + 1 < 2 ^ 64 := by
  have := t.counter.toNat_lt
  unfold IsExhausted at h
  omega

theorem increment_of_isExhausted (h : t.IsExhausted) : t.increment = (.error .overflow, t) := by
  unfold IsExhausted at h
  exact if_neg (by unfold UInt64.size; omega)

theorem increment_of_not_isExhausted (h : ¬ t.IsExhausted) :
    t.increment = (.ok (), { t with counter := t.counter + 1 }) :=
  if_pos (lt_of_not_isExhausted h)

theorem toNat_counter_succ (h : ¬ t.IsExhausted) :
    (t.counter + 1).toNat = t.counter.toNat + 1 := by
  have := lt_of_not_isExhausted h
  rw [UInt64.toNat_add, UInt64.toNat_one, Nat.mod_eq_of_lt this]

theorem counter_succ_ne (h : ¬ t.IsExhausted) : t.counter + 1 ≠ t.counter := by
  intro he
  have := congrArg UInt64.toNat he
  rw [toNat_counter_succ h] at this
  omega

@[simp]
theorem settle_snd (r : Except ClockError Unit × Timestamp) : (settle wall max r).2 = r.2 := by
  obtain ⟨r | ⟨⟩, t⟩ := r <;> rfl

theorem settle_now (n : Int) (counter : UInt64) (node : String) :
    (settle n max (.ok (), ⟨n, counter, node⟩)).1 = .ok () := by
  have hd : ¬ (max.nanos : Int) < n - n := by omega
  exact if_neg hd

theorem now_nonneg (wall : Int) : 0 ≤ now wall := by
  rw [now]
  omega

theorem now_zero : now 0 = 0 := rfl

theorem settle_increment_eq_overflow_iff {n : Int} {m : Duration} :
    (settle n m t.increment).1 = .error .overflow ↔ t.IsExhausted := by
  by_cases h : t.IsExhausted
  · rw [increment_of_isExhausted h]
    exact iff_of_true rfl h
  · rw [increment_of_not_isExhausted h]
    refine iff_of_false (fun he => ?_) h
    simp only [settle, checkDrift] at he
    split at he <;> cases he

theorem toNat_raise (m n : UInt64) : (if m < n then n else m).toNat = Nat.max m.toNat n.toNat := by
  split <;> rename_i h <;> rw [UInt64.lt_iff_toNat_lt] at h
  · exact (Nat.max_eq_right h.le).symm
  · exact (Nat.max_eq_left (not_lt.mp h)).symm

theorem advance_of_error {e : ClockError} (h : (t.advance wall max).1 = .error e) :
    t.IsExhausted ∧ (t.advance wall max).2 = t ∨
      ¬ t.IsExhausted ∧ t.Differs (t.advance wall max).2 := by
  unfold advance at h ⊢
  rw [settle_snd]
  by_cases hw : t.nanos < now wall
  · rw [if_pos hw, settle_now] at h
    cases h
  · rw [if_neg hw]
    by_cases hx : t.IsExhausted
    · exact .inl ⟨hx, by rw [increment_of_isExhausted hx]⟩
    · rw [increment_of_not_isExhausted hx]
      exact .inr ⟨hx, rfl, .inr (counter_succ_ne hx)⟩

/-- A failed advance past `other` leaves no trace only if the counter is at its limit and `other`
is not ahead. -/
theorem advancePast_of_error {e : ClockError} (h : (t.advancePast other wall max).1 = .error e) :
    (t.IsExhausted ∧ other.nanos ≤ t.nanos) ∧ (t.advancePast other wall max).2 = t ∨
      ¬ (t.IsExhausted ∧ other.nanos ≤ t.nanos) ∧
        t.Differs (t.advancePast other wall max).2 := by
  unfold advancePast at h ⊢
  rw [settle_snd]
  by_cases hw : t.nanos < now wall ∧ other.nanos < now wall
  · rw [if_pos hw, settle_now] at h
    cases h
  rw [if_neg hw]
  by_cases heq : t.nanos = other.nanos
  · rw [if_pos heq]
    have hn := toNat_raise t.counter other.counter
    set n := if t.counter < other.counter then other.counter else t.counter
    have hle : t.counter.toNat ≤ n.toNat := by rw [hn]; exact Nat.le_max_left ..
    by_cases hx : IsExhausted { t with counter := n }
    · rw [increment_of_isExhausted hx]
      by_cases ht : t.IsExhausted
      · have hn' : n.toNat = t.counter.toNat := Nat.succ.inj (hx.trans ht.symm)
        have : n = t.counter := UInt64.toNat_inj.mp hn'
        exact .inl ⟨⟨ht, heq.ge⟩, by rw [this]⟩
      · have : n ≠ t.counter := fun he => ht (by rw [he] at hx; exact hx)
        exact .inr ⟨fun h => ht h.1, rfl, .inr this⟩
    · rw [increment_of_not_isExhausted hx]
      have hs : (n + 1).toNat = n.toNat + 1 := toNat_counter_succ hx
      have hlt : n.toNat + 1 < 2 ^ 64 := lt_of_not_isExhausted hx
      have hne : n + 1 ≠ t.counter := fun he => by
        rw [he] at hs
        omega
      have ht : ¬ t.IsExhausted := fun ht => by
        unfold IsExhausted at ht
        omega
      exact .inr ⟨fun h => ht h.1, rfl, .inr hne⟩
  · rw [if_neg heq]
    by_cases hlt : other.nanos < t.nanos
    · rw [if_pos hlt]
      by_cases hx : t.IsExhausted
      · exact .inl ⟨⟨hx, hlt.le⟩, by rw [increment_of_isExhausted hx]⟩
      · rw [increment_of_not_isExhausted hx]
        exact .inr ⟨fun h => hx h.1, rfl, .inr (counter_succ_ne hx)⟩
    · rw [if_neg hlt]
      refine .inr ⟨fun h => heq (le_antisymm (not_lt.mp hlt) h.2), ?_⟩
      by_cases hx : IsExhausted { t with nanos := other.nanos, counter := other.counter }
      · rw [increment_of_isExhausted hx]
        exact ⟨rfl, .inl (Ne.symm heq)⟩
      · rw [increment_of_not_isExhausted hx]
        exact ⟨rfl, .inl (Ne.symm heq)⟩

theorem nanos_increment (t : Timestamp) : t.increment.2.nanos = t.nanos := by
  rw [increment]
  split <;> rfl

theorem nonneg_of_advance_error {e : ClockError} (h : (t.advance wall max).1 = .error e) :
    0 ≤ (t.advance wall max).2.nanos := by
  unfold advance at h ⊢
  rw [settle_snd]
  have hnow := now_nonneg wall
  split at h
  · rw [settle_now] at h
    cases h
  next hle =>
    rw [if_neg hle, nanos_increment]
    omega

def met (t other : Timestamp) : Timestamp :=
  if t.nanos = other.nanos then
    { t with counter := if t.counter < other.counter then other.counter else t.counter }
  else if other.nanos < t.nanos then t
  else { t with nanos := other.nanos, counter := other.counter }

theorem nanos_met (t other : Timestamp) : (t.met other).nanos = Max.max t.nanos other.nanos := by
  rw [met]
  split
  next heq => exact (max_eq_left heq.ge).symm
  split
  next hlt => exact (max_eq_left hlt.le).symm
  next hge => exact (max_eq_right (not_lt.mp hge)).symm

theorem advancePast_of_le (h : now wall ≤ t.nanos ∨ now wall ≤ other.nanos) :
    t.advancePast other wall max = settle (now wall) max (t.met other).increment := by
  rw [advancePast, if_neg (by omega), met]
  split_ifs <;> rfl

theorem nonneg_of_advancePast_error {e : ClockError}
    (h : (t.advancePast other wall max).1 = .error e) :
    0 ≤ (t.advancePast other wall max).2.nanos := by
  have hnow := now_nonneg wall
  by_cases hw : t.nanos < now wall ∧ other.nanos < now wall
  · rw [advancePast, if_pos hw, settle_now] at h
    cases h
  · rw [advancePast_of_le (by omega), settle_snd, nanos_increment, nanos_met]
    omega

end Timestamp

namespace Clock

inductive Use
  | stamp (wall : Int)
  | observe (other : Timestamp) (wall : Int)

inductive Outcome
  | stamped (result : Except ClockError String)
  | observed (result : Except ClockError Unit)
  deriving DecidableEq

def Outcome.IsRejection : Outcome → Prop
  | .stamped r => ∃ e, r = .error e
  | .observed r => ∃ e, r = .error e

def use (c : Clock) : Use → Outcome × Clock
  | .stamp wall => let (r, c) := c.stamp wall; (.stamped r, c)
  | .observe other wall => let (r, c) := c.observe other wall; (.observed r, c)

def outcomes (c : Clock) : List Use → List Outcome
  | [] => []
  | u :: later => (c.use u).1 :: (c.use u).2.outcomes later

def Use.IsAhead (c : Clock) : Use → Prop
  | .stamp _ => False
  | .observe other _ => c.time.nanos < other.nanos

variable {c d : Clock}

theorem error_of_stamp {wall : Int} {e : ClockError} (h : (c.stamp wall).1 = .error e) :
    ∃ e', (c.time.advance wall c.maxDrift).1 = .error e' := by
  change (c.time.advance wall c.maxDrift).1.map _ = .error e at h
  cases hr : (c.time.advance wall c.maxDrift).1 with
  | error e' => exact ⟨e', rfl⟩
  | ok =>
    rw [hr] at h
    cases h

/-- A rejected use leaves the clock alone only if the counter is at its limit and no timestamp is
ahead; otherwise the time differs afterwards, and the rest of the clock does not. -/
theorem use_of_isRejection {u : Use} (h : (c.use u).1.IsRejection) :
    (c.time.IsExhausted ∧ ¬ u.IsAhead c) ∧ (c.use u).2 = c ∨
      ¬ (c.time.IsExhausted ∧ ¬ u.IsAhead c) ∧ c.time.Differs (c.use u).2.time ∧
        (c.use u).2.maxDrift = c.maxDrift := by
  cases u with
  | stamp wall =>
    obtain ⟨e, he⟩ := h
    obtain ⟨e', he'⟩ := error_of_stamp he
    obtain ⟨hx, hs⟩ | ⟨hx, hd⟩ := Timestamp.advance_of_error he'
    · exact .inl ⟨⟨hx, id⟩, by simp only [use, stamp, hs]⟩
    · exact .inr ⟨fun hc => hx hc.1, hd, rfl⟩
  | observe other wall =>
    obtain ⟨e, he⟩ := h
    obtain ⟨hx, hs⟩ | ⟨hx, hd⟩ := Timestamp.advancePast_of_error he
    · exact .inl ⟨⟨hx.1, not_lt.mpr hx.2⟩, by simp only [use, observe, hs]⟩
    · exact .inr ⟨fun hc => hx ⟨hc.1, not_lt.mp hc.2⟩, hd, rfl⟩

theorem stamp_epoch (hc : 0 ≤ c.time.nanos) :
    ((c.stamp 0).1 = .error .overflow ↔ c.time.IsExhausted) ∧
      (c.stamp 0).2 = { c with time := c.time.increment.2 } := by
  have hadvance : c.time.advance 0 c.maxDrift =
      Timestamp.settle 0 c.maxDrift c.time.increment := by
    rw [Timestamp.advance, Timestamp.now_zero, if_neg (not_lt.mpr hc)]
  have hresult : (c.stamp 0).1 = (c.time.advance 0 c.maxDrift).1.map fun _ =>
      (c.time.advance 0 c.maxDrift).2.text := rfl
  have hclock : (c.stamp 0).2 = { c with time := (c.time.advance 0 c.maxDrift).2 } := rfl
  rw [hresult, hclock, hadvance, Timestamp.settle_snd]
  refine ⟨?_, rfl⟩
  have hiff := Timestamp.settle_increment_eq_overflow_iff (t := c.time) (n := 0) (m := c.maxDrift)
  generalize (Timestamp.settle 0 c.maxDrift c.time.increment).1 = r at hiff ⊢
  rw [← hiff]
  cases r <;> simp [Except.map]

theorem observe_epoch_iff (hc : 0 ≤ c.time.nanos) {other : Timestamp} :
    (c.observe other 0).1 = .error .overflow ↔ (c.time.met other).IsExhausted := by
  have hadvance : c.time.advancePast other 0 c.maxDrift =
      Timestamp.settle 0 c.maxDrift (c.time.met other).increment :=
    Timestamp.advancePast_of_le (.inl hc)
  rw [observe, hadvance]
  exact Timestamp.settle_increment_eq_overflow_iff

theorem eq_text_of_stamp {wall : Int} {text : String} (h : (c.stamp wall).1 = .ok text) :
    text = (c.stamp wall).2.time.text := by
  change (c.time.advance wall c.maxDrift).1.map _ = .ok text at h
  cases hr : (c.time.advance wall c.maxDrift).1 with
  | error e =>
    rw [hr] at h
    cases h
  | ok =>
    rw [hr] at h
    exact (Except.ok.inj h).symm

theorem nonneg_of_isRejection {u : Use} (h : (c.use u).1.IsRejection) :
    0 ≤ (c.use u).2.time.nanos := by
  cases u with
  | stamp wall =>
    obtain ⟨e, he⟩ := h
    obtain ⟨e', he'⟩ := error_of_stamp he
    exact Timestamp.nonneg_of_advance_error he'
  | observe other wall =>
    obtain ⟨e, he⟩ := h
    exact Timestamp.nonneg_of_advancePast_error he

section Outcomes

variable (h : ∀ later, d.outcomes later = c.outcomes later)
include h

theorem use_eq_of_outcomes_eq (u : Use) : (d.use u).1 = (c.use u).1 := by
  have ho := h [u]
  simpa [outcomes] using ho

theorem outcomes_eq_after (u : Use) (later : List Use) :
    (d.use u).2.outcomes later = (c.use u).2.outcomes later := by
  have ho := h (u :: later)
  exact (List.cons.inj ho).2

theorem observe_epoch_congr (hc : 0 ≤ c.time.nanos) (hd : 0 ≤ d.time.nanos) (other : Timestamp) :
    (d.time.met other).IsExhausted ↔ (c.time.met other).IsExhausted := by
  have ho : (d.observe other 0).1 = (c.observe other 0).1 :=
    Outcome.observed.inj (use_eq_of_outcomes_eq h (.observe other 0))
  rw [← observe_epoch_iff hc, ← observe_epoch_iff hd, ho]

theorem isExhausted_congr (hc : 0 ≤ c.time.nanos) (hd : 0 ≤ d.time.nanos) :
    d.time.IsExhausted ↔ c.time.IsExhausted := by
  have ho : (d.stamp 0).1 = (c.stamp 0).1 :=
    Outcome.stamped.inj (use_eq_of_outcomes_eq h (.stamp 0))
  rw [← (stamp_epoch hc).1, ← (stamp_epoch hd).1, ho]

/-- A clock that is ahead of another shows it for a timestamp of one of their times: of the later one
if its own counter is at the limit, and of the earlier one otherwise. -/
theorem nanos_le_of_outcomes_eq (hc : 0 ≤ c.time.nanos) (hd : 0 ≤ d.time.nanos) :
    d.time.nanos ≤ c.time.nanos := by
  by_contra hlt
  rw [not_le] at hlt
  by_cases hx : d.time.IsExhausted
  · have hmet : (d.time.met ⟨d.time.nanos, 0, ""⟩).IsExhausted := by
      rw [Timestamp.met, if_pos rfl, Timestamp.IsExhausted, Timestamp.toNat_raise]
      exact (congrArg (· + 1) (Nat.max_zero _)).trans hx
    rw [observe_epoch_congr h hc hd, Timestamp.met, if_neg hlt.ne, if_neg hlt.not_gt,
      Timestamp.IsExhausted, UInt64.toNat_zero] at hmet
    omega
  · have hmet : (c.time.met ⟨c.time.nanos, 18446744073709551615, ""⟩).IsExhausted := by
      have hlimit : (18446744073709551615 : UInt64).toNat = 2 ^ 64 - 1 := by decide
      have := c.time.counter.toNat_lt
      have hmax : c.time.counter.toNat.max (2 ^ 64 - 1) = 2 ^ 64 - 1 := Nat.max_eq_right (by omega)
      rw [Timestamp.met, if_pos rfl, Timestamp.IsExhausted, Timestamp.toNat_raise, hlimit, hmax]
      norm_num
    rw [← observe_epoch_congr h hc hd, Timestamp.met, if_neg hlt.ne', if_pos hlt] at hmet
    exact hx hmet

theorem counter_eq_of_outcomes_eq (hc : 0 ≤ c.time.nanos) (hd : 0 ≤ d.time.nanos) :
    d.time.counter.toNat = c.time.counter.toNat := by
  induction hn : 2 ^ 64 - c.time.counter.toNat using Nat.strong_induction_on generalizing c d with
  | _ n ih =>
    have hx := isExhausted_congr h hc hd
    by_cases hxc : c.time.IsExhausted
    · exact Nat.succ.inj ((hx.mpr hxc).trans hxc.symm)
    have hxd : ¬ d.time.IsExhausted := fun hxd => hxc (hx.mp hxd)
    have hlt := Timestamp.lt_of_not_isExhausted hxc
    have hc' : (c.use (.stamp 0)).2.time = { c.time with counter := c.time.counter + 1 } := by
      rw [use, (stamp_epoch hc).2, Timestamp.increment_of_not_isExhausted hxc]
    have hd' : (d.use (.stamp 0)).2.time = { d.time with counter := d.time.counter + 1 } := by
      rw [use, (stamp_epoch hd).2, Timestamp.increment_of_not_isExhausted hxd]
    have hrest := ih (2 ^ 64 - (c.use (.stamp 0)).2.time.counter.toNat)
      (by rw [hc', Timestamp.toNat_counter_succ hxc]; omega)
      (outcomes_eq_after h (.stamp 0)) (by rw [hc']; exact hc) (by rw [hd']; exact hd) rfl
    rw [hc', hd', Timestamp.toNat_counter_succ hxc, Timestamp.toNat_counter_succ hxd] at hrest
    exact Nat.succ.inj hrest

theorem nonneg_of_outcomes_eq (hd : 0 ≤ d.time.nanos) : 0 ≤ c.time.nanos := by
  by_contra hc
  rw [not_le] at hc
  have hstamp : (d.stamp 0).1 = (c.stamp 0).1 :=
    Outcome.stamped.inj (use_eq_of_outcomes_eq h (.stamp 0))
  have hanew : (c.stamp 0).1 = .ok (Timestamp.text ⟨0, 0, c.time.node⟩) := by
    rw [stamp, Timestamp.advance, Timestamp.now_zero, if_pos hc]
    rfl
  rw [hanew] at hstamp
  by_cases hx : d.time.IsExhausted
  · rw [(stamp_epoch hd).1.mpr hx] at hstamp
    cases hstamp
  -- the other one has counted up, so that its stamp does not say zero
  have hcounted : (d.stamp 0).2.time.counter = d.time.counter + 1 := by
    rw [(stamp_epoch hd).2, Timestamp.increment_of_not_isExhausted hx]
  have hzero : (d.stamp 0).2.time.counter = 0 :=
    Timestamp.counter_eq_of_text_eq (eq_text_of_stamp hstamp).symm
      (show (0 : Int).toNat / 1000000 < UInt64.size by decide)
  have := Timestamp.toNat_counter_succ hx
  rw [← hcounted, hzero, UInt64.toNat_zero] at this
  omega

end Outcomes

/-- Two clocks of one node, not before the epoch, are the same if no later use tells them apart. -/
theorem eq_of_outcomes_eq (hn : d.time.node = c.time.node) (hdrift : d.maxDrift = c.maxDrift)
    (hd : 0 ≤ d.time.nanos) (h : ∀ later, d.outcomes later = c.outcomes later) : d = c := by
  have hc := nonneg_of_outcomes_eq h hd
  have hnanos : d.time.nanos = c.time.nanos :=
    (nanos_le_of_outcomes_eq h hc hd).antisymm (nanos_le_of_outcomes_eq (fun l => (h l).symm) hd hc)
  have hcounter := UInt64.toNat_inj.mp (counter_eq_of_outcomes_eq h hc hd)
  obtain ⟨⟨dm, dk, dn⟩, dd⟩ := d
  obtain ⟨⟨cm, ck, cn⟩, cd⟩ := c
  simp_all

/-- When a rejected use leaves no trace, in the clock and in what comes later. -/
theorem rejection_traceless_iff (c : Clock) (u : Use) (h : (c.use u).1.IsRejection) :
    ((c.use u).2 = c ↔ c.time.IsExhausted ∧ ¬ u.IsAhead c) ∧
      ((∀ later, (c.use u).2.outcomes later = c.outcomes later) ↔
        c.time.IsExhausted ∧ ¬ u.IsAhead c) := by
  obtain ⟨hx, hs⟩ | ⟨hx, hd, hm⟩ := use_of_isRejection h
  · exact ⟨iff_of_true hs hx, iff_of_true (fun later => by rw [hs]) hx⟩
  · have hne : (c.use u).2 ≠ c := fun he => hd.ne (congrArg Clock.time he)
    have hnonneg := nonneg_of_isRejection h
    exact ⟨iff_of_false hne hx,
      iff_of_false (fun ho => hne (eq_of_outcomes_eq hd.1 hm hnonneg ho)) hx⟩

/-- A clock at its limit refuses a timestamp of an earlier time and stays as it is. -/
theorem exhausted_rejection_traceless :
    let c : Clock := ⟨⟨5, 18446744073709551615, "a"⟩, defaultMaxDrift⟩
    let u : Use := .observe ⟨4, 7, "b"⟩ 5
    (c.use u).1.IsRejection ∧ (c.use u).2 = c ∧
      ∀ later, (c.use u).2.outcomes later = c.outcomes later := by
  intro c u
  have h : (c.use u).1.IsRejection := ⟨.overflow, by decide⟩
  have hx : c.time.IsExhausted ∧ ¬ u.IsAhead c := ⟨by decide, (by decide : ¬ (5 : Int) < 4)⟩
  obtain ⟨hs, ho⟩ := rejection_traceless_iff c u h
  exact ⟨h, hs.mpr hx, ho.mpr hx⟩

/-- A timestamp two minutes ahead is refused, and stops the clock from stamping anything. -/
theorem drift_rejection_leaves_trace :
    let c : Clock := ⟨.ofMillis 0 0 "a", defaultMaxDrift⟩
    let u : Use := .observe (.ofMillis 120000 0 "b") 0
    (c.use u).1.IsRejection ∧ (c.use u).2.time = .ofMillis 120000 1 "a" ∧
      c.outcomes [.stamp 1000000] = [.stamped (.ok "000000000000001:00000:a")] ∧
      (c.use u).2.outcomes [.stamp 1000000] = [.stamped (.error (.drift defaultMaxDrift))] := by
  refine ⟨⟨.drift defaultMaxDrift, ?_⟩, ?_, ?_, ?_⟩ <;> decide

end Clock

end CommandBus
