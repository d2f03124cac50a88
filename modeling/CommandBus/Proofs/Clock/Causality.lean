import CommandBus.Proofs.Clock.Encoding
import CommandBus.Proofs.Clock.Rejection
import Mathlib

namespace CommandBus

namespace Timestamp

variable {t other : Timestamp} {wall : Int} {max : Duration}

def position (t : Timestamp) : Int ×ₗ Nat :=
  toLex (t.nanos, t.counter.toNat)

theorem position_lt_of_nanos (h : t.nanos < other.nanos) : t.position < other.position :=
  Prod.Lex.toLex_lt_toLex.mpr (.inl h)

theorem position_lt_of_counter (h : t.nanos = other.nanos)
    (hc : t.counter.toNat < other.counter.toNat) : t.position < other.position :=
  Prod.Lex.toLex_lt_toLex.mpr (.inr ⟨h, hc⟩)

theorem position_le_of_counter (h : t.nanos = other.nanos)
    (hc : t.counter.toNat ≤ other.counter.toNat) : t.position ≤ other.position :=
  Prod.Lex.toLex_le_toLex.mpr (.inr ⟨h, hc⟩)

theorem increment_cases (t : Timestamp) :
    (t.increment.1 = .ok () ∧ t.position < t.increment.2.position) ∨
      t.increment.1 = .error .overflow ∧ t.increment.2 = t := by
  by_cases h : t.IsExhausted
  · rw [increment_of_isExhausted h]
    exact .inr ⟨rfl, rfl⟩
  · rw [increment_of_not_isExhausted h]
    refine .inl ⟨rfl, position_lt_of_counter rfl ?_⟩
    rw [toNat_counter_succ h]
    exact Nat.lt_succ_self _

theorem ok_of_settle {r : Except ClockError Unit × Timestamp}
    (h : (settle wall max r).1 = .ok ()) : r.1 = .ok () := by
  obtain ⟨e | ⟨⟩, t⟩ := r
  · cases h
  · rfl

/-- A timestamp moves from `low` on: nowhere if that is rejected at once, and further if it is
accepted in the end. -/
structure Rises (low : Int ×ₗ Nat) (r : Except ClockError Unit × Timestamp) : Prop where
  le : low ≤ r.2.position
  lt : r.1 = .ok () → low < r.2.position

theorem rises_increment (t : Timestamp) : Rises t.position t.increment := by
  obtain ⟨-, h⟩ | ⟨he, h⟩ := increment_cases t
  · exact ⟨h.le, fun _ => h⟩
  · refine ⟨(congrArg position h).ge, fun hok => ?_⟩
    rw [he] at hok
    cases hok

namespace Rises

variable {low low' : Int ×ₗ Nat} {r : Except ClockError Unit × Timestamp}

theorem of_lt {u : Timestamp} (h : low < u.position) : Rises low (.ok (), u) :=
  ⟨h.le, fun _ => h⟩

theorem mono (hle : low' ≤ low) (h : Rises low r) : Rises low' r :=
  ⟨hle.trans h.le, fun hok => hle.trans_lt (h.lt hok)⟩

theorem settle (h : Rises low r) : Rises low (settle wall max r) := by
  refine ⟨?_, fun hok => ?_⟩ <;> rw [settle_snd]
  · exact h.le
  · exact h.lt (ok_of_settle hok)

end Rises

theorem rises_advance (t : Timestamp) (wall : Int) (max : Duration) :
    Rises t.position (t.advance wall max) := by
  rw [advance]
  refine Rises.settle ?_
  split
  next h => exact .of_lt (position_lt_of_nanos h)
  next => exact rises_increment t

theorem rises_advancePast (t other : Timestamp) (wall : Int) (max : Duration) :
    Rises (Max.max t.position other.position) (t.advancePast other wall max) := by
  rw [advancePast]
  refine Rises.settle ?_
  split
  next h =>
    exact .of_lt (max_lt (position_lt_of_nanos h.1) (position_lt_of_nanos h.2))
  split
  next heq =>
    refine .mono (max_le ?_ ?_) (rises_increment _)
    · refine position_le_of_counter rfl ?_
      rw [toNat_raise]
      exact Nat.le_max_left ..
    · refine position_le_of_counter heq.symm ?_
      rw [toNat_raise]
      exact Nat.le_max_right ..
  split
  next hlt => exact .mono (max_le le_rfl (position_lt_of_nanos hlt).le) (rises_increment t)
  next heq hge =>
    have hlt : t.nanos < other.nanos := lt_of_le_of_ne (not_lt.mp hge) heq
    exact .mono (max_le (position_lt_of_nanos hlt).le (position_le_of_counter rfl le_rfl))
      (rises_increment { t with nanos := other.nanos, counter := other.counter })

/-- A time that a text can tell: in whole milliseconds, and not before the epoch. -/
def IsWhole (t : Timestamp) : Prop := ∃ millis : Nat, t.nanos = millis * 1000000

/-- What its text tells of a timestamp. -/
def told (t : Timestamp) : Timestamp :=
  .ofMillis t.millis t.counter t.node

theorem isWhole_now (wall : Int) (counter : UInt64) (node : String) :
    IsWhole ⟨now wall, counter, node⟩ :=
  ⟨_, rfl⟩

theorem IsWhole.increment (h : t.IsWhole) : t.increment.2.IsWhole := by
  rwa [IsWhole, nanos_increment]

theorem IsWhole.advance (h : t.IsWhole) : (t.advance wall max).2.IsWhole := by
  rw [Timestamp.advance, settle_snd]
  split
  next => exact isWhole_now ..
  next => exact h.increment

theorem IsWhole.advancePast (h : t.IsWhole) (ho : other.IsWhole) :
    (t.advancePast other wall max).2.IsWhole := by
  by_cases hw : t.nanos < Timestamp.now wall ∧ other.nanos < Timestamp.now wall
  · rw [Timestamp.advancePast, settle_snd, if_pos hw]
    exact isWhole_now ..
  · rw [advancePast_of_le (by omega), settle_snd]
    refine IsWhole.increment ?_
    rw [IsWhole, nanos_met]
    obtain hmax | hmax := max_choice t.nanos other.nanos
    · rwa [hmax]
    · rwa [hmax]

end Timestamp

namespace Clock

variable {c : Clock}

/-- What a clock has accepted: it has stamped something, or moved past what it observed. -/
inductive Event
  | stamped (clock : Nat) (text : String) (time : Timestamp)
  | observed (clock : Nat) (other time : Timestamp)

namespace Event

def clock : Event → Nat
  | stamped clock .. | observed clock .. => clock

def time : Event → Timestamp
  | stamped _ _ time | observed _ _ time => time

/-- A stamp is the text of the time, and an observed timestamp lies before it. -/
def IsSound : Event → Prop
  | stamped _ text time => text = time.text
  | observed _ other time => other.position < time.position

/-- What is stamped is sent with a message, and whoever receives that observes it. -/
def Reaches : Event → Event → Prop
  | stamped _ _ time, observed _ other _ => other = time
  | _, _ => False

end Event

def accepted (k : Nat) (c : Clock) : Use → List Event
  | .stamp wall =>
    match c.stamp wall with
    | (.ok text, c) => [.stamped k text c.time]
    | (.error _, _) => []
  | .observe other wall =>
    match c.observe other wall with
    | (.ok (), c) => [.observed k other c.time]
    | (.error _, _) => []

def Use.IsWhole : Use → Prop
  | .stamp _ => True
  | .observe other _ => other.IsWhole

theorem isWhole_use {u : Use} (h : c.time.IsWhole) (hu : u.IsWhole) :
    (c.use u).2.time.IsWhole := by
  cases u with
  | stamp => exact h.advance
  | observe => exact h.advancePast hu

theorem position_le_use (c : Clock) (u : Use) : c.time.position ≤ (c.use u).2.time.position := by
  cases u with
  | stamp wall => exact (Timestamp.rises_advance c.time wall c.maxDrift).le
  | observe other wall =>
    exact (le_max_left ..).trans (Timestamp.rises_advancePast c.time other wall c.maxDrift).le

theorem of_mem_accepted {k : Nat} {u : Use} {e : Event} (h : e ∈ accepted k c u) :
    e.clock = k ∧ e.time = (c.use u).2.time ∧ c.time.position < e.time.position ∧ e.IsSound := by
  cases u with
  | stamp wall =>
    have hrises := Timestamp.rises_advance c.time wall c.maxDrift
    simp only [accepted, use, stamp] at h ⊢
    generalize c.time.advance wall c.maxDrift = r at h hrises
    obtain ⟨e' | ⟨⟩, t⟩ := r
    · cases h
    · obtain rfl := List.mem_singleton.mp h
      exact ⟨rfl, rfl, hrises.lt rfl, rfl⟩
  | observe other wall =>
    have hrises := Timestamp.rises_advancePast c.time other wall c.maxDrift
    simp only [accepted, use, observe] at h ⊢
    generalize c.time.advancePast other wall c.maxDrift = r at h hrises
    obtain ⟨e' | ⟨⟩, t⟩ := r
    · cases h
    · obtain rfl := List.mem_singleton.mp h
      obtain ⟨hself, hother⟩ := max_lt_iff.mp (hrises.lt rfl)
      exact ⟨rfl, rfl, hself, hother⟩

/-- Clocks, and all that they have accepted, in the order in which they did. -/
structure Ensemble where
  clocks : List Clock := []
  events : List Event := []

namespace Ensemble

variable {s s' : Ensemble} {d e : Event} {i j : Nat} {IsAllowed : Use → Prop}

/-- A clock is started, or used in a way that is allowed: to stamp a message, or for a timestamp
wherever it comes from. -/
inductive Step (IsAllowed : Use → Prop) (s : Ensemble) : Ensemble → Prop
  | start (node : String) (wall : Int) (maxDrift : Duration) :
    Step IsAllowed s { s with clocks := s.clocks ++ [.start node wall maxDrift] }
  | use {k : Nat} {c : Clock} (hc : s.clocks[k]? = some c) (u : Use) (hu : IsAllowed u) :
    Step IsAllowed s
      { clocks := s.clocks.set k (c.use u).2, events := s.events ++ accepted k c u }

def Run (IsAllowed : Use → Prop) : Ensemble → Ensemble → Prop :=
  Relation.ReflTransGen (Step IsAllowed)

/-- Each clock has moved on with each of its events, and has not fallen back since. -/
structure Ordered (s : Ensemble) : Prop where
  sound : ∀ e ∈ s.events, e.IsSound
  rising : s.events.Pairwise fun d e => d.clock = e.clock → d.time.position < e.time.position
  current : ∀ e ∈ s.events, ∃ c, s.clocks[e.clock]? = some c ∧ e.time.position ≤ c.time.position

theorem Ordered.start (h : s.Ordered) (c : Clock) :
    Ordered { s with clocks := s.clocks ++ [c] } := by
  refine ⟨h.sound, h.rising, fun e he => ?_⟩
  obtain ⟨c', hc', hle⟩ := h.current e he
  obtain ⟨hlt, -⟩ := List.getElem?_eq_some_iff.mp hc'
  exact ⟨c', (List.getElem?_append_left hlt).trans hc', hle⟩

theorem Ordered.use (h : s.Ordered) {k : Nat} {c : Clock} (hc : s.clocks[k]? = some c) (u : Use) :
    Ordered { clocks := s.clocks.set k (c.use u).2, events := s.events ++ accepted k c u } := by
  obtain ⟨hlt, -⟩ := List.getElem?_eq_some_iff.mp hc
  have hself : (s.clocks.set k (c.use u).2)[k]? = some (c.use u).2 := by simp [hlt]
  constructor
  case sound =>
    intro e he
    obtain he | he := List.mem_append.mp he
    · exact h.sound e he
    · exact (of_mem_accepted he).2.2.2
  case rising =>
    refine List.pairwise_append.mpr ⟨h.rising, ?_, fun d hd e he hde => ?_⟩
    · cases u <;> simp only [accepted] <;> split <;> simp
    · -- what the clock had before the use is between the two
      obtain ⟨rfl, -, hlt, -⟩ := of_mem_accepted he
      obtain ⟨c', hc', hle⟩ := h.current d hd
      rw [hde, hc, Option.some_inj] at hc'
      subst hc'
      exact hle.trans_lt hlt
  case current =>
    intro e he
    obtain he | he := List.mem_append.mp he
    · obtain ⟨c', hc', hle⟩ := h.current e he
      by_cases hk : k = e.clock
      · subst hk
        rw [hc, Option.some_inj] at hc'
        subst hc'
        exact ⟨_, hself, hle.trans (position_le_use c u)⟩
      · exact ⟨c', (List.getElem?_set_ne hk).trans hc', hle⟩
    · obtain ⟨rfl, htime, -, -⟩ := of_mem_accepted he
      exact ⟨_, hself, (congrArg Timestamp.position htime).le⟩

theorem Ordered.step (h : s.Ordered) (hs : s.Step IsAllowed s') : s'.Ordered := by
  cases hs with
  | start => exact h.start _
  | use hc u => exact h.use hc u

theorem Ordered.run (h : s.Ordered) (hr : s.Run IsAllowed s') : s'.Ordered := by
  induction hr with
  | refl => exact h
  | tail _ hs ih => exact ih.step hs

structure IsWhole (s : Ensemble) : Prop where
  clocks : ∀ c ∈ s.clocks, c.time.IsWhole
  events : ∀ e ∈ s.events, e.time.IsWhole

theorem IsWhole.step (hallowed : ∀ u, IsAllowed u → u.IsWhole) (h : s.IsWhole)
    (hs : s.Step IsAllowed s') : s'.IsWhole := by
  cases hs with
  | start node wall =>
    refine ⟨fun c hc => ?_, h.events⟩
    obtain hc | hc := List.mem_append.mp hc
    · exact h.clocks c hc
    · obtain rfl := List.mem_singleton.mp hc
      exact Timestamp.isWhole_now ..
  | use hc u hu =>
    have hused := isWhole_use (h.clocks _ (List.mem_of_getElem? hc)) (hallowed u hu)
    refine ⟨fun c' hc' => ?_, fun e he => ?_⟩
    · obtain hc' | rfl := List.mem_or_eq_of_mem_set hc'
      · exact h.clocks c' hc'
      · exact hused
    · obtain he | he := List.mem_append.mp he
      · exact h.events e he
      · rwa [(of_mem_accepted he).2.1]

theorem IsWhole.run (hallowed : ∀ u, IsAllowed u → u.IsWhole) (h : s.IsWhole)
    (hr : s.Run IsAllowed s') : s'.IsWhole := by
  induction hr with
  | refl => exact h
  | tail _ hs ih => exact ih.step hallowed hs

/-- Two clocks, one of which has received what the other has stamped, and has stamped a reply; its
own wall clock is behind and stands still. -/
def replied : Ensemble where
  clocks := [⟨.ofMillis 5 1 "a", defaultMaxDrift⟩, ⟨.ofMillis 5 3 "b", defaultMaxDrift⟩]
  events := [
    .stamped 0 "000000000000005:00001:a" (.ofMillis 5 1 "a"),
    .observed 1 (.ofMillis 5 1 "a") (.ofMillis 5 2 "b"),
    .stamped 1 "000000000000005:00003:b" (.ofMillis 5 3 "b")]

end Ensemble

end Clock

end CommandBus
