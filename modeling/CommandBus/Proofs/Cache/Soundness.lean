import CommandBus.Proofs.Cache.Arising
import Mathlib

namespace CommandBus.Cache.State

variable {s : State} {key : EntryKey} {entry : Entry} {operations : List Operation}

/-- The operation comes to its end: if it stores a response, there is an instant at which reuse
would end. -/
def Returns (s : State) : Operation → Prop
  | .store now r _ o => s.storeHalts now r o = false
  | _ => True

def AllReturn : State → List Operation → Prop
  | _, [] => True
  | s, operation :: rest => s.Returns operation ∧ AllReturn (operation.apply s) rest

theorem allReturn_append {later : List Operation} :
    s.AllReturn (operations ++ later) ↔
      s.AllReturn operations ∧ (s.run operations).AllReturn later := by
  induction operations generalizing s with
  | nil => exact (iff_of_eq (true_and _)).symm
  | cons operation rest ih =>
    exact (and_congr_right fun _ => ih).trans and_assoc.symm

theorem WellFormed.not_stranded_of_arises (hs : s.WellFormed) {operation : Operation}
    (h : ∀ {k other}, s.entries.get? k = some other → ¬other.IsStranded)
    (hr : s.Returns operation) (hg : (operation.apply s).entries.get? key = some entry) :
    ¬entry.IsStranded := by
  rintro ⟨hp, hx⟩
  cases hs.arises hg with
  | kept ho => exact h ho ⟨hp, hx⟩
  | registered => cases hp
  | completed => cases hx
  | stranded he hpending hover =>
    simp [Returns, storeHalts, he, hpending, hover] at hr
  | moved => cases hx

theorem WellFormed.not_stranded_run (hs : s.WellFormed)
    (h : ∀ {k other}, s.entries.get? k = some other → ¬other.IsStranded)
    (hr : s.AllReturn operations) (hg : (s.run operations).entries.get? key = some entry) :
    ¬entry.IsStranded := by
  induction operations generalizing s with
  | nil => exact h hg
  | cons operation rest ih =>
    exact ih (hs.apply operation) (fun ho => hs.not_stranded_of_arises h hr.1 ho) hr.2 hg

theorem Sound.idle_of_arises (hs : s.Sound) {operation : Operation}
    (h : ∀ {k other}, s.entries.get? k = some other → other.IsStranded →
      other.benefit = none ∧ other.deferred = none)
    (hg : (operation.apply s).entries.get? key = some entry) (hst : entry.IsStranded) :
    entry.benefit = none ∧ entry.deferred = none := by
  have hw := hs.agrees.wellFormed
  obtain ⟨hp, hx⟩ := hst
  cases hw.arises hg with
  | kept ho => exact h ho ⟨hp, hx⟩
  | registered => cases hp
  | completed => cases hx
  | stranded he hpending =>
    have ho := (hw.entry?_eq_some.mp he).1
    exact ⟨(hw.unscheduled ho hpending).1, (hs.agrees.pending ho hpending).2⟩
  | moved => cases hx

theorem Sound.idle_run (hs : s.Sound)
    (h : ∀ {k other}, s.entries.get? k = some other → other.IsStranded →
      other.benefit = none ∧ other.deferred = none)
    (hg : (s.run operations).entries.get? key = some entry) (hst : entry.IsStranded) :
    entry.benefit = none ∧ entry.deferred = none := by
  induction operations generalizing s with
  | nil => exact h hg hst
  | cons operation rest ih =>
    exact ih (hs.apply operation).1 (fun ho => hs.idle_of_arises h ho) hg

def liveElements (s : State) (key : EntryKey) (window : Window) : List (Nat × EntryKey) :=
  (s.elementsOf key window).filter (s.isLive window)

structure Coherent (s : State) : Prop where
  keys_nodup : (s.entries.entries.map Prod.fst).Nodup
  correlations_nodup : (s.byCorrelation.map Prod.fst).Nodup
  contents_nodup : (s.byContent.map Prod.fst).Nodup
  /-- Correlations lead to exactly the entries that have them. -/
  key?_iff : ∀ c key, s.key? c = some key ↔
    ∃ entry, s.entries.get? key = some entry ∧ entry.correlation = c
  /-- Contents lead to entries that have them, and tell whether those are pending. -/
  reuse : ∀ {content reuse}, (content, reuse) ∈ s.byContent →
    ∃ entry, s.entries.get? reuse.key = some entry ∧ entry.content = some content ∧
      (¬entry.IsStranded → (reuse.endsAt = none ↔ entry.isPending = true))
  pending : ∀ {key entry}, s.entries.get? key = some entry → entry.isPending = true →
    entry.size = 0 ∧ entry.expiry = none ∧ entry.benefit = none ∧ entry.deferred = none
  /-- An entry that has its response is scheduled once, where and when it says. -/
  stored : ∀ {key entry}, s.entries.get? key = some entry → entry.isPending = false →
    ¬entry.IsStranded → ∃ window time, entry.expiry = some (window, time) ∧
      ∀ w, s.liveElements key w = if w = window then [(time, key)] else []
  /-- One that is stranded is scheduled for nothing. -/
  stranded : ∀ {key entry}, s.entries.get? key = some entry → entry.IsStranded →
    entry.benefit = none ∧ entry.deferred = none ∧ ∀ w, s.liveElements key w = []
  /-- An entry that may be evicted waits for that, if its benefit is a number. -/
  evictable : ∀ {key entry b}, s.entries.get? key = some entry → entry.benefit = some b →
    b.isNaN = false → (b, key) ∈ s.benefitQueue
  totalSize_eq : s.totalSize = (s.entries.entries.map fun e => e.2.size).sum

theorem Agrees.liveElements_eq (h : s.Agrees) (hg : s.entries.get? key = some entry)
    (window : Window) : s.liveElements key window = entry.elements key window := by
  have hall : s.liveElements key window = s.elementsOf key window :=
    List.filter_eq_self.mpr fun element hm =>
      h.isLive_of_mem hg (List.mem_filter.mp hm).1 (by simpa using (List.mem_filter.mp hm).2)
  have hperm := h.elements_perm hg window
  rw [hall]
  unfold Entry.elements at hperm ⊢
  split at hperm
  · split at hperm
    next hw => rw [if_pos hw, hperm.eq_singleton]
    next hw => rw [if_neg hw, hperm.eq_nil]
  · exact hperm.eq_nil

theorem Sound.isCoherent (h : s.Sound)
    (hidle : ∀ {k other}, s.entries.get? k = some other → other.IsStranded →
      other.benefit = none ∧ other.deferred = none) : s.Coherent := by
  have hc := h.agrees
  have hw := hc.wellFormed
  refine ⟨hc.keys_nodup, hc.correlations_nodup, hc.contents_nodup, hw.key?_iff, fun hm => ?_,
    fun hg hp => ?_, fun {key entry} hg hp hn => ?_, fun {key entry} hg hst => ?_, h.covers,
    hc.totalSize_eq⟩
  · obtain ⟨entry, hg, hcontent, hpending, hset⟩ := hc.exists_entry hm
    refine ⟨entry, hg, hcontent, fun hn => ⟨fun hends => ?_, hpending⟩⟩
    by_contra hp
    exact hset (fun hx => hn ⟨by simpa using hp, hx⟩) hends
  · obtain ⟨hsize, hdeferred⟩ := hc.pending hg hp
    obtain ⟨hbenefit, hexpiry⟩ := hw.unscheduled hg hp
    exact ⟨hsize, hexpiry, hbenefit, hdeferred⟩
  · obtain ⟨⟨window, time⟩, hx⟩ := Option.ne_none_iff_exists'.mp fun hx => hn ⟨hp, hx⟩
    refine ⟨window, time, hx, fun w => ?_⟩
    rw [hc.liveElements_eq hg, Entry.elements, hx]
    simp only [eq_comm]
  · obtain ⟨hbenefit, hdeferred⟩ := hidle hg hst
    refine ⟨hbenefit, hdeferred, fun w => ?_⟩
    rw [hc.liveElements_eq hg, Entry.elements, hst.2]

theorem not_isStranded_run (config : Config) {operations : List Operation}
    (hr : ({ config } : State).AllReturn operations) {key : EntryKey} {entry : Entry}
    (hg : (({ config } : State).run operations).entries.get? key = some entry) :
    ¬entry.IsStranded :=
  (Sound.empty config).agrees.wellFormed.not_stranded_run
    (fun ho => by simp [Slots.get?] at ho) hr hg

/-- In every run of a cache its collections stay coherent, and no operation comes to a fault. Only
a store that breaks off leaves a stranded entry. -/
theorem run_coherent (config : Config) (operations : List Operation) :
    (({ config } : State).run operations).Coherent ∧
      ({ config } : State).runChecked operations = .ok (({ config } : State).run operations) ∧
      (({ config } : State).AllReturn operations → ∀ key entry,
        (({ config } : State).run operations).entries.get? key = some entry →
          ¬entry.IsStranded) := by
  have hsound := Sound.empty config
  obtain ⟨hrun, hchecked⟩ := hsound.run operations
  have hnone : ∀ {k other}, ({ config } : State).entries.get? k ≠ some other := by
    simp [Slots.get?]
  refine ⟨hrun.isCoherent fun hg => hsound.idle_run (fun ho => absurd ho hnone) hg, hchecked,
    fun hr key entry hg => not_isStranded_run config hr hg⟩

/-- A benefit that is not a number differs from itself. Trimming takes its element from the queue,
and the entry, which may be evicted, stays in a cache that has room for none. -/
theorem nan_benefit_loses_element :
    let r : CommandRequest := ⟨"cmd", "inv", "t", [1], []⟩
    let s := ({ config := { maxEntries := 0, unitBytes := 0, fixedMillis := 0 } } : State).run
      [.retrieve 0 r false false, .store 0 r { topic := "reply" } ⟨true, 10000, ⟨0⟩, 0⟩]
    s.isOver = true ∧ s.benefitQueue = [] ∧
      ∃ key entry b, s.entries.get? key = some entry ∧ entry.benefit = some b := by
  intro r s
  have hrun : s.isOver = true ∧ s.benefitQueue = [] ∧
      ((s.entries.get? ⟨0, 0⟩).bind Entry.benefit).isSome = true := by decide +kernel
  obtain ⟨hover, hqueue, hsome⟩ := hrun
  obtain ⟨b, hb⟩ := Option.isSome_iff_exists.mp hsome
  obtain ⟨entry, hg, hb⟩ := Option.bind_eq_some_iff.mp hb
  exact ⟨hover, hqueue, _, entry, b, hg, hb⟩

/-- A response whose reuse would end after the last instant is stored, and its entry, which nothing
is scheduled for, still passes for pending to equivalent requests. -/
theorem overrun_strands_entry :
    let r : CommandRequest := ⟨"cmd", "inv", "t", [1], []⟩
    let s := ({} : State).run
      [.retrieve 0 r true false, .store 0 r { topic := "reply" } ⟨true, 10, ⟨0⟩, 2 ^ 64 * 1000 - 1⟩]
    (∃ entry, s.entries.get? ⟨0, 0⟩ = some entry ∧ entry.IsStranded) ∧
      s.byContent = [(r.content false, ⟨⟨0, 0⟩, none⟩)] := by
  intro r s
  exact ⟨⟨_, rfl, rfl, rfl⟩, rfl⟩

end CommandBus.Cache.State
