import CommandBus.Proofs.Cache.Runs
import Mathlib

namespace CommandBus.Cache

/-- The entry has its response and waits in no queue. It is so between two steps of storing and of
expiry, and for good if storing breaks off. -/
def Entry.IsStranded (entry : Entry) : Prop :=
  entry.isPending = false ∧ entry.expiry = none

/-- The elements that an entry is to have in the queue of a window. -/
def Entry.elements (entry : Entry) (key : EntryKey) (window : Window) : List (Nat × EntryKey) :=
  match entry.expiry with
  | some (w, time) => if w = window then [(time, key)] else []
  | none => []

theorem insertBy_perm {α : Type} (le : α → α → Bool) (a : α) (l : List α) :
    (insertBy le a l).Perm (a :: l) := by
  induction l with
  | nil => exact .refl _
  | cons b rest ih =>
    unfold insertBy
    split
    · exact (ih.cons b).trans (.swap a b rest)
    · exact .refl _

theorem pairwise_insertBy {α : Type} {le : α → α → Bool} {R : α → α → Prop}
    (htrans : ∀ {a b c}, R a b → R b c → R a c) (hle : ∀ {a b}, le b a = true → R b a)
    (hgt : ∀ {a b}, le b a = false → R a b) (a : α) {l : List α} (h : l.Pairwise R) :
    (insertBy le a l).Pairwise R := by
  induction l with
  | nil => exact List.pairwise_singleton ..
  | cons front rest ih =>
    obtain ⟨hfront, hrest⟩ := List.pairwise_cons.mp h
    unfold insertBy
    split
    next hb =>
      refine List.pairwise_cons.mpr ⟨fun other hm => ?_, ih hrest⟩
      obtain rfl | hm := List.mem_cons.mp ((insertBy_perm ..).mem_iff.mp hm)
      · exact hle hb
      · exact hfront other hm
    next hb =>
      have hb := hgt (Bool.eq_false_iff.mpr hb)
      refine List.pairwise_cons.mpr ⟨fun other hm => ?_, h⟩
      obtain rfl | hm := List.mem_cons.mp hm
      · exact hb
      · exact htrans hb (hfront other hm)

theorem filter_dropWhile {α : Type} {p q : α → Bool} {l : List α}
    (h : ∀ a ∈ l, p a = true → q a = false) : (l.dropWhile q).filter p = l.filter p := by
  conv_rhs => rw [← List.takeWhile_append_dropWhile (p := q) (l := l), List.filter_append]
  have hfront : (l.takeWhile q).filter p = [] := by
    refine List.filter_eq_nil_iff.mpr fun a ha hp => ?_
    have hq := List.mem_takeWhile_imp ha
    rw [h a (List.takeWhile_subset q ha) hp] at hq
    cases hq
  rw [hfront, List.nil_append]

namespace State

variable {s s' : State} {key k : EntryKey} {entry : Entry}

/-- The elements in the queue of a window that belong to the entry of a key. -/
def elementsOf (s : State) (key : EntryKey) (window : Window) : List (Nat × EntryKey) :=
  (s.queue window).filter (·.2 = key)

theorem queue_register (s : State) (c : Correlation) (content : Option Content) (window : Window) :
    (s.register c content).queue window = s.queue window := by
  cases window <;> rfl

theorem mem_byContent_register {c : Correlation} {content : Option Content} {b : Content}
    {reuse : Reuse} : (b, reuse) ∈ (s.register c content).byContent ↔
      (b, reuse) ∈ s.byContent ∧ content ≠ some b ∨
        content = some b ∧ reuse = ⟨s.nextKey, none⟩ := by
  cases content with
  | none =>
    have he : (s.register c none).byContent = s.byContent := rfl
    simp [he]
  | some a =>
    have he : (s.register c (some a)).byContent =
        s.byContent.filter (·.1 != a) ++ [(a, ⟨s.nextKey, none⟩)] := rfl
    simp only [he, List.mem_append, List.mem_filter, List.mem_singleton, Prod.mk.injEq,
      bne_iff_ne, ne_eq, Option.some_inj, @eq_comm _ a b]

theorem mem_setReuseEnd {content : Option Content} {time : Nat} {b : Content} {reuse : Reuse} :
    (b, reuse) ∈ (s.setReuseEnd content key time).byContent ↔
      ∃ old, (b, old) ∈ s.byContent ∧
        reuse = if content = some b ∧ old.key = key then { old with endsAt := some time }
          else old := by
  simp only [setReuseEnd, List.mem_map]
  constructor
  · rintro ⟨⟨a, old⟩, hm, heq⟩
    dsimp only at heq
    split at heq <;> cases heq
    next hc => exact ⟨old, hm, (if_pos hc).symm⟩
    next hc => exact ⟨_, hm, (if_neg hc).symm⟩
  · rintro ⟨old, hm, rfl⟩
    refine ⟨(b, old), hm, ?_⟩
    dsimp only
    split <;> rfl

theorem contents_nodup_register (h : (s.byContent.map Prod.fst).Nodup) (c : Correlation)
    (content : Option Content) : ((s.register c content).byContent.map Prod.fst).Nodup := by
  cases content with
  | none => exact h
  | some a =>
    have he : (s.register c (some a)).byContent.map Prod.fst =
        (s.byContent.filter (·.1 != a)).map Prod.fst ++ [a] := List.map_append
    rw [he, ← List.concat_eq_append]
    refine (h.sublist (List.filter_sublist.map _)).concat fun hm => ?_
    obtain ⟨pair, hp, rfl⟩ := List.mem_map.mp hm
    simpa using (List.mem_filter.mp hp).2

theorem WellFormed.get?_nextKey (h : s.WellFormed) : s.entries.get? s.nextKey = none := by
  by_contra hne
  obtain ⟨entry, hg⟩ := Option.ne_none_iff_exists'.mp hne
  exact (h.serial_lt hg).ne h.serial_nextKey

theorem WellFormed.get?_register_cases (h : s.WellFormed) {c : Correlation}
    {content : Option Content} (hg : (s.register c content).entries.get? k = some entry) :
    k = s.nextKey ∧ entry = { correlation := c, content } ∨
      k ≠ s.nextKey ∧ s.entries.get? k = some entry := by
  rw [h.get?_register] at hg
  split at hg
  next hk => exact .inl ⟨hk, (Option.some_inj.mp hg).symm⟩
  next hk => exact .inr ⟨hk, hg⟩

theorem queue_remove (s : State) (key : EntryKey) (window : Window) :
    (s.remove key).queue window = s.queue window := by
  unfold State.remove
  split
  · rfl
  · split <;> cases window <;> rfl

theorem benefitQueue_remove (s : State) (key : EntryKey) :
    (s.remove key).benefitQueue = s.benefitQueue := by
  unfold State.remove
  split
  · rfl
  · split <;> rfl

theorem get?_remove_eq_some_iff (hg : s.entries.get? key = some entry) {other : Entry} :
    (s.remove key).entries.get? k = some other ↔ k ≠ key ∧ s.entries.get? k = some other := by
  rw [entries_remove hg, Slots.get?_remove]
  split <;> simp [*]

/-- The collections of a cache tell the same of its entries. Of a stranded one nothing is said of
the end of its reuse. -/
structure Agrees (s : State) : Prop where
  wellFormed : s.WellFormed
  keys_nodup : (s.entries.entries.map Prod.fst).Nodup
  correlations_nodup : (s.byCorrelation.map Prod.fst).Nodup
  contents_nodup : (s.byContent.map Prod.fst).Nodup
  exists_entry : ∀ {content reuse}, (content, reuse) ∈ s.byContent →
    ∃ entry, s.entries.get? reuse.key = some entry ∧ entry.content = some content ∧
      (entry.isPending = true → reuse.endsAt = none) ∧ (entry.expiry ≠ none → reuse.endsAt ≠ none)
  pending : ∀ {key entry}, s.entries.get? key = some entry → entry.isPending = true →
    entry.size = 0 ∧ entry.deferred = none
  elements_perm : ∀ {key entry}, s.entries.get? key = some entry → ∀ window,
    (s.elementsOf key window).Perm (entry.elements key window)
  serial_lt : ∀ {window element}, element ∈ s.queue window →
    element.2.serial < s.promises.length
  totalSize_eq : s.totalSize = (s.entries.entries.map fun e => e.2.size).sum

def Covers (s : State) (queue : List (Benefit × EntryKey)) : Prop :=
  ∀ {key entry b}, s.entries.get? key = some entry → entry.benefit = some b →
    b.isNaN = false → (b, key) ∈ queue

theorem Agrees.empty (config : Config) : Agrees { config } where
  wellFormed := .empty config
  keys_nodup := List.nodup_nil
  correlations_nodup := List.nodup_nil
  contents_nodup := List.nodup_nil
  exists_entry h := absurd h List.not_mem_nil
  pending h := by simp [Slots.get?] at h
  elements_perm h := by simp [Slots.get?] at h
  serial_lt {window _} h := by cases window <;> exact absurd h List.not_mem_nil
  totalSize_eq := rfl

theorem Covers.empty (config : Config) : Covers { config } [] := fun h => by
  simp [Slots.get?] at h

namespace Agrees

theorem isLive_of_mem (h : s.Agrees) (hg : s.entries.get? key = some entry)
    {window : Window} {element : Nat × EntryKey} (hm : element ∈ s.queue window)
    (hk : element.2 = key) : s.isLive window element = true := by
  have hmem : element ∈ s.elementsOf key window := List.mem_filter.mpr ⟨hm, by simpa using hk⟩
  have hmem' := (h.elements_perm hg window).mem_iff.mp hmem
  rw [isLive, hk, hg]
  unfold Entry.elements at hmem'
  split at hmem'
  next w time hx =>
    split at hmem'
    next hw =>
      obtain rfl := List.mem_singleton.mp hmem'
      simp [hx, hw]
    next => cases hmem'
  next => cases hmem'

theorem filter_liveQueue (h : s.Agrees) (hg : s.entries.get? key = some entry)
    (window : Window) : (s.liveQueue window).filter (·.2 = key) = s.elementsOf key window :=
  filter_dropWhile fun element hm hk => by
    rw [h.isLive_of_mem hg hm (by simpa using hk), Bool.not_true]

theorem requeue (h : s.Agrees) (he : s'.entries = s.entries)
    (hcorr : s'.byCorrelation = s.byCorrelation) (hcont : s'.byContent = s.byContent)
    (hp : s'.promises = s.promises) (ht : s'.totalSize = s.totalSize)
    (hmem : ∀ {window element}, element ∈ s'.queue window → element ∈ s.queue window)
    (helem : ∀ {key entry}, s.entries.get? key = some entry → ∀ window,
      s'.elementsOf key window = s.elementsOf key window) : s'.Agrees where
  wellFormed := h.wellFormed.congr he hcorr hp
  keys_nodup := he ▸ h.keys_nodup
  correlations_nodup := hcorr ▸ h.correlations_nodup
  contents_nodup := hcont ▸ h.contents_nodup
  exists_entry hm := he ▸ h.exists_entry (hcont ▸ hm)
  pending hg := h.pending (he ▸ hg)
  elements_perm hg window := by
    rw [helem (he ▸ hg)]
    exact h.elements_perm (he ▸ hg) window
  serial_lt hm := hp ▸ h.serial_lt (hmem hm)
  totalSize_eq := by rw [ht, he, h.totalSize_eq]

theorem congr_queues (h : s.Agrees) (he : s'.entries = s.entries)
    (hcorr : s'.byCorrelation = s.byCorrelation) (hcont : s'.byContent = s.byContent)
    (hp : s'.promises = s.promises) (ht : s'.totalSize = s.totalSize)
    (hq : ∀ window, s'.queue window = s.queue window) : s'.Agrees :=
  h.requeue he hcorr hcont hp ht (fun {window _} hm => hq window ▸ hm)
    fun _ window => by rw [elementsOf, elementsOf, hq]

theorem dropStale (h : s.Agrees) : s.dropStale.Agrees := by
  have hq : ∀ window, s.dropStale.queue window = s.liveQueue window := fun window => by
    cases window <;> rfl
  refine h.requeue rfl rfl rfl rfl rfl (fun {window element} hm => ?_) fun hg window => ?_
  · rw [hq] at hm
    exact (List.dropWhile_suffix _).subset hm
  · rw [elementsOf, hq, h.filter_liveQueue hg]

theorem register (h : s.Agrees) {c : Correlation} (hc : s.key? c = none)
    (content : Option Content) : (s.register c content).Agrees := by
  have hw := h.wellFormed
  have hl := s.length_register c content
  refine ⟨(hw.changes_register hc content).wellFormed, ?_, ?_,
    contents_nodup_register h.contents_nodup c content, ?_, ?_, ?_, ?_, ?_⟩
  · have he : (s.register c content).entries.entries.map Prod.fst =
        s.entries.entries.map Prod.fst ++ [s.nextKey] := List.map_append
    rw [he, ← List.concat_eq_append]
    exact h.keys_nodup.concat (Association.notMem_keys_of_lookup hw.get?_nextKey)
  · have he : (s.register c content).byCorrelation.map Prod.fst =
        s.byCorrelation.map Prod.fst ++ [c] := List.map_append
    rw [he, ← List.concat_eq_append]
    exact h.correlations_nodup.concat (Association.notMem_keys_of_lookup hc)
  · intro b reuse hm
    obtain ⟨hm, -⟩ | ⟨rfl, rfl⟩ := mem_byContent_register.mp hm
    · obtain ⟨entry, hg, he⟩ := h.exists_entry hm
      have hne : reuse.key ≠ s.nextKey := fun hk => by
        rw [hk, hw.get?_nextKey] at hg
        cases hg
      exact ⟨entry, by rw [hw.get?_register, if_neg hne, hg], he⟩
    · exact ⟨_, by rw [hw.get?_register, if_pos rfl], rfl, fun _ => rfl, fun hx => absurd rfl hx⟩
  · intro k e hg hp
    obtain ⟨-, rfl⟩ | ⟨-, hg⟩ := hw.get?_register_cases hg
    · exact ⟨rfl, rfl⟩
    · exact h.pending hg hp
  · intro k e hg window
    rw [elementsOf, queue_register]
    obtain ⟨rfl, rfl⟩ | ⟨-, hg⟩ := hw.get?_register_cases hg
    · -- an element of the new entry would have the serial number of a promise there is
      have hnil : (s.queue window).filter (·.2 = s.nextKey) = [] := by
        refine List.filter_eq_nil_iff.mpr fun element hm hk => ?_
        have hlt := h.serial_lt hm
        rw [of_decide_eq_true hk, hw.serial_nextKey] at hlt
        exact hlt.false
      rw [hnil]
      exact .refl _
    · exact h.elements_perm hg window
  · intro window element hm
    rw [queue_register] at hm
    exact (h.serial_lt hm).trans (hl ▸ Nat.lt_succ_self _)
  · have he : (s.register c content).entries.entries =
        s.entries.entries ++ [(s.nextKey, { correlation := c, content })] := rfl
    have ht : (s.register c content).totalSize = s.totalSize := rfl
    rw [ht, he, List.map_append, List.sum_append, h.totalSize_eq]
    rfl

theorem remove (h : s.Agrees) (key : EntryKey) : (s.remove key).Agrees := by
  have hchanges := h.wellFormed.changes_remove key
  cases hg : s.entries.get? key with
  | none =>
    rw [remove_of_none hg]
    exact h
  | some entry =>
    have hget : ∀ {k other}, (s.remove key).entries.get? k = some other ↔
        k ≠ key ∧ s.entries.get? k = some other := get?_remove_eq_some_iff hg
    have hents : (s.remove key).entries.entries = s.entries.entries.filter (·.1 != key) := by
      rw [entries_remove hg]
      rfl
    obtain ⟨hcorr, hcont, htotal⟩ := remove_frame hg
    refine ⟨hchanges.wellFormed, ?_, ?_, ?_, ?_, fun ho => h.pending (hget.mp ho).2, ?_, ?_, ?_⟩
    · rw [hents]
      exact h.keys_nodup.sublist (List.filter_sublist.map _)
    · rw [hcorr]
      exact h.correlations_nodup.sublist (List.filter_sublist.map _)
    · rw [hcont]
      exact h.contents_nodup.sublist (List.filter_sublist.map _)
    · intro content reuse hm
      rw [hcont, List.mem_filter] at hm
      obtain ⟨other, ho, hc, hp⟩ := h.exists_entry hm.1
      -- the content of the removed entry does not lead to it any more
      have hk : reuse.key ≠ key := fun hk => by
        rw [hk, hg, Option.some_inj] at ho
        simp [ho, hc, hk] at hm
      exact ⟨other, hget.mpr ⟨hk, ho⟩, hc, hp⟩
    · intro k other ho window
      rw [elementsOf, queue_remove]
      exact h.elements_perm (hget.mp ho).2 window
    · intro window element hm
      rw [queue_remove] at hm
      exact (h.serial_lt hm).trans_le hchanges.length_le
    · have hsum := Association.sum_filter_ne h.keys_nodup hg Entry.size
      rw [htotal, hents, h.totalSize_eq]
      omega

theorem modify (h : s.Agrees) (hg : s.entries.get? key = some entry)
    {f : Entry → Entry} (hw : s'.WellFormed) (he : s'.entries = s.entries.modify key f)
    (hcorr : s'.byCorrelation = s.byCorrelation) (hcont : s'.byContent = s.byContent)
    (hl : s'.promises.length = s.promises.length)
    (hfc : (f entry).content = entry.content) (hfp : (f entry).isPending = false)
    (hends : (f entry).expiry ≠ none → ∀ {content reuse}, (content, reuse) ∈ s.byContent →
      reuse.key = key → reuse.endsAt ≠ none)
    (helem : ∀ window, (s'.elementsOf key window).Perm ((f entry).elements key window))
    (helem' : ∀ {k other}, k ≠ key → s.entries.get? k = some other → ∀ window,
      (s'.elementsOf k window).Perm (s.elementsOf k window))
    (hserial : ∀ {window element}, element ∈ s'.queue window →
      element.2.serial < s.promises.length)
    (htotal : s'.totalSize + entry.size = s.totalSize + (f entry).size) :
    s'.Agrees := by
  have hget : ∀ k, s'.entries.get? k =
      if k = key then (s.entries.get? k).map f else s.entries.get? k := fun k => by
    rw [he, Slots.get?_modify]
  have hself : s'.entries.get? key = some (f entry) := by
    rw [hget, if_pos rfl, hg, Option.map_some]
  have hcases : ∀ {k other}, s'.entries.get? k = some other →
      k = key ∧ other = f entry ∨ k ≠ key ∧ s.entries.get? k = some other := by
    intro k other ho
    by_cases hk : k = key
    · subst hk
      exact .inl ⟨rfl, Option.some_inj.mp (ho.symm.trans hself)⟩
    · rw [hget, if_neg hk] at ho
      exact .inr ⟨hk, ho⟩
  have hents : s'.entries.entries =
      s.entries.entries.map fun e => (e.1, if e.1 = key then f e.2 else e.2) := by
    rw [he]
    rfl
  refine ⟨hw, ?_, hcorr ▸ h.correlations_nodup, hcont ▸ h.contents_nodup, ?_, ?_, ?_, ?_, ?_⟩
  · rw [hents, List.map_map]
    exact h.keys_nodup
  · intro content reuse hm
    rw [hcont] at hm
    obtain ⟨other, ho, hc, hp⟩ := h.exists_entry hm
    by_cases hk : reuse.key = key
    · rw [hk, hg, Option.some_inj] at ho
      subst ho
      refine ⟨f entry, hk ▸ hself, hfc.trans hc, fun hpend => ?_, fun hx => hends hx hm hk⟩
      rw [hfp] at hpend
      cases hpend
    · exact ⟨other, by rw [hget, if_neg hk, ho], hc, hp⟩
  · intro k other ho hp
    obtain ⟨-, rfl⟩ | ⟨-, ho⟩ := hcases ho
    · rw [hfp] at hp
      cases hp
    · exact h.pending ho hp
  · intro k other ho window
    obtain ⟨rfl, rfl⟩ | ⟨hk, ho⟩ := hcases ho
    · exact helem window
    · exact (helem' hk ho window).trans (h.elements_perm ho window)
  · exact fun hm => hl ▸ hserial hm
  · have hsum := Association.sum_map_value h.keys_nodup hg f Entry.size
    rw [hents]
    rw [h.totalSize_eq] at htotal
    omega

theorem complete (h : s.Agrees) (hg : s.entries.get? key = some entry)
    (hp : entry.isPending = true) (response : Message) (size : Nat) (o : StoreOptions) :
    (s.complete key response size o).Agrees := by
  have hq : ∀ window, (s.complete key response size o).queue window = s.queue window :=
    fun window => by cases window <;> rfl
  have helem : ∀ k window, (s.complete key response size o).elementsOf k window =
      s.elementsOf k window := fun k window => by rw [elementsOf, hq, elementsOf]
  refine h.modify (f := fun e => { e with isPending := false, size, isMandatory := !o.isIdempotent })
    hg (h.wellFormed.changes_completed hg response size o).wellFormed rfl rfl rfl
    (length_settle ..) rfl rfl (fun hx => absurd (h.wellFormed.unscheduled hg hp).2 hx)
    (fun window => ?_) (fun {k _} _ _ window => ?_) (fun {window element} hm => ?_) ?_
  · rw [helem]
    exact h.elements_perm hg window
  · rw [helem]
  · exact h.serial_lt (show element ∈ s.queue window from hq window ▸ hm)
  · have ht : (s.complete key response size o).totalSize = s.totalSize + size := rfl
    rw [ht, (h.pending hg hp).1, Nat.add_zero]

theorem setReuseEnd (h : s.Agrees) (hg : s.entries.get? key = some entry)
    (hn : entry.isPending = false) (content : Option Content) (time : Nat) :
    (s.setReuseEnd content key time).Agrees := by
  have hkeys : (s.setReuseEnd content key time).byContent.map Prod.fst =
      s.byContent.map Prod.fst := by
    simp only [State.setReuseEnd, List.map_map]
    refine List.map_congr_left fun pair _ => ?_
    dsimp only [Function.comp_apply]
    split <;> rfl
  have hw : (s.setReuseEnd content key time).WellFormed := h.wellFormed.congr rfl rfl rfl
  refine { h with
    wellFormed := hw, contents_nodup := hkeys ▸ h.contents_nodup, exists_entry := fun hm => ?_ }
  obtain ⟨old, ho, rfl⟩ := mem_setReuseEnd.mp hm
  obtain ⟨other, hgo, hc, hp, hx⟩ := h.exists_entry ho
  split
  next hk =>
    rw [hk.2, hg, Option.some_inj] at hgo
    subst hgo
    exact ⟨entry, hk.2 ▸ hg, hc, fun hpend => by simp [hn] at hpend, fun _ => nofun⟩
  next => exact ⟨other, hgo, hc, hp, hx⟩

theorem endsAt_setReuseEnd (h : s.Agrees) (hg : s.entries.get? key = some entry)
    {time : Nat} {content : Content} {reuse : Reuse}
    (hm : (content, reuse) ∈ (s.setReuseEnd entry.content key time).byContent)
    (hk : reuse.key = key) : reuse.endsAt ≠ none := by
  obtain ⟨old, ho, rfl⟩ := mem_setReuseEnd.mp hm
  split
  next => exact nofun
  next hc =>
    rw [if_neg hc] at hk
    obtain ⟨other, hgo, hco, -⟩ := h.exists_entry ho
    rw [hk, hg, Option.some_inj] at hgo
    exact absurd ⟨hgo ▸ hco, hk⟩ hc

end Agrees

theorem queue_setQueue (s : State) (l : List (Nat × EntryKey)) (window w : Window) :
    (s.setQueue l window).queue w = if w = window then l else s.queue w := by
  cases window <;> cases w <;> rfl

theorem queue_schedule (hg : s.entries.get? key = some entry) (first : Retention)
    (deferred : Option Retention) (window : Window) :
    (s.schedule key first deferred).queue window =
      if window = first.window then insertBy timeLe (first.endsAt, key) (s.queue window)
      else s.queue window := by
  simp only [schedule, hg, queue_setQueue]
  cases hw : first.window <;> cases window <;> rfl

theorem queue_lapse (s : State) (key : EntryKey) (window : Window)
    (after : List (Nat × EntryKey)) (w : Window) :
    (s.lapse key window after).queue w = if w = window then after else s.queue w := by
  cases window <;> cases w <;> rfl

theorem schedule_frame (hg : s.entries.get? key = some entry) (first : Retention)
    (deferred : Option Retention) :
    (s.schedule key first deferred).byCorrelation = s.byCorrelation ∧
      (s.schedule key first deferred).byContent = s.byContent ∧
      (s.schedule key first deferred).promises = s.promises ∧
      (s.schedule key first deferred).totalSize = s.totalSize := by
  simp only [schedule, hg]
  cases first.window <;> exact ⟨rfl, rfl, rfl, rfl⟩

theorem lapse_frame (s : State) (key : EntryKey) (window : Window)
    (after : List (Nat × EntryKey)) :
    (s.lapse key window after).byCorrelation = s.byCorrelation ∧
      (s.lapse key window after).byContent = s.byContent ∧
      (s.lapse key window after).promises = s.promises ∧
      (s.lapse key window after).totalSize = s.totalSize ∧
      (s.lapse key window after).benefitQueue = s.benefitQueue := by
  cases window <;> exact ⟨rfl, rfl, rfl, rfl, rfl⟩

namespace Agrees

theorem schedule (h : s.Agrees) (hg : s.entries.get? key = some entry)
    (hp : entry.isPending = false) (hx : entry.expiry = none)
    (hends : ∀ {content reuse}, (content, reuse) ∈ s.byContent → reuse.key = key →
      reuse.endsAt ≠ none) (first : Retention) (deferred : Option Retention) :
    (s.schedule key first deferred).Agrees := by
  obtain ⟨hcorr, hcont, hpromises, htotal⟩ := schedule_frame hg first deferred
  have hsc := h.wellFormed.changes_schedule
    (fun he => Option.some_inj.mp (hg.symm.trans he) ▸ hp) first deferred
  have hq := queue_schedule hg first deferred
  have hins : ∀ k window, ((insertBy timeLe (first.endsAt, key) (s.queue window)).filter
      (·.2 = k)).Perm (((first.endsAt, key) :: s.queue window).filter (·.2 = k)) :=
    fun k window => (insertBy_perm ..).filter _
  refine h.modify (f := fun e => { e with
      expiry := some (first.window, first.endsAt)
      benefit := if canEvict entry first deferred then some first.benefit else none
      deferred }) hg hsc.wellFormed (entries_schedule hg first deferred) hcorr hcont
    (by rw [hpromises]) rfl hp (fun _ {_ _} => hends) (fun window => ?_)
    (fun {k _} hk _ window => ?_) (fun {window element} hm => ?_) (by rw [htotal])
  · have hnil : s.elementsOf key window = [] := by
      have := h.elements_perm hg window
      rw [Entry.elements, hx] at this
      exact this.eq_nil
    rw [elementsOf, hq, Entry.elements]
    dsimp only
    by_cases hw : window = first.window
    · rw [if_pos hw, if_pos hw.symm]
      refine (hins key window).trans ?_
      rw [List.filter_cons_of_pos (by simp)]
      exact .of_eq (congrArg _ hnil)
    · rw [if_neg hw, if_neg (Ne.symm hw)]
      exact .of_eq hnil
  · rw [elementsOf, hq]
    split
    · refine (hins k window).trans ?_
      rw [List.filter_cons_of_neg (by simpa using Ne.symm hk)]
      exact .refl _
    · exact .refl _
  · rw [hq] at hm
    split at hm
    · obtain rfl | hm := List.mem_cons.mp ((insertBy_perm ..).mem_iff.mp hm)
      · exact h.wellFormed.serial_lt hg
      · exact h.serial_lt hm
    · exact h.serial_lt hm

theorem lapse (h : s.Agrees) (hg : s.entries.get? key = some entry)
    (hp : entry.isPending = false) {window : Window} {time : Nat}
    {after : List (Nat × EntryKey)} (hlive : s.liveQueue window = (time, key) :: after) :
    (s.lapse key window after).Agrees := by
  obtain ⟨hcorr, hcont, hpromises, htotal, -⟩ := s.lapse_frame key window after
  have hq := s.queue_lapse key window after
  have hsuffix : after ⊆ s.queue window := fun element hm =>
    (List.dropWhile_suffix _).subset (show element ∈ s.liveQueue window by
      rw [hlive]
      exact List.mem_cons_of_mem _ hm)
  -- no element of the entry is left in either queue
  have hself : ∀ w, (s.lapse key window after).elementsOf key w = [] := by
    obtain ⟨other, ho, hx⟩ := expiry_of_isLive (isLive_of_dropWhile hlive)
    obtain rfl := Option.some_inj.mp (hg.symm.trans ho)
    intro w
    have hperm := h.elements_perm hg w
    rw [Entry.elements, hx] at hperm
    dsimp only at hperm
    rw [elementsOf, hq]
    by_cases hw : w = window
    · rw [if_pos hw]
      rw [hw, if_pos rfl, ← h.filter_liveQueue hg, hlive,
        List.filter_cons_of_pos (by simp)] at hperm
      exact hperm.cons_inv.eq_nil
    · rw [if_neg hw]
      rw [if_neg (Ne.symm hw)] at hperm
      exact hperm.eq_nil
  refine h.modify (f := ({ · with expiry := none, deferred := none })) hg
    (h.wellFormed.changes_lapse hg hp window after).wellFormed (entries_lapse ..) hcorr hcont
    (by rw [hpromises]) rfl hp (fun hne => absurd rfl hne) (fun w => ?_)
    (fun {k other} hk ho w => ?_) (fun {w element} hm => ?_) (by rw [htotal])
  · rw [hself]
    exact .refl _
  · rw [elementsOf, hq]
    split
    next hw =>
      rw [hw, ← h.filter_liveQueue ho, hlive, List.filter_cons_of_neg (by simpa using Ne.symm hk)]
    next => exact .refl _
  · rw [hq] at hm
    split at hm
    next hw => exact h.serial_lt (hsuffix hm)
    next => exact h.serial_lt hm

end Agrees

end State

end CommandBus.Cache
