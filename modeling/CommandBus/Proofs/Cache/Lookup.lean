import CommandBus.Proofs.Cache.Bounds
import CommandBus.Proofs.Cache.Handles
import Mathlib

namespace CommandBus.Cache.State

variable {s s' s'' : State} {key k : EntryKey} {entry : Entry} {now : Nat} {told : Option Nat}
  {content : Content} {operation : Operation}

/-- The end of reuse that the operation gives the entry of a key, if it stores its response. -/
def reuseTold (key : EntryKey) (s : State) : Operation → Option Nat
  | .store now r _ o => (s.entry? r.correlation).bind fun (k, entry) =>
    if k = key ∧ entry.isPending = true then some (reuseEnd now entry o) else none
  | _ => none

def reuseEnd? (s : State) (operations : List Operation) (key : EntryKey) : Option Nat :=
  firstOf (reuseTold key) s operations

/-- The response to the entry, which has this content, is to come or may be reused until the time
that was told. -/
def IsReusable (s : State) (now : Nat) (content : Content) (key : EntryKey) (told : Option Nat) :
    Prop :=
  ∃ entry, s.entries.get? key = some entry ∧ entry.content = some content ∧
    (entry.isPending = true ∨ ∃ time, told = some time ∧ now < time)

/-- The index leads to an entry that is pending, and to one that has its response with the end of
its reuse, unless that is over at `now` and another entry has taken its place. If there is no instant
at which its reuse would end, the index has no end for it. -/
structure ReusedAsTold (now : Nat) (key : EntryKey) (s : State) (told : Option Nat) : Prop where
  serial_lt : told.isSome = true → key.serial < s.promises.length
  pending : ∀ {entry}, s.entries.get? key = some entry → entry.isPending = true →
    told = none ∧ ∀ content, entry.content = some content → (content, ⟨key, none⟩) ∈ s.byContent
  stored : ∀ {entry content}, s.entries.get? key = some entry → entry.isPending = false →
    entry.content = some content → ∃ time, told = some time ∧
      ((content, ⟨key, some time⟩) ∈ s.byContent ∨
        lastInstant < time ∧ (content, ⟨key, none⟩) ∈ s.byContent ∨
        time ≤ now ∧ ∀ reuse, (content, reuse) ∈ s.byContent → reuse.key ≠ key)

/-- The entry of a key, if it is still there, is pending or not as before, and the index leads to it
as before. -/
structure KeepsIndexed (key : EntryKey) (s s' : State) : Prop where
  entry_of : ∀ {entry}, s'.entries.get? key = some entry → ∃ old, s.entries.get? key = some old ∧
    old.isPending = entry.isPending ∧ old.content = entry.content
  mem_iff : ∀ {entry content reuse}, s'.entries.get? key = some entry → reuse.key = key →
    ((content, reuse) ∈ s'.byContent ↔ (content, reuse) ∈ s.byContent)

namespace KeepsIndexed

theorem of_congr (he : s'.entries = s.entries) (hc : s'.byContent = s.byContent) :
    KeepsIndexed key s s' :=
  ⟨fun {entry} hg => ⟨entry, he ▸ hg, rfl, rfl⟩, fun _ _ => by rw [hc]⟩

theorem refl (key : EntryKey) (s : State) : KeepsIndexed key s s :=
  of_congr rfl rfl

theorem trans (h : KeepsIndexed key s s') (h' : KeepsIndexed key s' s'') :
    KeepsIndexed key s s'' where
  entry_of hg := by
    obtain ⟨middle, hm, hp, hc⟩ := h'.entry_of hg
    obtain ⟨old, ho, hp', hc'⟩ := h.entry_of hm
    exact ⟨old, ho, hp'.trans hp, hc'.trans hc⟩
  mem_iff hg hk := by
    obtain ⟨middle, hm, -⟩ := h'.entry_of hg
    exact (h'.mem_iff hg hk).trans (h.mem_iff hm hk)

theorem of_modify {f : Entry → Entry} (he : s'.entries = s.entries.modify k f)
    (hf : ∀ e, (f e).isPending = e.isPending ∧ (f e).content = e.content)
    (hc : s'.byContent = s.byContent) : KeepsIndexed key s s' := by
  refine ⟨fun {entry} hg => ?_, fun _ _ => by rw [hc]⟩
  rw [he, Slots.get?_modify] at hg
  split at hg
  · obtain ⟨old, ho, rfl⟩ := Option.map_eq_some_iff.mp hg
    exact ⟨old, ho, (hf old).1.symm, (hf old).2.symm⟩
  · exact ⟨entry, hg, rfl, rfl⟩

theorem remove (key k : EntryKey) (s : State) : KeepsIndexed key s (s.remove k) := by
  cases hk : s.entries.get? k with
  | none => exact (remove_of_none hk).symm ▸ refl key s
  | some removed =>
    obtain ⟨-, hcont, -⟩ := remove_frame hk
    refine ⟨fun {entry} hg => ?_, fun {_ content reuse} hg hr => ?_⟩
    · exact ⟨entry, ((get?_remove_eq_some_iff hk).mp hg).2, rfl, rfl⟩
    · have hne : reuse.key ≠ k := hr ▸ ((get?_remove_eq_some_iff hk).mp hg).1
      rw [hcont, List.mem_filter]
      simp [hne]

theorem evictFront (key : EntryKey) (s : State) : KeepsIndexed key s s.evictFront := by
  unfold State.evictFront
  split
  · exact refl key s
  · split
    · exact (remove key _ s).trans (of_congr rfl rfl)
    · exact of_congr rfl rfl

theorem trim (key : EntryKey) (s : State) : KeepsIndexed key s s.trim :=
  trim_induction (P := KeepsIndexed key s) (fun s' _ h => h.trans (evictFront key s')) (refl key s)

theorem lapse (key k : EntryKey) (s : State) (window : Window) (after : List (Nat × EntryKey)) :
    KeepsIndexed key s (s.lapse k window after) := by
  obtain ⟨-, hcont, -⟩ := s.lapse_frame k window after
  exact of_modify (entries_lapse ..) (fun _ => ⟨rfl, rfl⟩) hcont

theorem schedule (key : EntryKey) (hg : s.entries.get? k = some entry) (first : Retention)
    (deferred : Option Retention) : KeepsIndexed key s (s.schedule k first deferred) := by
  obtain ⟨-, hcont, -⟩ := schedule_frame hg first deferred
  exact of_modify (entries_schedule hg first deferred) (fun _ => ⟨rfl, rfl⟩) hcont

theorem complete (hk : key ≠ k) (s : State) (response : Message) (size : Nat) (o : StoreOptions) :
    KeepsIndexed key s (s.complete k response size o) :=
  ⟨fun {entry} hg => ⟨entry, get?_complete_of_ne s hk response size o ▸ hg, rfl, rfl⟩,
    fun _ _ => .rfl⟩

theorem setReuseEnd (hk : key ≠ k) (s : State) (content : Option Content) (time : Nat) :
    KeepsIndexed key s (s.setReuseEnd content k time) := by
  refine ⟨fun {entry} hg => ⟨entry, hg, rfl, rfl⟩, fun {_ _ reuse} _ hr => ?_⟩
  have hne : reuse.key ≠ k := hr ▸ hk
  rw [mem_setReuseEnd]
  constructor
  · rintro ⟨old, hm, rfl⟩
    split at hne
    next hc => exact absurd hc.2 hne
    next hc => exact if_neg hc ▸ hm
  · exact fun hm => ⟨reuse, hm, (if_neg fun hc => hne hc.2).symm⟩

theorem expireOne (key : EntryKey) (hs : s.WellFormed) (now : Nat) :
    KeepsIndexed key s (s.expireOne now).2 := by
  obtain he | ⟨k, entry, window, after, time, -, hg, -, -, he⟩ := hs.expireOne_cases now <;> rw [he]
  · exact refl key s
  · have hlapse := lapse key k s window after
    unfold State.expire
    split
    · exact (hlapse.trans (schedule key (get?_lapse hg window after) _ none)).trans (trim key _)
    · exact hlapse.trans (remove key k _)

end KeepsIndexed

/-- The index is read as it is written: it leads to an entry until the end of its reuse is over. -/
theorem Agrees.reusable?_eq_some_iff (h : s.Agrees) :
    s.reusable? now content = some key ↔
      ∃ endsAt, (content, ⟨key, endsAt⟩) ∈ s.byContent ∧
        ∀ time, endsAt = some time → now < time := by
  unfold reusable?
  constructor
  · intro hk
    split at hk
    next reuse hlookup =>
      obtain ⟨hc, hkey⟩ := Option.ite_none_right_eq_some.mp hk
      cases hkey
      simp only [Bool.and_eq_true] at hc
      refine ⟨reuse.endsAt, Association.mem_of_lookup hlookup, fun time ht => ?_⟩
      simpa [ht] using hc.1
    next => cases hk
  · rintro ⟨endsAt, hm, hfresh⟩
    obtain ⟨entry, hg, -⟩ := h.exists_entry hm
    rw [Association.lookup_of_mem h.contents_nodup hm]
    dsimp only
    rw [if_pos]
    rw [hg, Option.isSome_some, Bool.and_true]
    cases endsAt with
    | none => rfl
    | some time => exact decide_eq_true (hfresh time rfl)

theorem reusable?_of_miss {r : CommandRequest} {cacheable acrossInvokers : Bool}
    (hmiss : (s.retrieve now r cacheable acrossInvokers).1 = none)
    (hc : (if cacheable then some (r.content acrossInvokers) else none) = some content) :
    s.reusable? now content = none := by
  obtain ⟨rfl, hc⟩ := Option.ite_none_right_eq_some.mp hc
  rw [retrieve_fst, Option.map_eq_none_iff, found?, Option.or_eq_none_iff, if_pos rfl,
    Option.some_inj.mp hc] at hmiss
  exact hmiss.2

namespace ReusedAsTold

theorem of_keepsIndexed (h : ReusedAsTold now key s told) (hk : KeepsIndexed key s s')
    (hl : s.promises.length ≤ s'.promises.length) : ReusedAsTold now key s' told where
  serial_lt hsome := (h.serial_lt hsome).trans_le hl
  pending hg hp := by
    obtain ⟨old, ho, hpending, hcontent⟩ := hk.entry_of hg
    obtain ⟨hnone, hindex⟩ := h.pending ho (hpending.trans hp)
    exact ⟨hnone, fun content hc => (hk.mem_iff hg rfl).mpr (hindex content (hcontent.trans hc))⟩
  stored hg hp hc := by
    obtain ⟨old, ho, hpending, hcontent⟩ := hk.entry_of hg
    obtain ⟨time, ht, hindex⟩ := h.stored ho (hpending.trans hp) (hcontent.trans hc)
    refine ⟨time, ht, hindex.imp (hk.mem_iff hg rfl).mpr
      (.imp (And.imp_right (hk.mem_iff hg rfl).mpr) fun ⟨hle, hother⟩ => ⟨hle, ?_⟩)⟩
    exact fun reuse hm hkey => hother reuse ((hk.mem_iff hg hkey).mp hm) hkey

theorem of_none (hg : s.entries.get? key = none) (hlt : key.serial < s.promises.length) :
    ReusedAsTold now key s told := by
  refine ⟨fun _ => hlt, fun hsome => ?_, fun hsome => ?_⟩ <;> rw [hg] at hsome <;> cases hsome

theorem register (h : ReusedAsTold now key s told) (hs : s.Sound) {r : CommandRequest}
    {time : Nat} {cacheable acrossInvokers : Bool} (hle : time ≤ now)
    (hmiss : (s.retrieve time r cacheable acrossInvokers).1 = none) :
    ReusedAsTold now key (s.register r.correlation
      (if cacheable then some (r.content acrossInvokers) else none)) told := by
  have hw := hs.agrees.wellFormed
  have hfresh : ∀ {content}, (if cacheable then some (r.content acrossInvokers) else none) =
      some content → s.reusable? time content = none := reusable?_of_miss hmiss
  generalize (if cacheable then some (r.content acrossInvokers) else none) = registered at hfresh ⊢
  -- whatever has its place taken is found no more
  have hstale : ∀ {content endsAt}, registered = some content →
      (content, ⟨key, endsAt⟩) ∈ s.byContent → ∃ end_, endsAt = some end_ ∧ end_ ≤ now := by
    intro content endsAt hc hm
    by_contra hn
    have hfound := hs.agrees.reusable?_eq_some_iff.mpr ⟨endsAt, hm, fun end_ he => by
      by_contra hlt
      exact hn ⟨end_, he, (not_lt.mp hlt).trans hle⟩⟩
    rw [hfresh hc] at hfound
    cases hfound
  refine ⟨fun hsome => ?_, fun {entry} hg hp => ?_, fun {entry content} hg hp hc => ?_⟩
  · rw [length_register]
    exact (h.serial_lt hsome).trans (Nat.lt_succ_self _)
  · obtain ⟨rfl, rfl⟩ | ⟨-, hg⟩ := hw.get?_register_cases hg
    · refine ⟨?_, fun content hc => mem_byContent_register.mpr (.inr ⟨hc, rfl⟩)⟩
      by_contra hne
      exact (h.serial_lt (Option.isSome_iff_ne_none.mpr hne)).ne hw.serial_nextKey
    · obtain ⟨hnone, hindex⟩ := h.pending hg hp
      refine ⟨hnone, fun content hc => mem_byContent_register.mpr (.inl ⟨hindex content hc, ?_⟩)⟩
      rintro hr
      obtain ⟨_, he, -⟩ := hstale hr (hindex content hc)
      cases he
  · obtain ⟨rfl, rfl⟩ | ⟨hk, hg⟩ := hw.get?_register_cases hg
    · cases hp
    · obtain ⟨end_, ht, hindex⟩ := h.stored hg hp hc
      refine ⟨end_, ht, ?_⟩
      by_cases hr : registered = some content
      · refine .inr (.inr ⟨?_, fun reuse hm => ?_⟩)
        · obtain hm | ⟨-, hm⟩ | ⟨hle, -⟩ := hindex
          · obtain ⟨_, he, hle⟩ := hstale hr hm
            exact Option.some_inj.mp he ▸ hle
          · obtain ⟨_, he, -⟩ := hstale hr hm
            cases he
          · exact hle
        · obtain ⟨-, hne⟩ | ⟨-, rfl⟩ := mem_byContent_register.mp hm
          · exact absurd hr hne
          · exact Ne.symm hk
      · have hkept : ∀ {reuse}, (content, reuse) ∈ s.byContent →
            (content, reuse) ∈ (s.register r.correlation registered).byContent :=
          fun hm => mem_byContent_register.mpr (.inl ⟨hm, hr⟩)
        refine hindex.imp hkept (.imp (And.imp_right hkept) fun hother => ?_)
        refine ⟨hother.1, fun reuse hm => ?_⟩
        obtain ⟨hm, -⟩ | ⟨hc, -⟩ := mem_byContent_register.mp hm
        · exact hother.2 reuse hm
        · exact absurd hc hr

/-- The response comes to a pending entry, and there is no instant at which its reuse would end. -/
theorem strand (h : ReusedAsTold now key s told) (hs : s.WellFormed)
    (hg : s.entries.get? key = some entry) (hp : entry.isPending = true) (response : Message)
    (size : Nat) {time : Nat} (ht : lastInstant < time) (o : StoreOptions) :
    ReusedAsTold now key (s.complete key response size o) (some time) := by
  obtain ⟨-, hindex⟩ := h.pending hg hp
  have hl : (s.complete key response size o).promises.length = s.promises.length :=
    length_settle ..
  refine ⟨fun _ => hl.ge.trans_lt' (hs.serial_lt hg), fun {other} ho hpending => ?_,
    fun {other content} ho _ hc => ⟨time, rfl, .inr (.inl ⟨ht, ?_⟩)⟩⟩ <;>
    rw [get?_complete hg, Option.some_inj] at ho
  · rw [← ho] at hpending
    cases hpending
  · exact hindex content (by rw [← hc, ← ho])

theorem complete (h : ReusedAsTold now key s told) (hs : s.WellFormed)
    (hg : s.entries.get? key = some entry) (hp : entry.isPending = true) (response : Message)
    (size time : Nat) (o : StoreOptions) :
    ReusedAsTold now key ((s.complete key response size o).setReuseEnd entry.content key time)
      (some time) := by
  obtain ⟨-, hindex⟩ := h.pending hg hp
  have hl : ((s.complete key response size o).setReuseEnd entry.content key
    time).promises.length = s.promises.length := length_settle ..
  have hget : ((s.complete key response size o).setReuseEnd entry.content key
    time).entries.get? key = _ := get?_complete hg response size o
  refine ⟨fun _ => hl.ge.trans_lt' (hs.serial_lt hg), fun {other} ho hpending => ?_,
    fun {other content} ho _ hc => ⟨time, rfl, .inl ?_⟩⟩
  · rw [hget, Option.some_inj] at ho
    rw [← ho] at hpending
    cases hpending
  · rw [hget, Option.some_inj] at ho
    have hc : entry.content = some content := by rw [← hc, ← ho]
    exact mem_setReuseEnd.mpr ⟨⟨key, none⟩, hindex content hc, (if_pos ⟨hc, rfl⟩).symm⟩

theorem settle (h : ReusedAsTold now key s told) (hs : s.WellFormed)
    (hg : s.entries.get? k = some entry) (hp : entry.isPending = true) (response : Message)
    (size time : Nat) (o : StoreOptions) :
    ReusedAsTold now key ((s.complete k response size o).setReuseEnd entry.content k time)
      (told.or (if k = key then some time else none)) := by
  by_cases hkey : k = key
  · subst hkey
    rw [if_pos rfl, (h.pending hg hp).1, Option.none_or]
    exact h.complete hs hg hp response size time o
  · rw [if_neg hkey, Option.or_none]
    exact h.of_keepsIndexed ((KeepsIndexed.complete (Ne.symm hkey) s response size o).trans
      (.setReuseEnd (Ne.symm hkey) _ _ _)) (length_settle ..).ge

theorem store (h : ReusedAsTold now key s told) (hs : s.WellFormed) (time : Nat)
    (r : CommandRequest) (response : Message) (o : StoreOptions) :
    ReusedAsTold now key (s.store time r response o)
      (told.or (reuseTold key s (.store time r response o))) := by
  have hl : s.promises.length ≤ (s.store time r response o).promises.length :=
    (hs.changes_store time r response o).length_le
  by_cases hex : ∃ k, s.Reserves r.correlation k
  · obtain ⟨k, hk⟩ := hex
    obtain ⟨entry, he, hp⟩ := hk.entry? hs
    obtain ⟨hg, -⟩ := hs.entry?_eq_some.mp he
    have htold : reuseTold key s (.store time r response o) =
        if k = key then some (reuseEnd time entry o) else none := by
      rw [reuseTold, he]
      simp [hp]
    rw [htold]
    by_cases hover : o.overruns time entry
    · rw [store_eq he hp] at hl ⊢
      dsimp only at hl ⊢
      rw [if_pos hover] at hl ⊢
      by_cases hkey : k = key
      · subst hkey
        rw [if_pos rfl, (h.pending hg hp).1, Option.none_or]
        exact h.strand hs hg hp response _ (lt_reuseEnd_of_overruns hover).1 o
      · rw [if_neg hkey, Option.or_none]
        exact h.of_keepsIndexed (.complete (Ne.symm hkey) s response _ o) hl
    rw [Bool.not_eq_true] at hover
    cases hw : s.windows time (entry.content.elim 0 (·.payload.length)) response.payload.length
        (reuseEnd time entry o) o with
    | nil =>
      rw [store_of_windows_eq_nil he hp hover hw] at hl ⊢
      by_cases hkey : k = key
      · subst hkey
        exact of_none (by rw [get?_remove, if_pos rfl]) ((hs.serial_lt hg).trans_le hl)
      · rw [if_neg hkey, Option.or_none]
        exact h.of_keepsIndexed ((KeepsIndexed.complete (Ne.symm hkey) s _ _ o).trans
          (.remove key k _)) hl
    | cons first rest =>
      have hstore : s.store time r response o = _ :=
        (Schedules.store he hp rfl rfl hover hw).apply_eq
      rw [hstore] at hl ⊢
      generalize entry.content.elim 0 (·.payload.length) + response.payload.length = size at hl ⊢
      have hget : ((s.complete k response size o).setReuseEnd entry.content k
        (reuseEnd time entry o)).entries.get? k = _ := get?_complete hg response size o
      exact (h.settle hs hg hp response size _ o).of_keepsIndexed
        ((KeepsIndexed.schedule key hget first rest.head?).trans (.trim key _))
        ((length_settle ..).le.trans hl)
  · have hn : reuseTold key s (.store time r response o) = none := by
      rw [reuseTold, Option.bind_eq_none_iff]
      rintro ⟨k, entry⟩ he
      exact if_neg fun hp => hex ⟨k, hs.reserves_of_entry? he hp.2⟩
    rw [hn, Option.or_none, hs.store_of_not_reserves hex]
    exact h

theorem apply (h : ReusedAsTold now key s told) (hs : s.Sound)
    (hclock : ∀ time r cacheable acrossInvokers,
      operation = .retrieve time r cacheable acrossInvokers → time ≤ now) :
    ReusedAsTold now key (operation.apply s) (told.or (reuseTold key s operation)) := by
  have hw := hs.agrees.wellFormed
  obtain ⟨_, hc⟩ := hw.changes_apply operation
  -- only storing tells the end of a reuse
  have hkeep : reuseTold key s operation = none → KeepsIndexed key s (operation.apply s) →
      ReusedAsTold now key (operation.apply s) (told.or (reuseTold key s operation)) :=
    fun hn hk => by
      rw [hn, Option.or_none]
      exact h.of_keepsIndexed hk hc.length_le
  cases operation with
  | retrieve time r cacheable acrossInvokers =>
    obtain ⟨p, hr⟩ | ⟨-, hr⟩ := s.retrieve_cases time r cacheable acrossInvokers
    · refine hkeep rfl ?_
      rw [Operation.apply, hr]
      exact .refl key s
    · have hn : reuseTold key s (.retrieve time r cacheable acrossInvokers) = none := rfl
      rw [Operation.apply, hn, Option.or_none]
      exact hr ▸ h.register hs (hclock _ _ _ _ rfl) (by rw [hr])
  | store time r response o => exact h.store hw time r response o
  | abandon r =>
    refine hkeep rfl ?_
    obtain ⟨k, hk⟩ | hn := em (∃ k, s.Reserves r.correlation k)
    · rw [Operation.apply, hk.abandon_eq hw]
      exact .remove key k s
    · rw [Operation.apply, hw.abandon_of_not_reserves hn]
      exact .refl key s
  | trim => exact hkeep rfl (.trim key s)
  | expireOne time => exact hkeep rfl (.expireOne key hw time)
  | nextDeadline | setConfig => exact hkeep rfl (.of_congr rfl rfl)

end ReusedAsTold

theorem reusedAsTold_run (config : Config) (operations : List Operation) (key : EntryKey)
    (hclock : ∀ time r cacheable acrossInvokers,
      .retrieve time r cacheable acrossInvokers ∈ operations → time ≤ now) :
    ReusedAsTold now key (({ config } : State).run operations)
      (({ config } : State).reuseEnd? operations key) := by
  have hempty : ReusedAsTold now key { config } none :=
    ⟨nofun, fun hg => by simp [Slots.get?] at hg, fun hg => by simp [Slots.get?] at hg⟩
  have hstep : ∀ {s : State} {told} operation, operation ∈ operations → s.WellFormed →
      s.Sound ∧ ReusedAsTold now key s told → (operation.apply s).Sound ∧
        ReusedAsTold now key (operation.apply s) (told.or (reuseTold key s operation)) :=
    fun operation hm _ h => ⟨(h.1.apply operation).1, h.2.apply h.1 fun _ _ _ _ he =>
      hclock _ _ _ _ (he ▸ hm)⟩
  have hrun := firstOf_run_of_mem (P := fun s told => s.Sound ∧ ReusedAsTold now key s told)
    (WellFormed.empty config) ⟨.empty config, hempty⟩ operations hstep
  rw [Option.none_or] at hrun
  exact hrun.2

theorem Sound.reusable?_eq_some_iff (hs : s.Sound) (h : ReusedAsTold now key s told)
    (hnow : now ≤ lastInstant) :
    s.reusable? now content = some key ↔ s.IsReusable now content key told := by
  rw [hs.agrees.reusable?_eq_some_iff]
  constructor
  · rintro ⟨endsAt, hm, hfresh⟩
    obtain ⟨entry, hg, hc, -⟩ := hs.agrees.exists_entry hm
    refine ⟨entry, hg, hc, ?_⟩
    cases hp : entry.isPending with
    | true => exact .inl rfl
    | false =>
      obtain ⟨time, ht, hindex⟩ := h.stored hg hp hc
      refine .inr ⟨time, ht, ?_⟩
      obtain hm' | ⟨hlt, -⟩ | ⟨-, hother⟩ := hindex
      · have heq := (Association.lookup_of_mem hs.agrees.contents_nodup hm).symm.trans
          (Association.lookup_of_mem hs.agrees.contents_nodup hm')
        cases heq
        exact hfresh time rfl
      · exact hnow.trans_lt hlt
      · exact absurd rfl (hother _ hm)
  · rintro ⟨entry, hg, hc, hor⟩
    cases hp : entry.isPending with
    | true => exact ⟨none, (h.pending hg hp).2 content hc, nofun⟩
    | false =>
      obtain ⟨time, ht, hlt⟩ := hor.resolve_left (by simp [hp])
      obtain ⟨time', ht', hindex⟩ := h.stored hg hp hc
      rw [ht, Option.some_inj] at ht'
      subst ht'
      obtain hm | ⟨-, hm⟩ | ⟨hle, -⟩ := hindex
      · exact ⟨some time, hm, fun _ he => Option.some_inj.mp he ▸ hlt⟩
      · exact ⟨none, hm, nofun⟩
      · exact absurd hle hlt.not_ge

/-- By a clock that does not go back, so that no look-up was later than `now`, a look-up finds the
entry of its own request, or else, if it may, the one with its content that is pending or may still
be reused; there is one at most. A look-up that finds something changes nothing, and one that does
not only registers an entry. -/
theorem retrieve_exact (config : Config) (operations : List Operation) (now : Nat)
    (hnow : now ≤ lastInstant)
    (hclock : ∀ time r cacheable acrossInvokers,
      .retrieve time r cacheable acrossInvokers ∈ operations → time ≤ now)
    (r : CommandRequest) (cacheable acrossInvokers : Bool) :
    let s := ({ config } : State).run operations
    let found := s.retrieve now r cacheable acrossInvokers
    let isOwn key := ∃ entry, s.entries.get? key = some entry ∧ entry.correlation = r.correlation
    let isReusable key := s.IsReusable now (r.content acrossInvokers) key
      (({ config } : State).reuseEnd? operations key)
    (∀ p, found.1 = some p ↔ ∃ key, (isOwn key ∨
      (∀ other, ¬isOwn other) ∧ cacheable = true ∧ isReusable key) ∧ key.serial = p) ∧
    (found.1.isSome = true → found.2 = s) ∧
    (found.1 = none → (∃ key, s.entries.get? key = none ∧
      ∀ k, found.2.entries.get? k = if k = key then
        some { correlation := r.correlation
               content := if cacheable then some (r.content acrossInvokers) else none }
        else s.entries.get? k) ∧
      found.2.size = s.size + 1 ∧ found.2.promises = s.promises ++ [.pending] ∧
      { found.2 with entries := s.entries, byCorrelation := s.byCorrelation,
                     byContent := s.byContent, promises := s.promises } = s) ∧
    (∀ key other, isReusable key → isReusable other → key = other) ∧
    ∀ key, isReusable key → cacheable = true →
      found = (some ((s.key? r.correlation).getD key).serial, s) := by
  intro s found isOwn isReusable
  have hs : s.Sound := ((Sound.empty config).run operations).1
  have hw := hs.agrees.wellFormed
  have hreusable : ∀ key, s.reusable? now (r.content acrossInvokers) = some key ↔
      isReusable key := fun key =>
    hs.reusable?_eq_some_iff (reusedAsTold_run config operations key hclock) hnow
  have hfound : ∀ key, s.found? now r cacheable acrossInvokers = some key ↔
      isOwn key ∨ (∀ other, ¬isOwn other) ∧ cacheable = true ∧ isReusable key := by
    intro key
    rw [found?, Option.or_eq_some_iff, Option.ite_none_right_eq_some, hreusable,
      Option.eq_none_iff_forall_ne_some]
    simp only [ne_eq, hw.key?_iff, isOwn]
  have hhit : found.1.isSome = true → found.2 = s := fun hsome => by
    obtain ⟨p, hr⟩ | ⟨-, hr⟩ := s.retrieve_cases now r cacheable acrossInvokers
    · exact congrArg Prod.snd hr
    · rw [show found = _ from hr] at hsome
      cases hsome
  refine ⟨fun p => ?_, hhit, fun hmiss => ?_, fun key other hk ho => ?_, fun key hk hc => ?_⟩
  · rw [show found.1 = _ from s.retrieve_fst now r cacheable acrossInvokers,
      Option.map_eq_some_iff]
    simp only [hfound]
  · obtain ⟨p, hr⟩ | ⟨-, hr⟩ := s.retrieve_cases now r cacheable acrossInvokers
    · rw [show found = _ from hr] at hmiss
      cases hmiss
    · rw [show found = _ from hr]
      exact ⟨⟨s.nextKey, hw.get?_nextKey, hw.get?_register _ _⟩, List.length_append, rfl, rfl⟩
  · exact Option.some_inj.mp (((hreusable key).mpr hk).symm.trans ((hreusable other).mpr ho))
  · have hfst : found.1 = some ((s.key? r.correlation).getD key).serial := by
      rw [show found.1 = _ from s.retrieve_fst now r cacheable acrossInvokers, found?, hc,
        if_pos rfl, (hreusable key).mpr hk]
      cases s.key? r.correlation <;> rfl
    exact Prod.ext hfst (hhit (hfst ▸ rfl))

/-- Before the reuse of a response is over, another request with the same content has it. -/
theorem equivalent_request_hits :
    let r : CommandRequest := ⟨"cmd", "inv", "t", [1], [2]⟩
    let other : CommandRequest := ⟨"cmd", "inv", "t", [3], [2]⟩
    let s := ({} : State).run [.retrieve 0 r true false,
      .store 1 r { topic := "reply", payload := [3] } ⟨true, 10, ⟨0⟩, 5⟩]
    s.retrieve 3 other true false = (some 0, s) := by
  intro r other s
  obtain ⟨-, -, -, -, hhits⟩ := retrieve_exact {} [.retrieve 0 r true false,
    .store 1 r { topic := "reply", payload := [3] } ⟨true, 10, ⟨0⟩, 5⟩] 3 (by decide) (by simp)
    other true false
  exact hhits ⟨0, 0⟩ ⟨_, rfl, rfl, .inr ⟨6, rfl, by decide⟩⟩ rfl

end CommandBus.Cache.State
