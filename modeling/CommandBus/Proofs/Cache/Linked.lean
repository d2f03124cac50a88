import CommandBus.Proofs.Cache.Retention
import Mathlib

namespace CommandBus.Cache.State

variable {s s' s'' : State} {key : EntryKey} {entry : Entry} {p : Nat} {response r : Message}
  {now : Nat}

def Linked (s : State) : Prop :=
  ∀ content reuse, (content, reuse) ∈ s.byContent →
    ∃ entry, s.entries.get? reuse.key = some entry ∧ entry.content = some content

theorem Linked.empty (config : Config) : Linked { config } :=
  fun _ _ h => absurd h List.not_mem_nil

/-- No promise is given or kept, and contents lead to entries as they did. -/
structure Keeps (s s' : State) : Prop where
  length_eq : s'.promises.length = s.promises.length
  promise_of : ∀ {p r}, s'.promise p = .stored r → s.promise p = .stored r
  linked : s.Linked → s'.Linked

namespace Keeps

theorem refl (s : State) : Keeps s s :=
  ⟨rfl, id, id⟩

theorem trans (h : Keeps s s') (h' : Keeps s' s'') : Keeps s s'' :=
  ⟨h'.length_eq.trans h.length_eq, fun hr => h.promise_of (h'.promise_of hr),
    fun hl => h'.linked (h.linked hl)⟩

end Keeps

theorem Linked.of_entries (h : s.Linked)
    (hc : ∀ content reuse, (content, reuse) ∈ s'.byContent →
      ∃ old, (content, old) ∈ s.byContent ∧ old.key = reuse.key)
    (he : ∀ {key entry}, s.entries.get? key = some entry →
      ∃ entry', s'.entries.get? key = some entry' ∧ entry'.content = entry.content) :
    s'.Linked := by
  intro content reuse hm
  obtain ⟨old, ho, hkey⟩ := hc content reuse hm
  obtain ⟨entry, hg, hcontent⟩ := h content old ho
  obtain ⟨entry', hg', hcontent'⟩ := he hg
  exact ⟨entry', hkey ▸ hg', hcontent'.trans hcontent⟩

theorem keeps_congr (he : s'.entries = s.entries) (hc : s'.byContent = s.byContent)
    (hp : s'.promises = s.promises) : Keeps s s' := by
  refine ⟨by rw [hp], fun hr => ?_, fun hl => ?_⟩
  · rwa [promise, hp] at hr
  · exact hl.of_entries (fun content reuse hm => ⟨reuse, hc ▸ hm, rfl⟩)
      fun hg => ⟨_, he ▸ hg, rfl⟩

theorem exists_get?_modify {k : EntryKey} {f : Entry → Entry}
    (he : s'.entries = s.entries.modify k f) (hf : ∀ e, (f e).content = e.content)
    (hg : s.entries.get? key = some entry) :
    ∃ entry', s'.entries.get? key = some entry' ∧ entry'.content = entry.content := by
  rw [he, Slots.get?_modify, hg]
  split
  · exact ⟨_, rfl, hf entry⟩
  · exact ⟨_, rfl, rfl⟩

theorem keeps_modify {f : Entry → Entry} (he : s'.entries = s.entries.modify key f)
    (hf : ∀ e, (f e).content = e.content) (hc : s'.byContent = s.byContent)
    (hp : s'.promises = s.promises) : Keeps s s' := by
  refine ⟨by rw [hp], fun hr => ?_, fun hl => ?_⟩
  · rwa [promise, hp] at hr
  · exact hl.of_entries (fun content reuse hm => ⟨reuse, hc ▸ hm, rfl⟩)
      (exists_get?_modify he hf)

theorem keeps_setReuseEnd (s : State) (content : Option Content) (key : EntryKey) (time : Nat) :
    Keeps s (s.setReuseEnd content key time) := by
  refine ⟨rfl, id, fun hl => hl.of_entries (fun c reuse hm => ?_) fun hg => ⟨_, hg, rfl⟩⟩
  obtain ⟨⟨a, old⟩, ho, heq⟩ := List.mem_map.mp hm
  dsimp only at heq
  split at heq <;> cases heq
  · exact ⟨old, ho, rfl⟩
  · exact ⟨_, ho, rfl⟩

theorem promise_of_settle_evicted {serial : Nat}
    (h : (s.settle serial .evicted).promise p = .stored r) : s.promise p = .stored r := by
  rw [promise, settle, List.getElem?_modify] at h
  rw [promise]
  cases hp : s.promises[p]? with
  | none => simp [hp] at h
  | some old =>
    rw [hp] at h
    by_cases hs : serial = p <;> by_cases ho : old = .pending <;> simp_all

theorem keeps_remove (s : State) (key : EntryKey) : Keeps s (s.remove key) := by
  cases hg : s.entries.get? key with
  | none =>
    rw [remove_of_none hg]
    exact .refl s
  | some entry =>
    have hp := promises_remove hg
    refine ⟨?_, fun {p r} hr => ?_, fun hl content reuse hm => ?_⟩
    · rw [hp]
      split
      · exact length_settle ..
      · rfl
    · rw [promise, hp] at hr
      split at hr
      · exact promise_of_settle_evicted hr
      · exact hr
    · rw [(remove_frame hg).2.1, List.mem_filter] at hm
      obtain ⟨old, ho, hcontent⟩ := hl content reuse hm.1
      rw [entries_remove hg, Slots.get?_remove, if_neg]
      · exact ⟨old, ho, hcontent⟩
      · intro hk
        rw [hk, hg, Option.some_inj] at ho
        simp [ho, hcontent, hk] at hm

theorem keeps_trimFrom (queue : List (Benefit × EntryKey)) (s : State) :
    Keeps s (trimFrom queue s) := by
  induction queue generalizing s with
  | nil => exact keeps_congr rfl rfl rfl
  | cons element rest ih =>
    obtain ⟨b, key⟩ := element
    unfold trimFrom
    split
    · refine Keeps.trans ?_ (ih _)
      split
      · exact keeps_remove s key
      · exact .refl s
    · exact keeps_congr rfl rfl rfl

theorem keeps_trim (s : State) : Keeps s s.trim :=
  keeps_trimFrom _ s

theorem setQueue_byContent (s : State) (elements : List (Nat × EntryKey)) (window : Window) :
    (s.setQueue elements window).byContent = s.byContent := by
  cases window <;> rfl

theorem keeps_schedule (s : State) (key : EntryKey) (first : Retention)
    (deferred : Option Retention) : Keeps s (s.schedule key first deferred) := by
  cases hg : s.entries.get? key with
  | none =>
    rw [schedule, hg]
    exact .refl s
  | some entry =>
    refine keeps_modify (entries_schedule hg first deferred) (fun _ => rfl) ?_ ?_
    · simp only [schedule, hg]
      exact setQueue_byContent ..
    · simp only [schedule, hg]
      exact setQueue_promises ..

theorem keeps_abandon (s : State) (r : CommandRequest) : Keeps s (s.abandon r).2 := by
  unfold abandon
  split
  · split
    · exact keeps_remove s _
    · exact .refl s
  · exact .refl s

theorem keeps_expire (s : State) (now : Nat) (key : EntryKey) (entry : Entry) (window : Window)
    (after : List (Nat × EntryKey)) : Keeps s (s.expire now key entry window after) := by
  have hl : Keeps s (s.lapse key window after) :=
    keeps_modify (entries_lapse ..) (fun _ => rfl) (setQueue_byContent ..) (setQueue_promises ..)
  unfold expire
  split
  · exact (hl.trans (keeps_schedule ..)).trans (keeps_trim _)
  · exact hl.trans (keeps_remove ..)

theorem WellFormed.keeps_expireOne (h : s.WellFormed) (now : Nat) :
    Keeps s (s.expireOne now).2 := by
  obtain he | ⟨key, entry, window, after, time, -, -, -, -, he⟩ := h.expireOne_cases now <;>
    rw [he]
  · exact .refl s
  · exact keeps_expire ..

theorem WellFormed.linked_register (h : s.WellFormed) (hl : s.Linked) (c : Correlation)
    (content : Option Content) : (s.register c content).Linked := by
  intro b reuse hm
  have hold : (b, reuse) ∈ s.byContent →
      ∃ entry, (s.register c content).entries.get? reuse.key = some entry ∧
        entry.content = some b := by
    intro hm
    obtain ⟨entry, hg, hb⟩ := hl b reuse hm
    have hk : reuse.key ≠ s.nextKey := fun hk =>
      (h.serial_lt hg).ne (hk ▸ h.serial_nextKey)
    exact ⟨entry, by rw [h.get?_register, if_neg hk, hg], hb⟩
  cases content with
  | none => exact hold hm
  | some a =>
    have hm' : (b, reuse) ∈ s.byContent.filter (·.1 != a) ++ [(a, ⟨s.nextKey, none⟩)] := hm
    obtain hm | hm := List.mem_append.mp hm'
    · exact hold (List.mem_filter.mp hm).1
    · obtain ⟨rfl, rfl⟩ := Prod.mk.inj (List.mem_singleton.mp hm)
      exact ⟨_, by rw [h.get?_register, if_pos rfl], rfl⟩

theorem keeps_store_complete {r : CommandRequest}
    (he : s.entry? r.correlation = some (key, entry)) (hp : entry.isPending = true) (now : Nat)
    (response : Message) (o : StoreOptions) :
    ∃ size, Keeps (s.complete key response size o) (s.store now r response o) := by
  obtain ⟨requestBytes, responseBytes, hs⟩ := store_of_pending he hp now response o
  refine ⟨requestBytes + responseBytes, ?_⟩
  rw [hs]
  split
  · exact .refl _
  split
  · exact keeps_remove ..
  · exact ((keeps_setReuseEnd ..).trans (keeps_schedule ..)).trans (keeps_trim _)

theorem WellFormed.store_keeps (h : s.WellFormed) (now : Nat) (r : CommandRequest)
    (response : Message) (o : StoreOptions) :
    (s.store now r response o).promises.length = s.promises.length ∧
      (s.Linked → (s.store now r response o).Linked) ∧
      ∀ {p m}, (s.store now r response o).promise p = .stored m → s.promise p = .stored m ∨
        ∃ key, s.key? r.correlation = some key ∧ key.serial = p ∧ m = response := by
  by_cases hex : ∃ key entry, s.entry? r.correlation = some (key, entry) ∧ entry.isPending = true
  · obtain ⟨key, entry, he, hp⟩ := hex
    obtain ⟨hg, hcorr⟩ := h.entry?_eq_some.mp he
    obtain ⟨size, hk⟩ := keeps_store_complete he hp now response o
    refine ⟨hk.length_eq.trans (length_settle ..), fun hl => hk.linked ?_, fun {p m} hm => ?_⟩
    · have hm : (s.complete key response size o).entries = s.entries.modify key fun e =>
          { e with isPending := false, size, isMandatory := !o.isIdempotent } := rfl
      exact hl.of_entries (fun content reuse hc => ⟨reuse, hc, rfl⟩)
        (exists_get?_modify hm fun _ => rfl)
    · have hm : (s.settle key.serial (.stored response)).promise p = .stored m := hk.promise_of hm
      rw [promise_settle _ _ _ _ (h.serial_lt hg)] at hm
      split at hm
      next hc =>
        cases hm
        exact .inr ⟨key, hcorr ▸ h.key?_of_get? hg, hc.1.symm, rfl⟩
      next => exact .inl hm
  · rw [store_of_not_pending fun key entry he => by
      by_contra hp
      exact hex ⟨key, entry, he, by simpa using hp⟩]
    exact ⟨rfl, id, .inl⟩

/-- The entry of a promise that a look-up finds has the correlation of the request, or its
content. -/
theorem WellFormed.entry_of_retrieve (h : s.WellFormed) (hl : s.Linked) {r : CommandRequest}
    {cacheable acrossInvokers : Bool}
    (hr : (s.retrieve now r cacheable acrossInvokers).1 = some p) :
    ∃ key entry, s.entries.get? key = some entry ∧ key.serial = p ∧
      (entry.correlation = r.correlation ∨
        cacheable = true ∧ entry.content = some (r.content acrossInvokers)) := by
  obtain ⟨key, rfl, hk | ⟨hc, hk⟩⟩ := retrieve_eq_some hr
  · obtain ⟨entry, hg, hcorr⟩ := (h.key?_iff _ _).mp hk
    exact ⟨key, entry, hg, rfl, .inl hcorr⟩
  · unfold reusable? at hk
    split at hk
    next reuse hlookup =>
      split at hk <;> cases hk
      obtain ⟨entry, hg, hcontent⟩ := hl _ _ (Association.mem_of_lookup hlookup)
      exact ⟨_, entry, hg, rfl, .inr ⟨hc, hcontent⟩⟩
    next => cases hk

theorem Changes.reserves_of {kept : EntryKey → Entry → Prop} (h : Changes s s' kept)
    (hs : s.WellFormed) {c : Correlation} (hr : s'.Reserves c key)
    (hlt : key.serial < s.promises.length) : s.Reserves c key := by
  obtain ⟨entry, hg, rfl⟩ := (h.wellFormed.key?_iff c key).mp hr.key?
  obtain ⟨old, ho, hc, -⟩ := h.entry_of hg hlt
  have hp := h.pending_of_pending hlt (hr.promise h.wellFormed)
  exact ⟨hc ▸ hs.key?_of_get? ho, old, ho, (hs.isPending_iff ho).mpr hp⟩

end CommandBus.Cache.State
