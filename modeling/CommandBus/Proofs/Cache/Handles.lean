import CommandBus.Proofs.Cache.Shared
import Mathlib

namespace CommandBus.Cache

namespace State

variable {s : State} {key : EntryKey} {entry : Entry} {c : Correlation} {now p : Nat}
  {r : CommandRequest} {cacheable acrossInvokers : Bool}

def found? (s : State) (now : Nat) (r : CommandRequest) (cacheable acrossInvokers : Bool) :
    Option EntryKey :=
  (s.key? r.correlation).or
    (if cacheable then s.reusable? now (r.content acrossInvokers) else none)

theorem retrieve_fst (s : State) (now : Nat) (r : CommandRequest)
    (cacheable acrossInvokers : Bool) :
    (s.retrieve now r cacheable acrossInvokers).1 =
      (s.found? now r cacheable acrossInvokers).map EntryKey.serial := by
  unfold retrieve found?
  cases s.key? r.correlation with
  | some key => rfl
  | none =>
    cases cacheable with
    | false => rfl
    | true =>
      simp only [Option.none_or, if_true, Option.bind_some]
      cases s.reusable? now (r.content acrossInvokers) <;> rfl

theorem WellFormed.exists_get?_of_found? (h : s.WellFormed)
    (hf : s.found? now r cacheable acrossInvokers = some key) :
    ∃ entry, s.entries.get? key = some entry := by
  obtain hk | ⟨-, hr⟩ := Option.or_eq_some_iff.mp hf
  · obtain ⟨entry, hg, -⟩ := (h.key?_iff _ _).mp hk
    exact ⟨entry, hg⟩
  · cases cacheable with
    | false => cases hr
    | true => exact isSome_get?_of_reusable? hr

def Answerable (s : State) : Prop :=
  ∀ key entry, s.entries.get? key = some entry → s.promise key.serial ≠ .evicted

theorem length_apply (hs : s.WellFormed) {operation : Operation}
    (hn : ∀ now r cacheable acrossInvokers,
      operation ≠ .retrieve now r cacheable acrossInvokers) :
    (operation.apply s).promises.length = s.promises.length := by
  cases operation with
  | retrieve now r cacheable acrossInvokers => exact absurd rfl (hn _ _ _ _)
  | store now r response o => exact (hs.store_keeps now r response o).1
  | abandon r => exact (keeps_abandon s r).length_eq
  | trim => exact (keeps_trim s).length_eq
  | expireOne now => exact (hs.keeps_expireOne now).length_eq
  | nextDeadline | setConfig => rfl

theorem pending_of_new (hs : s.WellFormed) {operation : Operation}
    (hg : (operation.apply s).entries.get? key = some entry)
    (hle : s.promises.length ≤ key.serial) :
    (operation.apply s).promise key.serial = .pending := by
  by_cases hn : ∀ now r cacheable acrossInvokers,
      operation ≠ .retrieve now r cacheable acrossInvokers
  · have hlt := (hs.apply operation).serial_lt hg
    rw [length_apply hs hn] at hlt
    exact absurd hlt hle.not_gt
  · push Not at hn
    obtain ⟨now, r, cacheable, acrossInvokers, rfl⟩ := hn
    obtain ⟨p, hr⟩ | ⟨-, hr⟩ := s.retrieve_cases now r cacheable acrossInvokers
    · rw [Operation.apply, hr] at hg
      exact absurd (hs.serial_lt hg) hle.not_gt
    · rw [Operation.apply, hr] at hg ⊢
      rw [hs.get?_register] at hg
      split at hg
      next hkey => rw [promise_register, hkey, if_pos hs.serial_nextKey]
      next => exact absurd (hs.serial_lt hg) hle.not_gt

theorem Answerable.apply (h : s.Answerable) (hs : s.WellFormed) (operation : Operation) :
    (operation.apply s).Answerable := by
  intro key entry hg
  obtain ⟨kept, hc⟩ := hs.changes_apply operation
  obtain hlt | hle := lt_or_ge key.serial s.promises.length
  · obtain ⟨old, ho, -, -⟩ := hc.entry_of hg hlt
    by_cases hp : s.promise key.serial = .pending
    · have hreserves := hs.reserves_of_get? ho ((hs.isPending_iff ho).mpr hp)
      obtain hr | ⟨_, _, _, _, -, -, hr⟩ | ⟨_, -, -, hn, -⟩ := hreserves.apply_cases hs operation
      · rw [hr.promise (hs.apply operation)]
        exact nofun
      · rw [hr]
        exact nofun
      · rw [hn] at hg
        cases hg
    · rw [hc.promise_eq hlt hp]
      exact h key old ho
  · rw [pending_of_new hs hg hle]
    exact nofun

theorem Answerable.empty (config : Config) : Answerable { config } :=
  fun _ _ h => by simp [Slots.get?] at h

theorem Answerable.promise_of_retrieve (h : s.Answerable) (hs : s.WellFormed) {p : Nat}
    (hp : (s.retrieve now r cacheable acrossInvokers).1 = some p) : s.promise p ≠ .evicted := by
  rw [retrieve_fst] at hp
  obtain ⟨key, hf, rfl⟩ := Option.map_eq_some_iff.mp hp
  obtain ⟨entry, hg⟩ := hs.exists_get?_of_found? hf
  exact h key entry hg

end State

namespace Shared

variable {d : Shared} {u : Use} {key : EntryKey} {c : Correlation} {response : Message}

/-- The use stores the response for a request with this correlation. -/
def Stores (d : Shared) (u : Use) (c : Correlation) (response : Message) : Prop :=
  ∃ now r o, d.operation? u = some (.store now r response o) ∧ r.correlation = c

def Abandons (d : Shared) (u : Use) (c : Correlation) : Prop :=
  ∃ r, d.operation? u = some (.abandon r) ∧ r.correlation = c

/-- A use of this kind, one of those given, finds the entry pending. -/
def Finds (d : Shared) (uses : List Use) (c : Correlation) (key : EntryKey)
    (kind : Shared → Use → Prop) : Prop :=
  ∃ first u rest, uses = first ++ u :: rest ∧ (d.run first).cache.state.Reserves c key ∧
    kind (d.run first) u

theorem answerable_run (h : d.cache.state.Answerable) (hs : d.cache.state.WellFormed)
    (uses : List Use) : (d.run uses).cache.state.Answerable := by
  induction uses generalizing d with
  | nil => exact h
  | cons u rest ih =>
    refine ih ?_ (wellFormed_use hs u)
    rw [state_use]
    cases d.operation? u with
    | none => exact h
    | some operation => exact h.apply hs operation

theorem promise_run {p : Nat} (hs : d.cache.state.WellFormed)
    (hlt : p < d.cache.state.promises.length) (hne : d.cache.state.promise p ≠ .pending)
    (uses : List Use) : (d.run uses).cache.state.promise p = d.cache.state.promise p := by
  obtain ⟨kept, hc⟩ := changes_run hs uses
  exact hc.promise_eq hlt hne

theorem reserves_use (h : d.cache.state.Reserves c key) (hs : d.cache.state.WellFormed) (u : Use) :
    (d.use u).cache.state.Reserves c key ∨ (∃ response, d.Stores u c response) ∨
      d.Abandons u c := by
  rw [state_use]
  cases hop : d.operation? u with
  | none => exact .inl h
  | some operation =>
    obtain hr | ⟨now, r, response, o, rfl, hr, -⟩ | ⟨r, rfl, hr, -⟩ := h.apply_cases hs operation
    · exact .inl hr
    · exact .inr (.inl ⟨response, now, r, o, hop, hr⟩)
    · exact .inr (.inr ⟨r, hop, hr⟩)

theorem Finds.cons {uses : List Use} {kind : Shared → Use → Prop}
    (h : (d.use u).Finds uses c key kind) : d.Finds (u :: uses) c key kind := by
  obtain ⟨first, v, rest, rfl, hr, hv⟩ := h
  exact ⟨u :: first, v, rest, rfl, hr, hv⟩

theorem fate (h : d.cache.state.Reserves c key) (hs : d.cache.state.WellFormed) (uses : List Use) :
    (d.run uses).cache.state.Reserves c key ∨
      (∃ response, d.Finds uses c key (·.Stores · c response)) ∨
      d.Finds uses c key (·.Abandons · c) := by
  induction uses generalizing d with
  | nil => exact .inl h
  | cons u rest ih =>
    obtain hr | ⟨response, hu⟩ | hu := reserves_use h hs u
    · obtain hr | ⟨response, hr⟩ | hr := ih hr (wellFormed_use hs u)
      · exact .inl hr
      · exact .inr (.inl ⟨response, hr.cons⟩)
      · exact .inr (.inr hr.cons)
    · exact .inr (.inl ⟨response, [], u, rest, rfl, h, hu⟩)
    · exact .inr (.inr ⟨[], u, rest, rfl, h, hu⟩)

theorem Finds.promise {uses : List Use} {kind : Shared → Use → Prop} {p : Promise}
    (h : d.Finds uses c key kind) (hs : d.cache.state.WellFormed) (hne : p ≠ .pending)
    (hk : ∀ {d : Shared} {u}, d.cache.state.WellFormed → d.cache.state.Reserves c key → kind d u →
      (d.use u).cache.state.promise key.serial = p) :
    (d.run uses).cache.state.promise key.serial = p := by
  obtain ⟨first, u, rest, rfl, hr, hu⟩ := h
  have hfirst := wellFormed_run hs first
  have hp := hk hfirst hr hu
  obtain ⟨kept, hc⟩ := changes_use hfirst u
  obtain ⟨entry, hg, -⟩ := hr.exists_entry
  have hlt := (hfirst.serial_lt hg).trans_le hc.length_le
  rw [run_append]
  exact (promise_run hc.wellFormed hlt (hp ▸ hne) rest).trans hp

theorem promise_of_stores (hs : d.cache.state.WellFormed) (hr : d.cache.state.Reserves c key)
    (h : d.Stores u c response) : (d.use u).cache.state.promise key.serial = .stored response := by
  obtain ⟨now, r, o, hop, rfl⟩ := h
  rw [state_use, hop]
  exact hr.promise_store hs now response o

theorem promise_of_abandons (hs : d.cache.state.WellFormed) (hr : d.cache.state.Reserves c key)
    (h : d.Abandons u c) : (d.use u).cache.state.promise key.serial = .evicted := by
  obtain ⟨r, hop, rfl⟩ := h
  rw [state_use, hop]
  exact (hr.promise_abandon hs).2

theorem promise_iff (h : d.cache.state.Reserves c key) (hs : d.cache.state.WellFormed)
    (uses : List Use) :
    ((d.run uses).cache.state.promise key.serial = .pending ↔
      (d.run uses).cache.state.Reserves c key) ∧
    (∀ response, (d.run uses).cache.state.promise key.serial = .stored response ↔
      d.Finds uses c key (·.Stores · c response)) ∧
    ((d.run uses).cache.state.promise key.serial = .evicted ↔
      d.Finds uses c key (·.Abandons · c)) := by
  have hpending : (d.run uses).cache.state.Reserves c key →
      (d.run uses).cache.state.promise key.serial = .pending :=
    fun hr => hr.promise (wellFormed_run hs uses)
  have hstored : ∀ response, d.Finds uses c key (·.Stores · c response) →
      (d.run uses).cache.state.promise key.serial = .stored response :=
    fun _ hf => hf.promise hs nofun promise_of_stores
  have habandoned : d.Finds uses c key (·.Abandons · c) →
      (d.run uses).cache.state.promise key.serial = .evicted :=
    fun hf => hf.promise hs nofun promise_of_abandons
  obtain hr | ⟨response, hr⟩ | hr := fate h hs uses
  · have hp := hpending hr
    refine ⟨iff_of_true hp hr, fun response => ⟨fun hc => ?_, hstored response⟩,
      fun hc => ?_, habandoned⟩ <;> cases hp.symm.trans hc
  · have hp := hstored response hr
    refine ⟨⟨fun hc => ?_, hpending⟩, fun other => ⟨fun hc => ?_, hstored other⟩,
      fun hc => ?_, habandoned⟩ <;> cases hp.symm.trans hc
    exact hr
  · have hp := habandoned hr
    refine ⟨⟨fun hc => ?_, hpending⟩, fun other => ⟨fun hc => ?_, hstored other⟩,
      iff_of_true hp hr⟩ <;> cases hp.symm.trans hc

theorem retrieve_eq_serial_iff (h : d.cache.state.Reserves c key) (hs : d.cache.state.WellFormed)
    (uses : List Use) (now : Nat) (r : CommandRequest) (cacheable acrossInvokers : Bool) :
    ((d.run uses).cache.retrieve now r cacheable acrossInvokers).1 = some key.serial ↔
      (d.run uses).cache.state.found? now r cacheable acrossInvokers = some key := by
  have hfst : ((d.run uses).cache.retrieve now r cacheable acrossInvokers).1 =
      ((d.run uses).cache.state.found? now r cacheable acrossInvokers).map EntryKey.serial :=
    State.retrieve_fst ..
  rw [hfst, Option.map_eq_some_iff]
  constructor
  · rintro ⟨k, hk, hserial⟩
    obtain ⟨kept, hc⟩ := changes_run hs uses
    obtain ⟨entry, hg, -⟩ := h.exists_entry
    obtain ⟨other, ho⟩ := hc.wellFormed.exists_get?_of_found? hk
    obtain ⟨old, hold, -, -⟩ := hc.entry_of ho (hserial ▸ hs.serial_lt hg)
    rw [hk, hs.key_eq hold hg hserial]
  · exact fun hk => ⟨key, hk, rfl⟩

theorem reserves_of_miss {now : Nat} {r : CommandRequest} {cacheable acrossInvokers : Bool}
    (hs : d.cache.state.WellFormed)
    (hu : d.operation? u = some (.retrieve now r cacheable acrossInvokers))
    (hmiss : (d.cache.retrieve now r cacheable acrossInvokers).1 = none) :
    (d.use u).cache.state.Reserves r.correlation d.cache.state.nextKey := by
  have hmiss' : (d.cache.state.retrieve now r cacheable acrossInvokers).1 = none := hmiss
  rw [state_use, hu, Option.elim_some, Operation.apply]
  obtain ⟨p, hr⟩ | ⟨hn, hr⟩ := d.cache.state.retrieve_cases now r cacheable acrossInvokers
  · rw [hr] at hmiss'
    cases hmiss'
  · rw [hr]
    exact hs.reserves_register hn _

/-- A response that is stored for its request once more changes nothing, and one that is stored for
another request leaves the entry as it is, or evicts it. -/
theorem store_run_of_settled (h : d.cache.state.Reserves c key) (hs : d.cache.state.WellFormed)
    {uses : List Use} {entry : Entry}
    (hg : (d.run uses).cache.state.entries.get? key = some entry)
    (hn : (d.run uses).cache.state.promise key.serial ≠ .pending) (now : Nat)
    (r : CommandRequest) (response : Message) (o : StoreOptions) :
    (r.correlation = c →
      (d.run uses).cache.state.store now r response o = (d.run uses).cache.state) ∧
    (((d.run uses).cache.state.store now r response o).entries.get? key = some entry ∨
      entry.benefit ≠ none ∧
        ((d.run uses).cache.state.store now r response o).entries.get? key = none) := by
  obtain ⟨kept, hc⟩ := changes_run hs uses
  have hnot : ∀ b, ¬ (d.run uses).cache.state.Reserves b key := fun b hr =>
    hn (hr.promise hc.wellFormed)
  refine ⟨?_, hc.wellFormed.spares_store now r response o key entry hg (hnot _)⟩
  rintro rfl
  obtain ⟨old, ho, hcorr⟩ := (hs.key?_iff _ _).mp h.key?
  obtain ⟨old', ho', hcorr', -⟩ := hc.entry_of hg (hs.serial_lt ho)
  obtain rfl := Option.some_inj.mp (ho.symm.trans ho')
  have hkey := hc.wellFormed.key?_of_get? hg
  rw [← hcorr', hcorr] at hkey
  refine hc.wellFormed.store_of_not_reserves ?_ now response o
  rintro ⟨k, hk⟩
  obtain rfl := Option.some_inj.mp (hkey.symm.trans hk.key?)
  exact hnot _ hk

/-- After any run a look-up or a reservation finds nothing and registers an entry. Whatever follows,
every handle that is found for this entry, and for no other, is its promise. The promise is open
exactly while the entry is registered and pending, holds the response exactly if a store found the
entry pending and brought this response, and has failed exactly if the entry was abandoned while it
was pending. From then on nothing changes the promise, and no store the entry but by evicting it. No
handle that is found is one that has failed. -/
theorem handle_follows_entry (config : Config) (before after : List Use) (u : Use) (now : Nat)
    (r : CommandRequest) (cacheable acrossInvokers : Bool)
    (hu : ((start config).run before).operation? u =
      some (.retrieve now r cacheable acrossInvokers))
    (hmiss : (((start config).run before).cache.retrieve now r cacheable acrossInvokers).1 = none) :
    let key := ((start config).run before).cache.state.nextKey
    let registered := ((start config).run before).use u
    let d := registered.run after
    (∀ now r cacheable acrossInvokers,
      ((d.cache.retrieve now r cacheable acrossInvokers).1 = some key.serial ↔
        d.cache.state.found? now r cacheable acrossInvokers = some key) ∧
      ∀ p, (d.cache.retrieve now r cacheable acrossInvokers).1 = some p →
        d.cache.state.promise p ≠ .evicted) ∧
    (d.cache.state.promise key.serial = .pending ↔
      d.cache.state.Reserves r.correlation key) ∧
    (∀ response, d.cache.state.promise key.serial = .stored response ↔
      registered.Finds after r.correlation key (·.Stores · r.correlation response)) ∧
    (d.cache.state.promise key.serial = .evicted ↔
      registered.Finds after r.correlation key (·.Abandons · r.correlation)) ∧
    (d.cache.state.promise key.serial ≠ .pending →
      (∀ later, (d.run later).cache.state.promise key.serial =
        d.cache.state.promise key.serial) ∧
      ∀ entry now r' response o, d.cache.state.entries.get? key = some entry →
        (r'.correlation = r.correlation →
          d.cache.state.store now r' response o = d.cache.state) ∧
        ((d.cache.state.store now r' response o).entries.get? key = some entry ∨
          entry.benefit ≠ none ∧
            (d.cache.state.store now r' response o).entries.get? key = none)) := by
  intro key registered d
  have hbefore := wellFormed_start config before
  have hs : registered.cache.state.WellFormed := wellFormed_use hbefore u
  have hreserves : registered.cache.state.Reserves r.correlation key :=
    reserves_of_miss hbefore hu hmiss
  have hd : d.cache.state.WellFormed := wellFormed_run hs after
  have hanswerable : d.cache.state.Answerable := by
    have hrun : d = (start config).run (before ++ u :: after) :=
      (run_append (start config) before (u :: after)).symm
    rw [hrun]
    exact answerable_run (State.Answerable.empty config) (State.WellFormed.empty config) _
  obtain ⟨hpending, hstored, habandoned⟩ := promise_iff hreserves hs after
  refine ⟨fun now r cacheable acrossInvokers => ⟨retrieve_eq_serial_iff hreserves hs after _ _ _ _,
    fun p hp => ?_⟩, hpending, hstored, habandoned, fun hn => ⟨fun later => ?_, ?_⟩⟩
  · exact hanswerable.promise_of_retrieve hd hp
  · obtain ⟨kept, hc⟩ := changes_run hs after
    obtain ⟨entry, hg, -⟩ := hreserves.exists_entry
    exact promise_run hd ((hs.serial_lt hg).trans_le hc.length_le) hn later
  · intro entry now r' response o hg
    exact store_run_of_settled hreserves hs hg hn now r' response o

/-- The first of two responses is what a handle gives, also after its entry has been abandoned in
vain and has expired. -/
theorem first_response_kept :
    let r : CommandRequest := ⟨"cmd", "inv", "t", [1], [2]⟩
    let o : StoreOptions := ⟨false, 10, ⟨0⟩, 0⟩
    let before := [.setStarted true]
    let after : List Use := [.fill ⟨0, 0⟩ 0 { topic := "reply", payload := [3] } o,
      .store 0 r { topic := "reply", payload := [4] } o, .abandon r, .expireOne 10]
    let d := (((start {}).run before).use (.reserve 0 r false false)).run after
    d.cache.state.promise 0 = .stored { topic := "reply", payload := [3] } := by
  intro r o before after d
  obtain ⟨-, -, hstored, -⟩ := handle_follows_entry {} before after (.reserve 0 r false false) 0 r
    false false rfl rfl
  refine (hstored _).mpr ⟨[], _, _, rfl, ⟨rfl, _, rfl, rfl⟩, 0, r, o, rfl, rfl⟩

end Shared

end CommandBus.Cache
