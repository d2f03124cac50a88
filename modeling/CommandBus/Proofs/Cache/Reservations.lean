import CommandBus.Proofs.Cache.Handles
import Mathlib

namespace CommandBus.Cache

namespace Use

def reservation? : Use → Option EntryKey
  | .fill key _ _ _ | .drop key => some key
  | _ => none

/-- The request that is stored or abandoned past all reservations. -/
def request? : Use → Option CommandRequest
  | .store _ r _ _ | .abandon r => some r
  | _ => none

end Use

namespace Shared

variable {d : Shared} {u : Use} {key k : EntryKey} {r : CommandRequest} {c : Correlation}

theorem mem_held (h : d.request? key = some r) : (key, r) ∈ d.held :=
  Association.mem_of_lookup h

theorem mem_held_release {f : CommandRequest → Cache → Cache}
    (h : (k, r) ∈ (d.release key f).held) : (k, r) ∈ d.held ∧ k ≠ key := by
  unfold release at h
  split at h
  next =>
    obtain ⟨hm, hk⟩ := List.mem_filter.mp h
    exact ⟨hm, bne_iff_ne.mp hk⟩
  next hn =>
    refine ⟨h, ?_⟩
    rintro rfl
    simpa using List.lookup_eq_none_iff.mp hn _ h

theorem mem_held_use (h : (k, r) ∈ (d.use u).held) :
    (k, r) ∈ d.held ∧ u.reservation? ≠ some k ∨
      k = d.cache.state.nextKey ∧ ∃ now cacheable acrossInvokers,
        d.operation? u = some (.retrieve now r cacheable acrossInvokers) ∧
        (d.cache.retrieve now r cacheable acrossInvokers).1 = none := by
  cases u with
  | retrieve | store | abandon | trim | expireOne | setConfig | setStarted =>
    exact .inl ⟨h, Option.some_ne_none k ∘ Eq.symm⟩
  | reserve now r' cacheable acrossInvokers =>
    cases hr : (d.cache.state.retrieve now r' cacheable acrossInvokers).1 with
    | some p =>
      rw [use, reserve_of_hit hr] at h
      exact .inl ⟨h, Option.some_ne_none k ∘ Eq.symm⟩
    | none =>
      rw [use, reserve_of_miss hr] at h
      obtain heq | hm := List.mem_cons.mp h
      · cases heq
        exact .inr ⟨rfl, now, cacheable, acrossInvokers, rfl, hr⟩
      · exact .inl ⟨hm, Option.some_ne_none k ∘ Eq.symm⟩
  | fill key now response o =>
    obtain ⟨hm, hk⟩ := mem_held_release h
    exact .inl ⟨hm, fun heq => hk (Option.some_inj.mp heq).symm⟩
  | drop key =>
    obtain ⟨hm, hk⟩ := mem_held_release h
    exact .inl ⟨hm, fun heq => hk (Option.some_inj.mp heq).symm⟩

/-- A reservation whose promise is open holds the entry that was registered for it. -/
def Accounted (d : Shared) : Prop :=
  ∀ key r, (key, r) ∈ d.held → key.serial < d.cache.state.promises.length ∧
    (d.cache.state.promise key.serial = .pending → d.cache.state.Reserves r.correlation key)

theorem Accounted.use (h : d.Accounted) (hs : d.cache.state.WellFormed) (u : Use) :
    (d.use u).Accounted := by
  intro k r hm
  obtain ⟨kept, hc⟩ := changes_use hs u
  obtain ⟨hm, -⟩ | ⟨rfl, now, cacheable, acrossInvokers, hop, hmiss⟩ := mem_held_use hm
  · obtain ⟨hlt, hreserves⟩ := h k r hm
    refine ⟨hlt.trans_le hc.length_le, fun hp => ?_⟩
    have hr := hreserves (hc.pending_of_pending hlt hp)
    obtain hr' | ⟨response, hu⟩ | hu := reserves_use hr hs u
    · exact hr'
    · cases (promise_of_stores hs hr hu).symm.trans hp
    · cases (promise_of_abandons hs hr hu).symm.trans hp
  · have hr := Shared.reserves_of_miss hs hop hmiss
    obtain ⟨entry, hg, -⟩ := hr.exists_entry
    exact ⟨hc.wellFormed.serial_lt hg, fun _ => hr⟩

theorem Accounted.run (h : d.Accounted) (hs : d.cache.state.WellFormed) (uses : List Use) :
    (d.run uses).Accounted := by
  induction uses generalizing d with
  | nil => exact h
  | cons u rest ih => exact ih (h.use hs u) (wellFormed_use hs u)

/-- Using a reservation leaves all entries but its own as they are, evictions apart, and leaves
everything as it is if its own entry is gone or complete. -/
structure TouchesOwn (d : Shared) (u : Use) (key : EntryKey) : Prop where
  spares : State.Spares d.cache.state (d.use u).cache.state (· = key)
  unchanged : d.cache.state.promise key.serial ≠ .pending →
    (d.use u).cache.state = d.cache.state

def settlement (d : Shared) : Use → Promise
  | .fill _ _ response _ => if d.cache.isStarted then .stored response else .evicted
  | _ => .evicted

theorem operation_of_reservation (hu : u.reservation? = some key) (hr : d.request? key = some r) :
    (∃ now response o, d.operation? u = some (.store now r response o) ∧
      d.settlement u = .stored response) ∨
    d.operation? u = some (.abandon r) ∧ d.settlement u = .evicted := by
  cases u with
  | retrieve | reserve | store | abandon | trim | expireOne | setConfig | setStarted => cases hu
  | fill key now response o =>
    cases hu
    rw [operation?, hr, Option.map_some, storing?, settlement]
    split
    · exact .inl ⟨now, response, o, rfl, rfl⟩
    · exact .inr ⟨rfl, rfl⟩
  | drop key =>
    cases hu
    rw [operation?, hr]
    exact .inr ⟨rfl, rfl⟩

theorem touches_pending (hs : d.cache.state.WellFormed) (hu : u.reservation? = some key)
    (hr : d.request? key = some r) :
    State.Spares d.cache.state (d.use u).cache.state (d.cache.state.Reserves r.correlation) ∧
      ((¬ ∃ k, d.cache.state.Reserves r.correlation k) →
        (d.use u).cache.state = d.cache.state) ∧
      ∀ k, d.cache.state.Reserves r.correlation k →
        (d.use u).cache.state.promise k.serial = d.settlement u := by
  obtain ⟨now, response, o, hop, hsettle⟩ | ⟨hop, hsettle⟩ := operation_of_reservation hu hr
  · refine ⟨?_, fun hn => ?_, fun k hk => ?_⟩
    · rw [state_use, hop]
      exact hs.spares_store now r response o
    · rw [state_use, hop]
      exact hs.store_of_not_reserves hn now response o
    · rw [promise_of_stores hs hk ⟨now, r, o, hop, rfl⟩, hsettle]
  · refine ⟨?_, fun hn => ?_, fun k hk => ?_⟩
    · rw [state_use, hop]
      exact hs.spares_abandon r
    · rw [state_use, hop]
      exact hs.abandon_of_not_reserves hn
    · rw [promise_of_abandons hs hk ⟨r, hop, rfl⟩, hsettle]

theorem settlement_ne_pending (d : Shared) (u : Use) : d.settlement u ≠ .pending := by
  unfold settlement
  split
  · split <;> exact nofun
  · exact nofun

theorem touchesOwn_iff (hs : d.cache.state.WellFormed) (hu : u.reservation? = some key)
    (hr : d.request? key = some r) :
    d.TouchesOwn u key ↔ ¬ ∃ k ≠ key, d.cache.state.Reserves r.correlation k := by
  obtain ⟨hspares, hunchanged, hsettles⟩ := touches_pending hs hu hr
  constructor
  · rintro h ⟨k, hk, hreserves⟩
    obtain ⟨entry, hg, hp⟩ := hreserves.exists_entry
    obtain hg' | ⟨hb, -⟩ := h.spares k entry hg hk
    · have hpending := ((wellFormed_use hs u).isPending_iff hg').mp hp
      exact settlement_ne_pending d u (hsettles k hreserves ▸ hpending)
    · exact hb (hs.unscheduled hg hp).1
  · intro hn
    refine ⟨fun k entry hg hk => hspares k entry hg fun hreserves => hn ⟨k, hk, hreserves⟩,
      fun hp => hunchanged ?_⟩
    rintro ⟨k, hk⟩
    by_cases hkey : k = key
    · exact hp ((hkey ▸ hk).promise hs)
    · exact hn ⟨k, hkey, hk⟩

/-- Nobody stores or abandons a request past a reservation that is held for it. -/
def Respects (d : Shared) (u : Use) : Prop :=
  ∀ r, u.request? = some r → ∀ key r', (key, r') ∈ d.held → r'.correlation ≠ r.correlation

def RespectsAll : Shared → List Use → Prop
  | _, [] => True
  | d, u :: rest => d.Respects u ∧ (d.use u).RespectsAll rest

/-- Every reservation holds the pending entry that was registered for it. -/
def Holding (d : Shared) : Prop :=
  ∀ key r, (key, r) ∈ d.held → d.cache.state.Reserves r.correlation key

theorem source_of_operation {operation : Operation} (hop : d.operation? u = some operation)
    (h : (∃ now response o, operation = .store now r response o) ∨ operation = .abandon r) :
    u.request? = some r ∨ ∃ key, u.reservation? = some key ∧ d.request? key = some r := by
  cases u with
  | retrieve | reserve | trim | expireOne | setConfig | setStarted =>
    obtain ⟨_, _, _, rfl⟩ | rfl := h <;> cases hop
  | store now r' response o =>
    rw [operation?, storing?] at hop
    split at hop <;> cases hop
    obtain ⟨_, _, _, heq⟩ | heq := h <;> cases heq
    exact .inl rfl
  | abandon r' =>
    cases hop
    obtain ⟨_, _, _, heq⟩ | heq := h <;> cases heq
    exact .inl rfl
  | fill key now response o =>
    obtain ⟨r', hr, heq⟩ := Option.map_eq_some_iff.mp hop
    refine .inr ⟨key, rfl, ?_⟩
    unfold storing? at heq
    split at heq <;> obtain ⟨_, _, _, rfl⟩ | rfl := h <;> cases heq <;> exact hr
  | drop key =>
    obtain ⟨r', hr, heq⟩ := Option.map_eq_some_iff.mp hop
    obtain ⟨_, _, _, rfl⟩ | rfl := h <;> cases heq
    exact .inr ⟨key, rfl, hr⟩

theorem Holding.use (h : d.Holding) (hs : d.cache.state.WellFormed) (hrespects : d.Respects u) :
    (d.use u).Holding := by
  intro k r hm
  obtain ⟨hm, hk⟩ | ⟨rfl, now, cacheable, acrossInvokers, hop, hmiss⟩ := mem_held_use hm
  · -- no other request is stored or abandoned in a way that would reach this entry
    have hapart : ∀ r', u.request? = some r' ∨
        (∃ key, u.reservation? = some key ∧ d.request? key = some r') →
        r'.correlation ≠ r.correlation := by
      rintro r' (hr | ⟨key, hu, hr⟩) heq
      · exact hrespects r' hr k r hm heq.symm
      · obtain rfl := (h k r hm).unique (heq ▸ h key r' (mem_held hr))
        exact hk hu
    obtain hr | ⟨response, now, r', o, hop, heq⟩ | ⟨r', hop, heq⟩ := reserves_use (h k r hm) hs u
    · exact hr
    · exact absurd heq (hapart r' (source_of_operation hop (.inl ⟨now, response, o, rfl⟩)))
    · exact absurd heq (hapart r' (source_of_operation hop (.inr rfl)))
  · exact Shared.reserves_of_miss hs hop hmiss

theorem Holding.run (h : d.Holding) (hs : d.cache.state.WellFormed) {uses : List Use}
    (hrespects : d.RespectsAll uses) : (d.run uses).Holding := by
  induction uses generalizing d with
  | nil => exact h
  | cons u rest ih => exact ih (h.use hs hrespects.1) (wellFormed_use hs u) hrespects.2

/-- After any run, filling or dropping a reservation touches its own entry alone exactly if no other
entry that is pending is registered for its request; and it settles its own entry if that is
pending. It always touches its own entry alone if nobody has gone past a reservation. -/
theorem reservation_touches_own_iff (config : Config) (uses : List Use) (u : Use) (key : EntryKey)
    (r : CommandRequest) (hu : u.reservation? = some key)
    (hr : ((start config).run uses).request? key = some r) :
    let d := (start config).run uses
    (d.TouchesOwn u key ↔ ¬ ∃ k ≠ key, d.cache.state.Reserves r.correlation k) ∧
      (d.cache.state.promise key.serial = .pending →
        (d.use u).cache.state.promise key.serial = d.settlement u) ∧
      ((start config).RespectsAll uses → d.TouchesOwn u key) := by
  intro d
  have hs : d.cache.state.WellFormed := wellFormed_start config uses
  have haccounted : d.Accounted :=
    Accounted.run (fun _ _ hm => absurd hm List.not_mem_nil) (State.WellFormed.empty config) uses
  refine ⟨touchesOwn_iff hs hu hr, fun hp => ?_, fun hrespects => ?_⟩
  · exact (touches_pending hs hu hr).2.2 key ((haccounted key r (mem_held hr)).2 hp)
  · have hholding : d.Holding :=
      Holding.run (fun _ _ hm => absurd hm List.not_mem_nil) (State.WellFormed.empty config)
        hrespects
    refine (touchesOwn_iff hs hu hr).mpr ?_
    rintro ⟨k, hk, hreserves⟩
    exact hk (hreserves.unique (hholding key r (mem_held hr)))

/-- A reservation that is dropped takes nothing but its own entry with it. -/
theorem dropped_reservation_touches_own :
    let r : CommandRequest := ⟨"cmd", "inv", "t", [1], [2]⟩
    let other : CommandRequest := ⟨"cmd", "inv", "t", [2], [2]⟩
    let d := (start {}).run [.reserve 0 r false false, .reserve 0 other false false]
    d.TouchesOwn (.drop ⟨0, 0⟩) ⟨0, 0⟩ := by
  intro r other d
  refine (reservation_touches_own_iff {} _ (.drop ⟨0, 0⟩) ⟨0, 0⟩ r rfl rfl).2.2 ?_
  exact ⟨nofun, nofun, trivial⟩

/-- The entry of a reservation is abandoned, and its request is reserved again. The first
reservation then takes the entry of the second one away. -/
theorem stale_reservation_removes_newer :
    let r : CommandRequest := ⟨"cmd", "inv", "t", [1], [2]⟩
    let d := (start {}).run [.reserve 0 r false false, .abandon r, .reserve 0 r false false]
    d.held = [(⟨0, 1⟩, r), (⟨0, 0⟩, r)] ∧ d.cache.state.promise 0 = .evicted ∧
      d.cache.state.Reserves r.correlation ⟨0, 1⟩ ∧
      (d.use (.drop ⟨0, 0⟩)).cache.state.promise 1 = .evicted ∧
      ¬ d.TouchesOwn (.drop ⟨0, 0⟩) ⟨0, 0⟩ := by
  intro r d
  have hnewer : d.cache.state.Reserves r.correlation ⟨0, 1⟩ := ⟨rfl, _, rfl, rfl⟩
  refine ⟨rfl, rfl, hnewer, rfl, fun h => ?_⟩
  obtain ⟨entry, hg, -⟩ := hnewer.exists_entry
  cases (h.spares _ _ hg (by decide)).resolve_right fun hb => hb.1 (by cases hg; rfl)

end Shared

end CommandBus.Cache
