import CommandBus.Proofs.Cache.Arising
import CommandBus.Proofs.Cache.Handles
import Mathlib

namespace CommandBus.Cache.State

variable {s : State} {key : EntryKey} {entry : Entry} {c : Correlation} {p : Nat}
  {operations : List Operation}

/-- The request that an operation gives this promise for, and whether other invokers may have the
response to it. -/
def registers (p : Nat) (s : State) : Operation → Option (CommandRequest × Bool)
  | .retrieve now r cacheable acrossInvokers =>
    if (s.retrieve now r cacheable acrossInvokers).1 = none ∧ s.promises.length = p then
      some (r, acrossInvokers)
    else none
  | _ => none

def registration? (s : State) (operations : List Operation) (p : Nat) :
    Option (CommandRequest × Bool) :=
  firstOf (registers p) s operations

/-- What is known of the request for which the promise was given agrees with its entry. -/
def AgreesOn (p : Nat) (s : State) (told : Option (CommandRequest × Bool)) : Prop :=
  (told.isSome = true → p < s.promises.length) ∧
    ∀ key entry, s.entries.get? key = some entry → key.serial = p →
      ∃ r acrossInvokers, told = some (r, acrossInvokers) ∧
        entry.correlation = r.correlation ∧
        ∀ content, entry.content = some content → content = r.content acrossInvokers

theorem registers_isSome {operation : Operation} (h : (registers p s operation).isSome = true) :
    s.promises.length = p ∧ (operation.apply s).promises.length = p + 1 := by
  cases operation with
  | retrieve now r cacheable acrossInvokers =>
    rw [registers] at h
    split at h
    next hmiss =>
      obtain ⟨hmiss, rfl⟩ := hmiss
      refine ⟨rfl, ?_⟩
      obtain ⟨q, hr⟩ | ⟨-, hr⟩ := s.retrieve_cases now r cacheable acrossInvokers
      · rw [hr] at hmiss
        cases hmiss
      · rw [Operation.apply, hr]
        exact length_register ..
    next => cases h
  | store | abandon | trim | expireOne | nextDeadline | setConfig => cases h

theorem AgreesOn.apply (hs : s.WellFormed) {told : Option (CommandRequest × Bool)}
    (operation : Operation) (h : AgreesOn p s told) :
    AgreesOn p (operation.apply s) (told.or (registers p s operation)) := by
  obtain ⟨hlt, hentry⟩ := h
  obtain ⟨kept, hc⟩ := hs.changes_apply operation
  refine ⟨fun hsome => ?_, fun key entry hg hp => ?_⟩
  · obtain h | h : told.isSome = true ∨ (registers p s operation).isSome = true := by
      simpa using hsome
    · exact (hlt h).trans_le hc.length_le
    · rw [(registers_isSome h).2]
      exact Nat.lt_succ_self p
  · -- an entry that was there before has kept its correlation and its content
    have hold : ∀ {old}, s.entries.get? key = some old → old.correlation = entry.correlation →
        old.content = entry.content → ∃ r acrossInvokers,
          told.or (registers p s operation) = some (r, acrossInvokers) ∧
          entry.correlation = r.correlation ∧
          ∀ content, entry.content = some content → content = r.content acrossInvokers := by
      intro old ho hcorr hcont
      obtain ⟨r, acrossInvokers, rfl, hr, hcontent⟩ := hentry key old ho hp
      exact ⟨r, acrossInvokers, Option.some_or, hcorr ▸ hr, hcont ▸ hcontent⟩
    cases hs.arises hg with
    | kept ho => exact hold ho rfl rfl
    | @registered now r cacheable acrossInvokers hmiss =>
      have hserial : s.promises.length = p := hs.serial_nextKey.symm.trans hp
      have hnone : told = none := by
        by_contra hne
        exact (hlt (Option.isSome_iff_ne_none.mpr hne)).ne hserial.symm
      refine ⟨r, acrossInvokers, ?_, rfl, fun content hcontent => ?_⟩
      · rw [hnone, Option.none_or, registers, if_pos ⟨hmiss, hserial⟩]
      · exact (Option.some_inj.mp (Option.ite_none_right_eq_some.mp hcontent).2).symm
    | completed he | stranded he => exact hold (hs.entry?_eq_some.mp he).1 rfl rfl
    | moved ho => exact hold ho rfl rfl

/-- A pending entry that is found stored at the end of a run was stored by one of its operations. -/
theorem Reserves.store_mem (h : s.Reserves c key) (hs : s.WellFormed) {m : Message}
    (hp : (s.run operations).promise key.serial = .stored m) :
    ∃ now r o, .store now r m o ∈ operations ∧ r.correlation = c := by
  induction operations generalizing s with
  | nil => cases (h.promise hs).symm.trans hp
  | cons operation rest ih =>
    have hs' := hs.apply operation
    obtain ⟨kept, hc⟩ := hs.changes_apply operation
    obtain ⟨kept', hrest⟩ := hs'.changes_run rest
    have hlt : key.serial < (operation.apply s).promises.length := by
      obtain ⟨entry, hg, -⟩ := h.exists_entry
      exact (hs.serial_lt hg).trans_le hc.length_le
    -- what the operation settles stays so for the rest of the run
    have hsettled : ∀ {q}, (operation.apply s).promise key.serial = q → q ≠ .pending →
        q = .stored m := fun hq hne => by
      have := hrest.promise_eq hlt (hq ▸ hne)
      exact hq.symm.trans (this.symm.trans hp)
    obtain hr | ⟨now, r, response, o, rfl, hr, hq⟩ | ⟨r, rfl, -, -, hq⟩ :=
      h.apply_cases hs operation
    · obtain ⟨now, r, o, hm, hr⟩ := ih hr hs' hp
      exact ⟨now, r, o, List.mem_cons_of_mem _ hm, hr⟩
    · cases hsettled hq nofun
      exact ⟨now, r, o, List.mem_cons_self, hr⟩
    · cases hsettled hq nofun

theorem WellFormed.store_of_registration? (hs : s.WellFormed) {r : CommandRequest}
    {acrossInvokers : Bool} (h : s.registration? operations p = some (r, acrossInvokers))
    {m : Message} (hp : (s.run operations).promise p = .stored m) :
    ∃ now r' o, .store now r' m o ∈ operations ∧ r'.correlation = r.correlation := by
  obtain ⟨before, operation, after, rfl, htells⟩ := exists_of_firstOf h
  have hbefore := hs.run before
  cases operation with
  | retrieve now r' cacheable acrossInvokers' =>
    obtain ⟨⟨hmiss, rfl⟩, heq⟩ := Option.ite_none_right_eq_some.mp htells
    cases heq
    obtain ⟨q, hr⟩ | ⟨hn, hr⟩ := (s.run before).retrieve_cases now r cacheable acrossInvokers
    · rw [hr] at hmiss
      cases hmiss
    · have hreserves := hbefore.reserves_register hn
        (if cacheable then some (r.content acrossInvokers) else none)
      have happly : Operation.apply (.retrieve now r cacheable acrossInvokers) (s.run before) =
          (s.run before).register r.correlation
            (if cacheable then some (r.content acrossInvokers) else none) := by
        rw [Operation.apply, hr]
      have hrun : s.run (before ++ .retrieve now r cacheable acrossInvokers :: after) =
          ((s.run before).register r.correlation
            (if cacheable then some (r.content acrossInvokers) else none)).run after := by
        rw [run_append, ← happly]
        rfl
      rw [hrun, ← hbefore.serial_nextKey] at hp
      obtain ⟨time, r', o, hm, hr'⟩ :=
        hreserves.store_mem (hbefore.changes_register hn _).wellFormed hp
      exact ⟨time, r', o, List.mem_append_right _ (List.mem_cons_of_mem _ hm), hr'⟩
  | store | abandon | trim | expireOne | nextDeadline | setConfig => cases htells

theorem agreesOn_run (config : Config) (operations : List Operation) (p : Nat) :
    AgreesOn p (({ config } : State).run operations)
      (({ config } : State).registration? operations p) := by
  have hempty : AgreesOn p { config } none := by
    refine ⟨nofun, fun key entry hg => ?_⟩
    simp [Slots.get?] at hg
  have hrun := firstOf_run (P := AgreesOn p) (fun operation hs h => h.apply hs operation)
    (WellFormed.empty config) hempty operations
  rwa [Option.none_or] at hrun

/-- The contents of two requests agree, one of them with its invoker named: then the invokers differ
exactly if that one has none and the other may be shared. -/
theorem invokerId_ne_iff {r r' : CommandRequest} {acrossInvokers : Bool}
    (h : r.content false = r'.content acrossInvokers) :
    r'.commandName = r.commandName ∧ r'.payload = r.payload ∧
      (r'.invokerId ≠ r.invokerId ↔
        r.invokerId = "" ∧ acrossInvokers = true ∧ r'.invokerId ≠ "") := by
  obtain ⟨hname, hinvoker, hpayload⟩ := Content.mk.inj h
  refine ⟨hname.symm, hpayload.symm, ?_⟩
  cases acrossInvokers with
  | false =>
    have heq : r'.invokerId = r.invokerId := hinvoker.symm
    simp [heq]
  | true =>
    have heq : r.invokerId = "" := hinvoker
    simp [heq]

/-- After any run, a look-up that is not to reach across invokers finds a promise, and not for its
own correlation. The promise was given for a request with the same command and payload, and any
response it holds was stored for the correlation of that request. That request has another invoker
exactly if the look-up has none, the request has one, and other invokers may have its response. -/
theorem found_of_other_invoker_iff (config : Config) (operations : List Operation) (now : Nat)
    (r : CommandRequest) (cacheable : Bool) (p : Nat)
    (hk : (({ config } : State).run operations).key? r.correlation = none)
    (hp : ((({ config } : State).run operations).retrieve now r cacheable false).1 = some p) :
    ∃ r' acrossInvokers,
      ({ config } : State).registration? operations p = some (r', acrossInvokers) ∧
      r'.commandName = r.commandName ∧ r'.payload = r.payload ∧
      (r'.invokerId ≠ r.invokerId ↔
        r.invokerId = "" ∧ acrossInvokers = true ∧ r'.invokerId ≠ "") ∧
      ∀ m, (({ config } : State).run operations).promise p = .stored m →
        ∃ time r'' o, .store time r'' m o ∈ operations ∧ r''.correlation = r'.correlation := by
  have hs : (({ config } : State).run operations).WellFormed := (WellFormed.empty config).run _
  have hsound := ((Sound.empty config).run operations).1
  have hlinked : (({ config } : State).run operations).Linked := fun content reuse hm => by
    obtain ⟨entry, hg, hc, -⟩ := hsound.agrees.exists_entry hm
    exact ⟨entry, hg, hc⟩
  obtain ⟨key, entry, hg, rfl, hcorr | ⟨-, hcontent⟩⟩ := hs.entry_of_retrieve hlinked hp
  · have := hs.key?_of_get? hg
    rw [hcorr, hk] at this
    cases this
  · obtain ⟨r', acrossInvokers, hreg, -, hall⟩ :=
      (agreesOn_run config operations key.serial).2 key entry hg rfl
    obtain ⟨hname, hpayload, hinvoker⟩ := invokerId_ne_iff (hall _ hcontent)
    exact ⟨r', acrossInvokers, hreg, hname, hpayload, hinvoker, fun m hm =>
      (WellFormed.empty config).store_of_registration? hreg hm⟩

/-- One invoker finds its own response again under another correlation. -/
theorem own_response_found :
    let r : CommandRequest := ⟨"cmd", "inv", "t", [1], [2]⟩
    let other : CommandRequest := ⟨"cmd", "inv", "t", [2], [2]⟩
    let operations : List Operation := [.retrieve 0 r true false,
      .store 0 r { topic := "reply", payload := [3] } ⟨true, 10, ⟨0⟩, 20⟩]
    ∃ r' acrossInvokers,
      ({} : State).registration? operations 0 = some (r', acrossInvokers) ∧
      (r'.invokerId ≠ other.invokerId ↔
        other.invokerId = "" ∧ acrossInvokers = true ∧ r'.invokerId ≠ "") := by
  intro r other operations
  obtain ⟨r', acrossInvokers, hreg, -, -, hinvoker, -⟩ :=
    found_of_other_invoker_iff {} operations 0 other true 0 (by decide +kernel) (by decide +kernel)
  exact ⟨r', acrossInvokers, hreg, hinvoker⟩

/-- A response that all invokers may have is found by a request without an invoker, in a look-up
that is not to reach across invokers. -/
theorem shared_response_reaches_anonymous :
    let r : CommandRequest := ⟨"cmd", "inv", "t", [1], [2]⟩
    let anonymous : CommandRequest := ⟨"cmd", "", "t", [2], [2]⟩
    let operations : List Operation := [.retrieve 0 r true true,
      .store 0 r { topic := "reply", payload := [3] } ⟨true, 10, ⟨0⟩, 20⟩]
    let s := ({} : State).run operations
    s.key? anonymous.correlation = none ∧ (s.retrieve 0 anonymous true false).1 = some 0 ∧
      s.promise 0 = .stored { topic := "reply", payload := [3] } ∧
      ({} : State).registration? operations 0 = some (r, true) ∧
      r.invokerId ≠ anonymous.invokerId := by
  decide +kernel

end CommandBus.Cache.State
