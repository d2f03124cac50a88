import CommandBus.Proofs.Cache.Arising
import CommandBus.Proofs.Cache.Doubles
import Mathlib

namespace CommandBus.Cache

/-- What the entry is worth is a number, in its window and in the one deferred. -/
structure Entry.HasNumbers (entry : Entry) : Prop where
  benefit : ∀ b, entry.benefit = some b → b.isNaN = false
  deferred : ∀ d, entry.deferred = some d → d.benefit.isNaN = false

namespace State

variable {s : State} {key : EntryKey} {entry : Entry} {operations : List Operation}

/-- The operation stores a response that counts nothing in one of its windows. -/
def StoresNothing (s : State) : Operation → Prop
  | .store _ r response o => ∃ key entry requestBytes,
    s.entry? r.correlation = some (key, entry) ∧ entry.isPending = true ∧
    (requestBytes = 0 ∨ requestBytes = entry.content.elim 0 (·.payload.length)) ∧
    s.config.CountsNothing requestBytes response.payload.length o.execution
  | _ => False

def StoresSomething : State → List Operation → Prop
  | _, [] => True
  | s, operation :: rest =>
    ¬s.StoresNothing operation ∧ StoresSomething (operation.apply s) rest

theorem benefit_of_windows {now requestBytes responseBytes reuseUntil : Nat} {o : StoreOptions}
    {d : Retention} (h : d ∈ s.windows now requestBytes responseBytes reuseUntil o) :
    ∃ bytes, (bytes = 0 ∨ bytes = requestBytes) ∧
      d.benefit = s.config.benefit bytes responseBytes o.execution := by
  have hm := List.mem_of_mem_filter h
  split at hm
  · obtain rfl | hm := List.mem_cons.mp hm
    · exact ⟨requestBytes, .inr rfl, rfl⟩
    · obtain rfl := List.mem_singleton.mp hm
      exact ⟨0, .inl rfl, rfl⟩
  · obtain rfl | hm := List.mem_cons.mp hm
    · exact ⟨0, .inl rfl, rfl⟩
    · obtain rfl := List.mem_singleton.mp hm
      exact ⟨requestBytes, .inr rfl, rfl⟩

theorem hasNumbers_scheduled {first : Retention} {deferred : Option Retention}
    (hfirst : first.benefit.isNaN = false)
    (hdeferred : ∀ d, deferred = some d → d.benefit.isNaN = false) :
    (scheduled first deferred entry).HasNumbers := by
  refine ⟨fun b hb => ?_, hdeferred⟩
  obtain ⟨-, hb⟩ := Option.ite_none_right_eq_some.mp hb
  exact Option.some_inj.mp hb ▸ hfirst

theorem WellFormed.hasNumbers_of_arises (hs : s.WellFormed) {operation : Operation}
    (h : ∀ {k other}, s.entries.get? k = some other → other.HasNumbers)
    (hn : ¬s.StoresNothing operation)
    (hg : (operation.apply s).entries.get? key = some entry) : entry.HasNumbers := by
  cases hs.arises hg with
  | kept hg => exact h hg
  | registered => exact ⟨nofun, nofun⟩
  | stranded he =>
    have hold := h (hs.entry?_eq_some.mp he).1
    exact ⟨hold.benefit, hold.deferred⟩
  | @completed now r response o key old _ requestBytes first rest he hp hbytes hw =>
    have hnumber : ∀ d ∈ first :: rest, d.benefit.isNaN = false := by
      intro d hd
      obtain ⟨bytes, hb, hbenefit⟩ := benefit_of_windows (hw ▸ hd)
      by_contra hnan
      rw [hbenefit, Bool.not_eq_false, Config.isNaN_benefit_iff] at hnan
      exact hn ⟨key, old, bytes, he, hp, hbytes ▸ hb, hnan⟩
    exact hasNumbers_scheduled (hnumber first List.mem_cons_self) fun d hd =>
      hnumber d (List.mem_cons_of_mem _ (List.mem_of_mem_head? hd))
  | moved ho _ _ _ hd => exact hasNumbers_scheduled ((h ho).deferred _ hd) nofun

theorem WellFormed.hasNumbers_run (hs : s.WellFormed)
    (h : ∀ {k other}, s.entries.get? k = some other → other.HasNumbers)
    (hn : s.StoresSomething operations)
    (hg : (s.run operations).entries.get? key = some entry) : entry.HasNumbers := by
  induction operations generalizing s with
  | nil => exact h hg
  | cons operation rest ih =>
    exact ih (hs.apply operation) (fun ho => hs.hasNumbers_of_arises h hn.1 ho) hn.2 hg

end State

end CommandBus.Cache
