import CommandBus.Cache.State
import CommandBus.Proofs.Association
import Mathlib

namespace CommandBus.Cache

namespace Slots

variable {α : Type} (s : Slots α)

theorem get?_insert (h : ∀ key a, s.get? key = some a → key.serial < s.next) (a : α)
    (key : EntryKey) :
    (s.insert a).2.get? key = if key = (s.insert a).1 then some a else s.get? key := by
  have hn : s.get? (s.insert a).1 = none := by
    cases hg : s.get? (s.insert a).1 with
    | none => rfl
    | some b => exact absurd (h _ b hg) (Nat.lt_irrefl _)
  have hg : (s.insert a).2.get? key = (s.get? key).or ([((s.insert a).1, a)].lookup key) :=
    List.lookup_append
  rw [hg]
  by_cases hk : key = (s.insert a).1
  · rw [hk, hn, if_pos rfl]
    simp
  · rw [if_neg hk]
    simp [List.lookup_cons, beq_false_of_ne hk]

theorem get?_modify (key : EntryKey) (f : α → α) (k : EntryKey) :
    (s.modify key f).get? k = if k = key then (s.get? k).map f else s.get? k := by
  have h : (s.modify key f).get? k = (s.get? k).map fun a => if k = key then f a else a :=
    Association.lookup_map_value s.entries (fun k a => if k = key then f a else a) k
  rw [h]
  split
  · rfl
  · exact Option.map_id'

theorem get?_remove (key k : EntryKey) :
    (s.remove key).get? k = if k = key then none else s.get? k :=
  Association.lookup_filter_ne s.entries key k

end Slots

namespace State

variable {s : State} {key : EntryKey} {entry : Entry}

theorem length_settle (s : State) (serial : Nat) (p : Promise) :
    (s.settle serial p).promises.length = s.promises.length :=
  List.length_modify ..

theorem promise_settle (s : State) (serial q : Nat) (p : Promise) (h : serial < s.promises.length) :
    (s.settle serial p).promise q =
      if q = serial ∧ s.promise q = .pending then p else s.promise q := by
  rw [promise, settle, List.getElem?_modify, promise]
  by_cases hq : q = serial
  · subst hq
    rw [List.getElem?_eq_getElem h]
    by_cases hp : s.promises[q] = .pending <;> simp [hp]
  · simp [hq, Ne.symm hq]

theorem promise_of_le {p : Nat} (h : s.promises.length ≤ p) : s.promise p = .evicted := by
  rw [promise, List.getElem?_eq_none h, Option.getD_none]

theorem lt_of_promise_ne {p : Nat} (h : s.promise p ≠ .evicted) : p < s.promises.length :=
  not_le.mp fun hle => h (promise_of_le hle)

theorem entries_remove (h : s.entries.get? key = some entry) :
    (s.remove key).entries = s.entries.remove key := by
  simp only [remove, h]
  split <;> rfl

theorem key?_remove (h : s.entries.get? key = some entry) (c : Correlation) :
    (s.remove key).key? c = if c = entry.correlation then none else s.key? c := by
  rw [key?, key?, ← Association.lookup_filter_ne]
  simp only [remove, h]
  split <;> rfl

theorem promises_remove (h : s.entries.get? key = some entry) :
    (s.remove key).promises =
      if entry.isPending then (s.settle key.serial .evicted).promises else s.promises := by
  simp only [remove, h]
  split <;> rfl

theorem remove_frame (h : s.entries.get? key = some entry) :
    (s.remove key).byCorrelation = s.byCorrelation.filter (·.1 != entry.correlation) ∧
      ((s.remove key).byContent = s.byContent.filter fun (content, reuse) =>
        !(entry.content == some content && reuse.key == key)) ∧
      (s.remove key).totalSize = s.totalSize - entry.size := by
  simp only [remove, h]
  split <;> exact ⟨rfl, rfl, rfl⟩

theorem remove_of_none (h : s.entries.get? key = none) : s.remove key = s := by
  rw [remove, h]

def nextKey (s : State) : EntryKey :=
  ⟨s.entries.places.take.1, s.entries.next⟩

theorem key?_register (s : State) (c : Correlation) (content : Option Content)
    (b : Correlation) :
    (s.register c content).key? b =
      (s.key? b).or (if b = c then some s.nextKey else none) := by
  have h : (s.register c content).key? b =
      (s.byCorrelation ++ [(c, s.nextKey)]).lookup b := rfl
  rw [h, List.lookup_append, key?]
  by_cases hb : b = c
  · simp [hb]
  · simp [hb, List.lookup_cons, beq_false_of_ne hb]

theorem length_register (s : State) (c : Correlation) (content : Option Content) :
    (s.register c content).promises.length = s.promises.length + 1 :=
  List.length_append

theorem promise_register (s : State) (c : Correlation) (content : Option Content) (p : Nat) :
    (s.register c content).promise p =
      if p = s.promises.length then .pending else s.promise p := by
  have h : (s.register c content).promise p = (s.promises ++ [.pending])[p]?.getD .evicted := rfl
  rw [h, promise]
  obtain hp | hp | hp := Nat.lt_trichotomy p s.promises.length
  · rw [List.getElem?_append_left hp, if_neg hp.ne]
  · rw [hp, if_pos rfl, List.getElem?_concat_length, Option.getD_some]
  · have hl : (s.promises ++ [Promise.pending]).length ≤ p := by
      rw [List.length_append, List.length_singleton]
      exact hp
    rw [if_neg hp.ne', List.getElem?_eq_none hl, List.getElem?_eq_none hp.le]

end State

end CommandBus.Cache
