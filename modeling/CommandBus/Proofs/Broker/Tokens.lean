import CommandBus.Proofs.Chunk.Handover
import Mathlib

namespace CommandBus

namespace AckLedger

variable {l : AckLedger} {token : AckToken} {n : Nat}

def note (acknowledged : List Nat) (n : Nat) : List Nat :=
  if n ∈ acknowledged then acknowledged else acknowledged ++ [n]

theorem acknowledged_acknowledge (l : AckLedger) (token : AckToken) :
    (l.acknowledge token).acknowledged = token.messages.foldl note l.acknowledged := by
  have hfold : ∀ (messages taken : List Nat),
      l.acknowledged ++ messages.foldl (fun taken n =>
          if l.acknowledged.contains n || taken.contains n then taken else taken ++ [n]) taken =
        messages.foldl note (l.acknowledged ++ taken) := by
    intro messages
    induction messages with
    | nil => exact fun _ => rfl
    | cons n rest ih =>
      intro taken
      rw [List.foldl_cons, List.foldl_cons, ih, note]
      congr 1
      simp only [List.mem_append, Bool.or_eq_true, List.contains_iff_mem]
      split
      · rfl
      · exact (List.append_assoc ..).symm
  have h := hfold token.messages []
  rwa [List.append_nil] at h

theorem acknowledge_join (l : AckLedger) (tokens : List AckToken) :
    l.acknowledge (.join tokens) = tokens.foldl acknowledge l := by
  have hacknowledged : ∀ l : AckLedger, (l.acknowledge (.join tokens)).acknowledged =
      (tokens.foldl acknowledge l).acknowledged := by
    induction tokens with
    | nil => exact fun l => acknowledged_acknowledge l _
    | cons token rest ih =>
      intro l
      rw [List.foldl_cons, ← ih, acknowledged_acknowledge, acknowledged_acknowledge,
        acknowledged_acknowledge, AckToken.join, AckToken.join, List.flatMap_cons,
        List.foldl_append]
  have hissued : (tokens.foldl acknowledge l).issued = l.issued := by
    clear hacknowledged
    induction tokens generalizing l with
    | nil => rfl
    | cons token rest ih => exact ih (l.acknowledge token)
  have h := hacknowledged l
  generalize tokens.foldl acknowledge l = l' at h hissued
  obtain ⟨issued, acknowledged⟩ := l'
  cases hissued
  cases h
  rfl

theorem nodup_note {acknowledged : List Nat} (h : acknowledged.Nodup) (n : Nat) :
    (note acknowledged n).Nodup := by
  rw [note]
  split
  next => exact h
  next hn => exact h.append (List.nodup_singleton n) (by simpa using hn)

theorem nodup_acknowledge (h : l.acknowledged.Nodup) (token : AckToken) :
    (l.acknowledge token).acknowledged.Nodup := by
  rw [acknowledged_acknowledge]
  generalize l.acknowledged = acknowledged at h
  generalize token.messages = messages
  induction messages generalizing acknowledged with
  | nil => exact h
  | cons n rest ih => exact ih _ (nodup_note h n)

end AckLedger

/-- What is done with tokens. They are known by the order in which they were made. -/
inductive TokenStep
  | issue
  | noop
  | clone (token : Nat)
  | join (parts : List Nat)
  | acknowledge (token : Nat)
  deriving DecidableEq

def TokenStep.isMaking : TokenStep → Bool
  | acknowledge _ => false
  | _ => true

structure Tokens where
  ledger : AckLedger := {}
  made : List AckToken := []

namespace Tokens

def token (s : Tokens) (i : Nat) : AckToken :=
  s.made[i]?.getD .none

def step (s : Tokens) : TokenStep → Tokens
  | .issue => { ledger := s.ledger.issue.2, made := s.made ++ [s.ledger.issue.1] }
  | .noop => { s with made := s.made ++ [.none] }
  | .clone i => { s with made := s.made ++ [s.token i] }
  | .join parts => { s with made := s.made ++ [.join (parts.map s.token)] }
  | .acknowledge i => { s with ledger := s.ledger.acknowledge (s.token i) }

def after : List TokenStep → Tokens
  | [] => {}
  | a :: past => (after past).step a

def madeIn (past : List TokenStep) : Nat :=
  past.countP TokenStep.isMaking

def issuedIn (past : List TokenStep) : Nat :=
  past.count .issue

/-- After these steps a token covers a message. What a token covers is settled when it is made. -/
inductive Covers : List TokenStep → Nat → Nat → Prop
  | issue (past : List TokenStep) : Covers (.issue :: past) (madeIn past) (issuedIn past)
  | clone {past : List TokenStep} {i n : Nat} (h : Covers past i n) :
      Covers (.clone i :: past) (madeIn past) n
  | join {past : List TokenStep} {parts : List Nat} {i n : Nat} (hi : i ∈ parts)
      (h : Covers past i n) : Covers (.join parts :: past) (madeIn past) n
  | later {past : List TokenStep} {i n : Nat} (a : TokenStep) (h : Covers past i n) :
      Covers (a :: past) i n

def MadeBy (past : List TokenStep) (i : Nat) (a : TokenStep) : Prop :=
  ∃ before, a :: before <:+ past ∧ a.isMaking = true ∧ madeIn before = i

variable {past : List TokenStep} {i n : Nat}

theorem length_made (past : List TokenStep) : (after past).made.length = madeIn past := by
  induction past with
  | nil => rfl
  | cons a past ih =>
    rw [after, madeIn, List.countP_cons, ← madeIn, ← ih]
    cases a <;> simp [step, TokenStep.isMaking]

theorem issued_ledger (past : List TokenStep) : (after past).ledger.issued = issuedIn past := by
  induction past with
  | nil => rfl
  | cons a past ih =>
    rw [after, issuedIn, List.count_cons, ← issuedIn, ← ih]
    cases a <;> rfl

theorem token_of_le (h : madeIn past ≤ i) : (after past).token i = .none := by
  rw [token, List.getElem?_eq_none (by rwa [length_made]), Option.getD_none]

theorem token_concat (past : List TokenStep) (l : AckLedger) (t : AckToken) (i : Nat) :
    token ⟨l, (after past).made ++ [t]⟩ i =
      if i = madeIn past then t else (after past).token i := by
  rw [token, token, ← length_made]
  split
  next h => rw [h, List.getElem?_concat_length, Option.getD_some]
  next h =>
    obtain hlt | hlt := Nat.lt_or_gt_of_ne h
    · rw [List.getElem?_append_left hlt]
    · rw [List.getElem?_eq_none (by simpa using hlt), List.getElem?_eq_none hlt.le]

def Includes (past : List TokenStep) (n : Nat) : TokenStep → Prop
  | .issue => n = issuedIn past
  | .noop => False
  | .clone i => Covers past i n
  | .join parts => ∃ i ∈ parts, Covers past i n
  | .acknowledge _ => False

theorem covers_cons_iff {a : TokenStep} :
    Covers (a :: past) i n ↔ Covers past i n ∨ i = madeIn past ∧ Includes past n a := by
  constructor
  · rintro (_ | h | ⟨hi, h⟩ | ⟨-, h⟩)
    · exact .inr ⟨rfl, rfl⟩
    · exact .inr ⟨rfl, h⟩
    · exact .inr ⟨rfl, _, hi, h⟩
    · exact .inl h
  · rintro (h | ⟨rfl, h⟩)
    · exact h.later a
    · cases a with
      | issue => exact h ▸ .issue past
      | noop | acknowledge => exact h.elim
      | clone => exact .clone h
      | join parts =>
        obtain ⟨j, hj, h⟩ := h
        exact .join hj h

theorem mem_messages_iff : n ∈ ((after past).token i).messages ↔ Covers past i n := by
  induction past generalizing i n with
  | nil => exact ⟨fun h => absurd h List.not_mem_nil, fun h => nomatch h⟩
  | cons a past ih =>
    have hnew : ¬ Covers past (madeIn past) n := by
      rw [← ih, token_of_le le_rfl]
      exact List.not_mem_nil
    have hmade (l : AckLedger) (t : AckToken) (ht : n ∈ t.messages ↔ Includes past n a) :
        n ∈ (token ⟨l, (after past).made ++ [t]⟩ i).messages ↔ Covers (a :: past) i n := by
      rw [token_concat, covers_cons_iff]
      by_cases hi : i = madeIn past
      · simp [hi, hnew, ht]
      · simp [hi, ih]
    cases a with
    | issue => exact hmade _ _ (by simp [AckLedger.issue, Includes, issued_ledger])
    | noop => exact hmade _ _ (by simp [AckToken.none, Includes])
    | clone j => exact hmade _ _ ih
    | join parts =>
      refine hmade _ _ ?_
      simp only [AckToken.join, List.mem_flatMap, List.mem_map, exists_exists_and_eq_and, ih,
        Includes]
    | acknowledge j =>
      rw [covers_cons_iff]
      exact ih.trans (or_iff_left fun h => h.2).symm

theorem mem_acknowledged_iff : n ∈ (after past).ledger.acknowledged ↔
    ∃ i before, .acknowledge i :: before <:+ past ∧ Covers before i n := by
  induction past with
  | nil => simp [after]
  | cons a past ih =>
    have hcons : (∃ i before, .acknowledge i :: before <:+ a :: past ∧ Covers before i n) ↔
        n ∈ (after past).ledger.acknowledged ∨ ∃ i, a = .acknowledge i ∧ Covers past i n := by
      rw [ih]
      simp only [List.suffix_cons_iff, List.cons.injEq]
      constructor
      · rintro ⟨i, before, ⟨rfl, rfl⟩ | h, hc⟩
        · exact .inr ⟨i, rfl, hc⟩
        · exact .inl ⟨i, before, h, hc⟩
      · rintro (⟨i, before, h, hc⟩ | ⟨i, rfl, hc⟩)
        · exact ⟨i, before, .inr h, hc⟩
        · exact ⟨i, past, .inl ⟨rfl, rfl⟩, hc⟩
    rw [hcons]
    cases a with
    | acknowledge i =>
      rw [after, step, AckLedger.mem_acknowledge, mem_messages_iff]
      simp
    | issue | noop | clone | join => simp [after, step, AckLedger.issue]

theorem token_of_suffix {before : List TokenStep} (h : before <:+ past) (hi : i < madeIn before) :
    (after past).token i = (after before).token i := by
  induction past with
  | nil => rw [List.suffix_nil.mp h]
  | cons a past ih =>
    obtain rfl | h := List.suffix_cons_iff.mp h
    · rfl
    · have hlt : i < madeIn past := hi.trans_le (h.sublist.countP_le)
      rw [← ih h]
      cases a with
      | acknowledge j => rfl
      | issue | noop | clone | join => exact (token_concat past _ _ i).trans (if_neg hlt.ne)

theorem madeIn_lt {a : TokenStep} (ha : a.isMaking = true) (past : List TokenStep) :
    madeIn past < madeIn (a :: past) := by
  rw [madeIn, madeIn, List.countP_cons_of_pos ha]
  exact Nat.lt_succ_self _

theorem token_of_clone {j : Nat} (h : MadeBy past i (.clone j)) (hj : j < i) :
    (after past).token i = (after past).token j := by
  obtain ⟨before, hsuffix, ha, rfl⟩ := h
  have hself : (after (.clone j :: before)).token (madeIn before) = _ :=
    (token_concat before _ _ _).trans (if_pos rfl)
  have hbefore : before <:+ past := (List.suffix_cons _ before).trans hsuffix
  rw [token_of_suffix hsuffix (madeIn_lt ha before), hself, token_of_suffix hbefore hj]

theorem token_of_join {parts : List Nat} (h : MadeBy past i (.join parts))
    (hparts : ∀ j ∈ parts, j < i) :
    (after past).token i = .join (parts.map (after past).token) := by
  obtain ⟨before, hsuffix, ha, rfl⟩ := h
  have hself : (after (.join parts :: before)).token (madeIn before) = _ :=
    (token_concat before _ _ _).trans (if_pos rfl)
  have hbefore : before <:+ past := (List.suffix_cons _ before).trans hsuffix
  rw [token_of_suffix hsuffix (madeIn_lt ha before), hself]
  congr 1
  exact List.map_congr_left fun j hj => (token_of_suffix hbefore (hparts j hj)).symm

theorem foldl_acknowledge (s : Tokens) (parts : List Nat) :
    (parts.map TokenStep.acknowledge).foldl step s =
      { s with ledger := (parts.map s.token).foldl AckLedger.acknowledge s.ledger } := by
  induction parts generalizing s with
  | nil => rfl
  | cons i rest ih => exact ih (s.step (.acknowledge i))

theorem nodup_acknowledged (past : List TokenStep) :
    (after past).ledger.acknowledged.Nodup := by
  induction past with
  | nil => exact List.nodup_nil
  | cons a past ih =>
    cases a with
    | acknowledge i => exact AckLedger.nodup_acknowledge ih _
    | issue | noop | clone | join => exact ih

/-- However tokens are made and acknowledged: every message is acknowledged once at most, by the
first token that covers it and by nothing else; a clone acknowledges as the token itself, and a
token that is joined of others as these would one after the other; and a token is acknowledged
exactly if all messages are that it covers. -/
theorem acknowledged_once (past : List TokenStep) :
    (after past).ledger.acknowledged.Nodup ∧
    (∀ i, ∃ now, (after (.acknowledge i :: past)).ledger.acknowledged =
        (after past).ledger.acknowledged ++ now ∧
      ∀ n, n ∈ now ↔ Covers past i n ∧
        ¬ ∃ j before, .acknowledge j :: before <:+ past ∧ Covers before j n) ∧
    (∀ a : TokenStep, a.isMaking = true →
      (after (a :: past)).ledger.acknowledged = (after past).ledger.acknowledged) ∧
    (∀ i j, MadeBy past i (.clone j) → j < i →
      (after past).step (.acknowledge i) = (after past).step (.acknowledge j)) ∧
    (∀ i parts, MadeBy past i (.join parts) → (∀ j ∈ parts, j < i) →
      (after past).step (.acknowledge i) =
        (parts.map TokenStep.acknowledge).foldl step (after past)) ∧
    ∀ i, (after past).ledger.isAcknowledged ((after past).token i) = true ↔
      ∀ n, Covers past i n → n ∈ (after past).ledger.acknowledged := by
  refine ⟨nodup_acknowledged past, fun i => ⟨_, rfl, fun n => ?_⟩, fun a ha => ?_,
    fun i j hi hj => ?_, fun i parts hi hparts => ?_, fun i => ?_⟩
  · rw [AckLedger.mem_fresh, mem_messages_iff, mem_acknowledged_iff]
  · cases a with
    | acknowledge i => cases ha
    | issue | noop | clone | join => rfl
  · rw [step, step, token_of_clone hi hj]
  · rw [foldl_acknowledge, step, token_of_join hi hparts, AckLedger.acknowledge_join]
  · rw [AckLedger.isAcknowledged_iff]
    simp only [List.subset_def, mem_messages_iff]

/-- Three messages, of which the second is acknowledged; the third under a clone is joined with the
first, and that with itself and the second. -/
def overlapping : List TokenStep :=
  [.join [4, 1, 4], .join [3, 0], .clone 2, .acknowledge 1, .issue, .issue, .issue]

theorem overlapping_acknowledged_in_order :
    (after (.acknowledge 5 :: overlapping)).ledger.acknowledged = [1, 2, 0] ∧
    (after overlapping).step (.acknowledge 5) =
      [.acknowledge 4, .acknowledge 1, .acknowledge 4].foldl step (after overlapping) ∧
    (after overlapping).step (.acknowledge 3) = (after overlapping).step (.acknowledge 2) := by
  obtain ⟨-, -, -, hclone, hjoin, -⟩ := acknowledged_once overlapping
  refine ⟨rfl, hjoin 5 [4, 1, 4] ⟨_, List.suffix_refl _, rfl, rfl⟩ (by decide), ?_⟩
  exact hclone 3 2 ⟨_, ⟨[.join [4, 1, 4], .join [3, 0]], rfl⟩, rfl, rfl⟩ (by decide)

end Tokens

end CommandBus
