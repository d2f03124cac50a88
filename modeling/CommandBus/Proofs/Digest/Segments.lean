import CommandBus.Checksum
import Mathlib

namespace CommandBus

namespace Digest

variable {size : Nat} {bs rest : Bytes}

theorem firstGroups_add (size m n : Nat) (bs : Bytes) :
    firstGroups size (m + n) bs =
      firstGroups size m bs ++ firstGroups size n (bs.drop (size * m)) := by
  induction m generalizing bs with
  | zero => simp [firstGroups]
  | succ m ih =>
    rw [Nat.succ_add, firstGroups, firstGroups, ih, List.drop_drop, List.cons_append,
      Nat.mul_succ, Nat.add_comm size]

theorem firstGroups_append {m : Nat} (h : size * m ≤ bs.length) (rest : Bytes) :
    firstGroups size m (bs ++ rest) = firstGroups size m bs := by
  induction m generalizing bs with
  | zero => rfl
  | succ m ih =>
    have hsize : size ≤ bs.length := by
      rw [Nat.mul_succ] at h
      omega
    have hdrop : size * m ≤ (bs.drop size).length := by
      rw [List.length_drop]
      rw [Nat.mul_succ] at h
      omega
    rw [firstGroups, firstGroups, List.take_append_of_le_length hsize,
      List.drop_append_of_le_length hsize, ih hdrop]

def leftOver (size : Nat) (bs : Bytes) : Bytes :=
  bs.drop (size * (bs.length / size))

theorem length_div_append (hsize : 0 < size) (bs rest : Bytes) :
    (bs ++ rest).length / size =
      bs.length / size + (leftOver size bs ++ rest).length / size := by
  have hle : size * (bs.length / size) ≤ bs.length := Nat.mul_div_le ..
  have hlength : (bs ++ rest).length =
      (leftOver size bs ++ rest).length + size * (bs.length / size) := by
    simp only [leftOver, List.length_append, List.length_drop]
    omega
  rw [hlength, Nat.add_mul_div_left _ _ hsize, Nat.add_comm]

theorem groups_append (hsize : 0 < size) (bs rest : Bytes) :
    groups size (bs ++ rest) = groups size bs ++ groups size (leftOver size bs ++ rest) := by
  have hle : size * (bs.length / size) ≤ bs.length := Nat.mul_div_le ..
  rw [groups, length_div_append hsize, firstGroups_add, firstGroups_append hle,
    List.drop_append_of_le_length hle]
  rfl

theorem leftOver_append (hsize : 0 < size) (bs rest : Bytes) :
    leftOver size (bs ++ rest) = leftOver size (leftOver size bs ++ rest) := by
  have hle : size * (bs.length / size) ≤ bs.length := Nat.mul_div_le ..
  rw [leftOver, length_div_append hsize, Nat.mul_add, ← List.drop_drop,
    List.drop_append_of_le_length hle]
  rfl

namespace Scheme

variable {σ : Type} (d : Scheme σ) {h : Hasher σ} {seen : Bytes}

structure Digested (h : Hasher σ) (seen : Bytes) : Prop where
  state : h.state = (groups 64 seen).foldl d.compress d.start
  waiting : h.waiting = leftOver 64 seen
  length : h.length = seen.length

variable {d}

theorem Digested.update (hd : d.Digested h seen) (segment : Bytes) :
    d.Digested (d.update h segment) (seen ++ segment) where
  state := by
    rw [Scheme.update, hd.state, hd.waiting, groups_append (by decide) seen, List.foldl_append]
  waiting := by
    rw [Scheme.update, hd.waiting, leftOver_append (by decide) seen]
    rfl
  length := by
    rw [List.length_append, ← hd.length]
    rfl

theorem Digested.finish (hd : d.Digested h seen) : d.finish h = d.digest seen := by
  rw [Scheme.finish, digest, hd.state, hd.waiting, hd.length, groups_append (by decide) seen,
    List.foldl_append]

variable (d)

theorem digested_foldl (hd : d.Digested h seen) (segments : List Bytes) :
    d.Digested (segments.foldl d.update h) (seen ++ segments.flatten) := by
  induction segments generalizing h seen with
  | nil => rwa [List.flatten_nil, List.append_nil]
  | cons segment rest ih =>
    rw [List.flatten_cons, ← List.append_assoc]
    exact ih (hd.update segment)

theorem digestSegments_eq (segments : List Bytes) :
    d.digestSegments segments = d.digest segments.flatten := by
  have hstart : d.Digested { state := d.start } [] := ⟨rfl, rfl, rfl⟩
  exact (d.digested_foldl hstart segments).finish

end Scheme

end Digest

namespace Checksum

theorem computeSegments_eq (algorithm : ChecksumAlgorithm) (segments : List Bytes) :
    computeSegments algorithm segments = compute algorithm segments.flatten := by
  cases algorithm <;> simp only [computeSegments, compute, Digest.Scheme.digestSegments_eq]

theorem segmentsMatchHex_eq (algorithm : ChecksumAlgorithm) (segments : List Bytes) :
    segmentsMatchHex algorithm segments = matchesHex algorithm segments.flatten := by
  funext expected
  rw [segmentsMatchHex, matchesHex, computeSegments_eq]

end Checksum

end CommandBus
