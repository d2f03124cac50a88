import CommandBus.Uuid
import Mathlib

namespace CommandBus

namespace Bytes

theorem hexDigit_injOn : Set.InjOn hexDigit (Set.Iio 16) := by
  have hdigits : ∀ m n : Fin 16, hexDigit m = hexDigit n → m = n := by decide
  intro m hm n hn h
  exact congrArg Fin.val (hdigits ⟨m, hm⟩ ⟨n, hn⟩ h)

theorem hex_injective : Function.Injective hex := by
  intro a
  induction a with
  | nil =>
    intro b h
    cases b with
    | nil => rfl
    | cons y b => simp [hex] at h
  | cons x a ih =>
    intro b h
    cases b with
    | nil => simp [hex] at h
    | cons y b =>
      obtain ⟨hhigh, hlow, hrest⟩ : hexDigit (x.toNat / 16) = hexDigit (y.toNat / 16) ∧
          hexDigit (x.toNat % 16) = hexDigit (y.toNat % 16) ∧ hex a = hex b := by
        simpa [hex] using h
      have hx := x.toNat_lt
      have hy := y.toNat_lt
      have hdiv := hexDigit_injOn (show x.toNat / 16 < 16 by omega)
        (show y.toNat / 16 < 16 by omega) hhigh
      have hmod := hexDigit_injOn (show x.toNat % 16 < 16 by omega)
        (show y.toNat % 16 < 16 by omega) hlow
      have hxy : x = y := UInt8.toNat_inj.mp (by omega)
      rw [hxy, ih hrest]

@[simp] theorem length_hex (a : Bytes) : (hex a).length = 2 * a.length := by
  induction a with
  | nil => rfl
  | cons x a ih =>
    have : (hex (x :: a)).length = 2 + (hex a).length := by simp [hex]; omega
    rw [this, ih, List.length_cons]
    omega

end Bytes

namespace Uuid

theorem length_ofIndex (n : Nat) : (ofIndex n).length = 16 := by
  rw [ofIndex, List.length_map, List.length_range]

/-- The groups of a text are as long as the bytes before them, so two identifiers with one text
have the same groups. -/
theorem text_injOn : Set.InjOn text { id | id.length = 16 } := by
  intro a ha b hb h
  have ha : a.length = 16 := ha
  have hb : b.length = 16 := hb
  have hgroups := String.ofList_injective h
  simp only [List.append_assoc, List.cons_append] at hgroups
  have hlen (start size : Nat) : (Bytes.hex ((a.drop start).take size)).length =
      (Bytes.hex ((b.drop start).take size)).length := by
    simp [ha, hb]
  obtain ⟨h₁, hgroups⟩ := List.append_inj hgroups (hlen 0 4)
  obtain ⟨h₂, hgroups⟩ := List.append_inj (List.cons.inj hgroups).2 (hlen 4 2)
  obtain ⟨h₃, hgroups⟩ := List.append_inj (List.cons.inj hgroups).2 (hlen 6 2)
  obtain ⟨h₄, hgroups⟩ := List.append_inj (List.cons.inj hgroups).2 (hlen 8 2)
  have h₅ := (List.cons.inj hgroups).2
  have hsplit {c : Bytes} (hc : c.length = 16) : c = (c.drop 0).take 4 ++ ((c.drop 4).take 2 ++
      ((c.drop 6).take 2 ++ ((c.drop 8).take 2 ++ (c.drop 10).take 6))) := by
    have htail : (c.drop 10).take 6 = c.drop 10 := List.take_of_length_le (by simp [hc])
    have hjoin (start size : Nat) :
        (c.drop start).take size ++ c.drop (start + size) = c.drop start := by
      rw [← List.drop_drop, List.take_append_drop]
    rw [htail, hjoin 8 2, hjoin 6 2, hjoin 4 2, hjoin 0 4, List.drop_zero]
  rw [hsplit ha, hsplit hb, Bytes.hex_injective h₁, Bytes.hex_injective h₂,
    Bytes.hex_injective h₃, Bytes.hex_injective h₄, Bytes.hex_injective h₅]

end Uuid

end CommandBus
