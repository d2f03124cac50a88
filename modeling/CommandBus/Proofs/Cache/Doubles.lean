import CommandBus.Cache.State
import Mathlib

namespace CommandBus.Cache.Doubles

open Float.Model (UnpackedFloat Format totalExponent)
open Float.Model.UnpackedFloat (Accuracy ExtendedMantissa Sign shiftToExponent shiftToTargetExponent
  roundWithAccuracy decreaseExponent)

/-- A positive number with all bits of its mantissa, and an exponent in these bounds. -/
def IsNormal (lo hi : Int) (u : UnpackedFloat) : Prop :=
  ∃ m e h, u = .finite .positive m e h ∧ m.log2 = 52 ∧ lo ≤ e ∧ e ≤ hi

variable {lo hi lo' hi' e : Int} {m : Nat} {u v : UnpackedFloat}

theorem IsNormal.mono (h : IsNormal lo hi u) (hlo : lo' ≤ lo) (hhi : hi ≤ hi') :
    IsNormal lo' hi' u := by
  obtain ⟨m, e, hm, hu, hlog, hle, hge⟩ := h
  exact ⟨m, e, hm, hu, hlog, hlo.trans hle, hge.trans hhi⟩

theorem targetExponent_eq (m : Nat) (e : Int) :
    Format.binary64.targetExponent (totalExponent m e) = max (m.log2 + e - 52) (-1074) := by
  simp only [Format.targetExponent, totalExponent, Format.mantissaBits, Format.minExponent]
  omega

theorem mantissa_shiftRight (em : ExtendedMantissa) (k : Nat) :
    (em >>> k).mantissa = em.mantissa / 2 ^ k := by
  change (k.repeat ExtendedMantissa.shiftRightOne em).mantissa = _
  induction k with
  | zero => simp [Nat.repeat]
  | succ k ih =>
    rw [Nat.repeat, ExtendedMantissa.shiftRightOne, ih, Nat.div_div_eq_div_mul, pow_succ]

theorem roundedMantissa_bounds (em : ExtendedMantissa) :
    em.mantissa ≤ em.roundedMantissa ∧ em.roundedMantissa ≤ em.mantissa + 1 := by
  obtain ⟨m, r, s⟩ := em
  cases r <;> cases s <;>
    simp only [ExtendedMantissa.roundedMantissa, ExtendedMantissa.accuracy,
      Accuracy.roundToNearestEven] <;> omega

theorem log2_div_pow (hm : 52 ≤ m.log2) : (m / 2 ^ (m.log2 - 52)).log2 = 52 := by
  have hm0 : m ≠ 0 := by
    rintro rfl
    simp at hm
  obtain ⟨hle, hlt⟩ := (Nat.log2_eq_iff hm0).mp rfl
  have hpos : 0 < 2 ^ (m.log2 - 52) := Nat.two_pow_pos _
  have hsplit : 2 ^ m.log2 = 2 ^ 52 * 2 ^ (m.log2 - 52) := by rw [← pow_add]; congr 1; omega
  have hsplit' : 2 ^ (m.log2 + 1) = 2 ^ 53 * 2 ^ (m.log2 - 52) := by
    rw [← pow_add]
    congr 1
    omega
  have hlow : 2 ^ 52 ≤ m / 2 ^ (m.log2 - 52) := (Nat.le_div_iff_mul_le hpos).mpr (hsplit ▸ hle)
  have hne : m / 2 ^ (m.log2 - 52) ≠ 0 := by omega
  exact (Nat.log2_eq_iff hne).mpr ⟨hlow, (Nat.div_lt_iff_lt_mul hpos).mpr (hsplit' ▸ hlt)⟩

theorem shiftToTargetExponent_eq (hm : 52 ≤ m.log2) (he : -1022 ≤ m.log2 + e)
    (accuracy : Accuracy) :
    (shiftToTargetExponent .binary64 m e accuracy).1.mantissa = m / 2 ^ (m.log2 - 52) ∧
      (shiftToTargetExponent .binary64 m e accuracy).2 = m.log2 + e - 52 := by
  have hshift : (max (m.log2 + e - 52) (-1074) - e).toNat = m.log2 - 52 := by omega
  have hmantissa : (ExtendedMantissa.ofMantissaAndAccuracy m accuracy).mantissa = m := by
    cases accuracy with
    | exact => rfl
    | inexact o => cases o <;> rfl
  simp only [shiftToTargetExponent, shiftToExponent, targetExponent_eq, hshift,
    mantissa_shiftRight, hmantissa, true_and]
  omega

theorem isNormal_roundWithAccuracy (hm : 52 ≤ m.log2) (hmin : -1074 ≤ lo)
    (hlo : lo + 52 ≤ m.log2 + e) (hhi : m.log2 + e ≤ hi + 51) (accuracy : Accuracy) :
    IsNormal lo hi (roundWithAccuracy .binary64 .positive m e accuracy) := by
  obtain ⟨hfirst, hexponent⟩ := shiftToTargetExponent_eq (e := e) hm (by omega) accuracy
  have hlog := log2_div_pow hm
  obtain ⟨hge, hle⟩ :=
    roundedMantissa_bounds (shiftToTargetExponent .binary64 m e accuracy).1
  rw [hfirst] at hge hle
  generalize m / 2 ^ (m.log2 - 52) = shifted at hlog hge hle
  have hshifted : shifted ≠ 0 := by
    rintro rfl
    simp at hlog
  obtain ⟨hlow, hhigh⟩ := (Nat.log2_eq_iff hshifted).mp hlog
  unfold roundWithAccuracy
  dsimp only
  rw [hexponent]
  generalize (shiftToTargetExponent .binary64 m e accuracy).1.roundedMantissa = rounded at hge hle
  -- rounding up may add a bit, which a second shift takes away
  obtain ⟨hrounded, hbits⟩ : 52 ≤ rounded.log2 ∧ rounded.log2 ≤ 53 := by
    have hne : rounded ≠ 0 := by omega
    refine ⟨(Nat.le_log2 hne).mpr (hlow.trans hge), Nat.lt_succ_iff.mp ((Nat.log2_lt hne).mpr ?_)⟩
    exact (hle.trans_lt (Nat.add_lt_add_right hhigh 1)).trans_le (by norm_num)
  obtain ⟨hsecond, hexponent'⟩ :=
    shiftToTargetExponent_eq (e := m.log2 + e - 52) hrounded (by omega) .exact
  have hfinal := log2_div_pow hrounded
  have hne : (shiftToTargetExponent .binary64 rounded (m.log2 + e - 52) .exact).1.mantissa ≠ 0 := by
    intro hzero
    rw [← hsecond, hzero] at hfinal
    simp at hfinal
  rw [dif_neg hne]
  exact ⟨_, _, _, rfl, hsecond ▸ hfinal, by omega, by omega⟩

theorem log2_shiftLeft (hm : m ≠ 0) (k : Nat) : (m <<< k).log2 = m.log2 + k := by
  obtain ⟨hle, hlt⟩ := (Nat.log2_eq_iff hm).mp rfl
  rw [Nat.shiftLeft_eq]
  have hpos : 0 < m * 2 ^ k := Nat.mul_pos (Nat.pos_of_ne_zero hm) (Nat.two_pow_pos k)
  refine (Nat.log2_eq_iff hpos.ne').mpr ⟨?_, ?_⟩
  · rw [pow_add]
    exact Nat.mul_le_mul_right _ hle
  · rw [Nat.add_right_comm, pow_add]
    exact Nat.mul_lt_mul_of_pos_right hlt (Nat.two_pow_pos k)

theorem isNormal_round (hm : m ≠ 0) (hmin : -1074 ≤ lo) (hlo : lo + 52 ≤ m.log2 + e)
    (hhi : m.log2 + e ≤ hi + 51) :
    IsNormal lo hi (UnpackedFloat.round .binary64 .positive m e) := by
  have hshift : (e - max (m.log2 + e - 52) (-1074)).toNat = 52 - m.log2 := by omega
  simp only [UnpackedFloat.round, targetExponent_eq, decreaseExponent, hshift]
  have hlog := log2_shiftLeft hm (52 - m.log2)
  exact isNormal_roundWithAccuracy (by omega) hmin (by omega) (by omega) .exact

theorem isNormal_normalize (hm : m ≠ 0) (hmin : -1074 ≤ lo) (hlo : lo + 52 ≤ m.log2 + e)
    (hhi : m.log2 + e ≤ hi + 51) :
    IsNormal lo hi (UnpackedFloat.normalize .binary64 m e .positive) := by
  rw [UnpackedFloat.normalize, Int.compare_eq_gt.mpr (by omega)]
  exact isNormal_round hm hmin hlo hhi

theorem log2_add {a b : Nat} (ha : a ≠ 0) (hb : b ≠ 0) :
    max a.log2 b.log2 ≤ (a + b).log2 ∧ (a + b).log2 ≤ max a.log2 b.log2 + 1 := by
  have hab : a + b ≠ 0 := by omega
  obtain ⟨hla, hga⟩ := (Nat.log2_eq_iff ha).mp rfl
  obtain ⟨hlb, hgb⟩ := (Nat.log2_eq_iff hb).mp rfl
  refine ⟨max_le ((Nat.le_log2 hab).mpr (by omega)) ((Nat.le_log2 hab).mpr (by omega)), ?_⟩
  refine Nat.lt_succ_iff.mp ((Nat.log2_lt hab).mpr ?_)
  have hpow : ∀ {x y : Nat}, x ≤ y → 2 ^ (x + 1) ≤ 2 ^ (y + 1) := fun h =>
    Nat.pow_le_pow_right (by decide) (Nat.succ_le_succ h)
  have hsucc : 2 ^ (max a.log2 b.log2 + 1 + 1) =
      2 ^ (max a.log2 b.log2 + 1) + 2 ^ (max a.log2 b.log2 + 1) := by rw [pow_succ]; omega
  have hmaxa := hpow (le_max_left a.log2 b.log2)
  have hmaxb := hpow (le_max_right a.log2 b.log2)
  rw [Nat.succ_eq_add_one, hsucc]
  exact Nat.add_lt_add (hga.trans_le hmaxa) (hgb.trans_le hmaxb)

theorem log2_mul {a b : Nat} (ha : a ≠ 0) (hb : b ≠ 0) :
    a.log2 + b.log2 ≤ (a * b).log2 ∧ (a * b).log2 ≤ a.log2 + b.log2 + 1 := by
  have hab : a * b ≠ 0 := Nat.mul_ne_zero ha hb
  obtain ⟨hla, hga⟩ := (Nat.log2_eq_iff ha).mp rfl
  obtain ⟨hlb, hgb⟩ := (Nat.log2_eq_iff hb).mp rfl
  constructor
  · rw [Nat.le_log2 hab, pow_add]
    exact Nat.mul_le_mul hla hlb
  · have hsplit : 2 ^ (a.log2 + b.log2 + 1 + 1) = 2 ^ (a.log2 + 1) * 2 ^ (b.log2 + 1) := by
      rw [← pow_add]
      congr 1
      omega
    refine Nat.lt_succ_iff.mp ((Nat.log2_lt hab).mpr ?_)
    rw [Nat.succ_eq_add_one, hsplit]
    exact Nat.mul_lt_mul_of_lt_of_lt hga hgb

theorem isNormal_ofNat (hm : m ≠ 0) (hlt : m < 2 ^ 64) :
    IsNormal (-52) 12 (UnpackedFloat.ofNat .binary64 m) := by
  have hlog : m.log2 < 64 := (Nat.log2_lt hm).mpr hlt
  exact isNormal_normalize hm (by omega) (by omega) (by omega)

theorem isNormal_add (hu : IsNormal lo hi u) (hv : IsNormal lo hi v) (hmin : -1074 ≤ lo) :
    IsNormal lo (hi + 2) (UnpackedFloat.add .binary64 u v) := by
  obtain ⟨m, e, hm, rfl, hlog, hlo, hhi⟩ := hu
  obtain ⟨m', e', hm', rfl, hlog', hlo', hhi'⟩ := hv
  simp only [UnpackedFloat.add, decreaseExponent, Sign.apply]
  have hshift := log2_shiftLeft hm.ne' (e - min e e').toNat
  have hshift' := log2_shiftLeft hm'.ne' (e' - min e e').toNat
  have hne : m <<< (e - min e e').toNat ≠ 0 := by
    intro hzero
    simp [hzero] at hshift
    omega
  have hne' : m' <<< (e' - min e e').toNat ≠ 0 := by
    intro hzero
    simp [hzero] at hshift'
    omega
  obtain ⟨hge, hle⟩ := log2_add hne hne'
  rw [hshift, hshift', hlog, hlog'] at hge hle
  exact isNormal_normalize (Nat.add_pos_left (Nat.pos_of_ne_zero hne) _).ne' hmin (by omega)
    (by omega)

theorem isNormal_mul (hu : IsNormal lo hi u) (hv : IsNormal lo' hi' v)
    (hmin : -1126 ≤ lo + lo') :
    IsNormal (lo + lo' + 52) (hi + hi' + 54) (UnpackedFloat.mul .binary64 u v) := by
  obtain ⟨m, e, hm, rfl, hlog, hlo, hhi⟩ := hu
  obtain ⟨m', e', hm', rfl, hlog', hlo', hhi'⟩ := hv
  obtain ⟨hge, hle⟩ := log2_mul hm.ne' hm'.ne'
  exact isNormal_roundWithAccuracy (by omega) (by omega) (by omega) (by omega) .exact

theorem isNormal_div (hu : IsNormal lo hi u) (hv : IsNormal lo' hi' v)
    (hmin : -1021 ≤ lo - hi') :
    IsNormal (lo - hi' - 53) (hi - lo' - 51) (UnpackedFloat.div .binary64 u v) := by
  obtain ⟨m, e, hm, rfl, hlog, hlo, hhi⟩ := hu
  obtain ⟨m', e', hm', rfl, hlog', hlo', hhi'⟩ := hv
  have htarget : min (e - e') (Format.binary64.targetExponent
      (totalExponent m e - totalExponent m' e')) = e - e' - 53 := by
    simp only [Format.targetExponent, totalExponent, Format.mantissaBits, Format.minExponent]
    omega
  have hshift : (e - e' - (e - e' - 53)).toNat = 53 := by omega
  simp only [UnpackedFloat.div, UnpackedFloat.divCore, htarget, hshift]
  obtain ⟨hle, hlt⟩ := (Nat.log2_eq_iff hm.ne').mp hlog
  obtain ⟨hle', hlt'⟩ := (Nat.log2_eq_iff hm'.ne').mp hlog'
  have hq : (m <<< 53 / m').log2 = 52 ∨ (m <<< 53 / m').log2 = 53 := by
    rw [Nat.shiftLeft_eq]
    have hlow : 2 ^ 52 ≤ m * 2 ^ 53 / m' := (Nat.le_div_iff_mul_le hm').mpr (by omega)
    have hhigh : m * 2 ^ 53 / m' < 2 ^ 54 := (Nat.div_lt_iff_lt_mul hm').mpr (by omega)
    have hne : m * 2 ^ 53 / m' ≠ 0 := by omega
    have hge := (Nat.le_log2 hne).mpr hlow
    have hlt := (Nat.log2_lt hne).mpr hhigh
    omega
  exact isNormal_roundWithAccuracy (by omega) (by omega) (by omega) (by omega) _

theorem unpackSign_packComponents {spec : Format} {sign : Sign} {exponent mantissa} :
    UnpackedFloat.unpackSign (UnpackedFloat.packComponents spec sign exponent mantissa) =
      sign.toBitVec := by
  ext i hi
  have hzero : i = 0 := by omega
  subst hzero
  simp [UnpackedFloat.unpackSign, UnpackedFloat.packComponents, BitVec.getLsbD_append,
    BitVec.getElem_append]

theorem unpack_pack (hu : IsNormal lo hi u) (hlo : -1074 ≤ lo) (hhi : hi ≤ 971) :
    UnpackedFloat.unpack .binary64 (UnpackedFloat.pack .binary64 u) = u := by
  obtain ⟨m, e, hm, rfl, hlog, hle, hge⟩ := hu
  obtain ⟨hlow, hhigh⟩ := (Nat.log2_eq_iff hm.ne').mp hlog
  have hbias : Format.binary64.exponentBias = 1023 := rfl
  have hbits : Format.binary64.mantissaBits = 53 := rfl
  unfold UnpackedFloat.pack
  rw [hbias, hbits, hlog]
  dsimp only
  generalize hb : (e + (1023 : Nat) + (52 : Nat)).toNat = biased
  have hbiased : (biased : Int) = e + 1075 := by omega
  rw [if_neg (by omega), if_pos rfl]
  -- the stored exponent is none of those that have a meaning of their own
  have hexponent : (BitVec.ofNat 11 biased).toNat = biased := by
    rw [BitVec.toNat_ofNat, Nat.mod_eq_of_lt (by omega)]
  have hne : ∀ k : BitVec 11, biased ≠ k.toNat → BitVec.ofNat 11 biased ≠ k := by
    rintro k hk rfl
    exact hk hexponent.symm
  have hones : BitVec.ofNat 11 biased ≠ -1#11 := hne _ (by simp; omega)
  have hzero : BitVec.ofNat 11 biased ≠ 0#11 := hne _ (by simp; omega)
  have hmantissa : (1#1 ++ BitVec.ofNat 52 m).toNat = m := by
    rw [BitVec.toNat_append, ← Nat.shiftLeft_add_eq_or_of_lt (BitVec.isLt _), BitVec.toNat_ofNat]
    simp [Nat.shiftLeft_eq]
    omega
  unfold UnpackedFloat.unpack
  simp only [UnpackedFloat.unpackMantissa_packComponents,
    UnpackedFloat.unpackExponent_packComponents, unpackSign_packComponents, hones, hzero, if_false,
    hexponent, hmantissa, hbias]
  congr 1
  omega

theorem unpackExponent_eq_iff (b : BitVec 64) :
    @UnpackedFloat.unpackExponent .binary64 b = -1#11 ↔
      b.toNat / 2 ^ 52 % 2 ^ 11 = 2 ^ 11 - 1 := by
  rw [← BitVec.toNat_inj]
  simp [UnpackedFloat.unpackExponent, BitVec.extractLsb, BitVec.extractLsb',
    Nat.shiftRight_eq_div_pow]

theorem unpackMantissa_eq_iff (b : BitVec 64) :
    @UnpackedFloat.unpackMantissa .binary64 b = 0#52 ↔ b.toNat % 2 ^ 52 = 0 := by
  rw [← BitVec.toNat_inj]
  simp [UnpackedFloat.unpackMantissa, BitVec.extractLsb, BitVec.extractLsb']

theorem unpack_eq_notANumber_iff (b : BitVec 64) :
    UnpackedFloat.unpack .binary64 b = .notANumber ↔
      b.toNat / 2 ^ 52 % 2 ^ 11 = 2 ^ 11 - 1 ∧ b.toNat % 2 ^ 52 ≠ 0 := by
  rw [← unpackExponent_eq_iff, ne_eq, ← unpackMantissa_eq_iff]
  unfold UnpackedFloat.unpack
  dsimp only
  split
  next he =>
    split
    next hm => simp [hm]
    next hm => simp [he, hm]
  next he =>
    split
    · split
      · exact iff_of_false nofun fun h => he h.1
      · exact iff_of_false nofun fun h => he h.1
    · exact iff_of_false nofun fun h => he h.1

theorem isNaN_ofFloat (x : Float) :
    (Benefit.ofFloat x).isNaN = true ↔ x.toModel.unpack = .notANumber := by
  rw [Float.Model.unpack, unpack_eq_notANumber_iff]
  have hlt := x.toModel.toBits.toBitVec.isLt
  have hmagnitude : (Benefit.ofFloat x).magnitude = x.toModel.toBits.toBitVec.toNat % 2 ^ 63 := rfl
  rw [Benefit.isNaN, hmagnitude, decide_eq_true_iff]
  omega

/-- A double that is zero exactly if so it is said, and otherwise normal and positive. -/
def Measures (isZero : Prop) (lo hi : Int) (x : Float) : Prop :=
  isZero ∧ x.toModel.unpack = .zero .positive ∨ ¬isZero ∧ IsNormal lo hi x.toModel.unpack

variable {p q : Prop} {x y : Float}

theorem measures_toFloat (n : UInt64) : Measures (n = 0) (-52) 12 n.toFloat := by
  by_cases hn : n = 0
  · subst hn
    exact .inl ⟨rfl, rfl⟩
  · have hne : n.toNat ≠ 0 := fun h => hn (UInt64.toNat_inj.mp h)
    have hnormal := isNormal_ofNat hne n.toNat_lt
    have hmodel : n.toFloat.toModel.unpack = UnpackedFloat.ofNat .binary64 n.toNat :=
      unpack_pack hnormal (by omega) (by omega)
    exact .inr ⟨hn, hmodel ▸ hnormal⟩

namespace Measures

theorem mono (h : Measures p lo hi x) (hlo : lo' ≤ lo) (hhi : hi ≤ hi') :
    Measures p lo' hi' x :=
  h.imp_right fun ⟨hp, hn⟩ => ⟨hp, hn.mono hlo hhi⟩

theorem add (hx : Measures p lo hi x) (hy : Measures q lo hi y) (hlo : -1074 ≤ lo)
    (hhi : hi + 2 ≤ 971) : Measures (p ∧ q) lo (hi + 2) (x + y) := by
  have hmodel : (x + y).toModel.unpack = UnpackedFloat.unpack .binary64
      (UnpackedFloat.pack .binary64
        (UnpackedFloat.add .binary64 x.toModel.unpack y.toModel.unpack)) := rfl
  unfold Measures
  rw [hmodel]
  obtain ⟨hp, hx⟩ | ⟨hp, hx⟩ := hx <;> obtain ⟨hq, hy⟩ | ⟨hq, hy⟩ := hy
  · rw [hx, hy]
    exact .inl ⟨⟨hp, hq⟩, rfl⟩
  · have hsum : UnpackedFloat.add .binary64 x.toModel.unpack y.toModel.unpack =
        y.toModel.unpack := by
      obtain ⟨m, e, hm, hy, -⟩ := hy
      rw [hx, hy]
      rfl
    rw [hsum, unpack_pack hy hlo (by omega)]
    exact .inr ⟨fun h => hq h.2, hy.mono le_rfl (by omega)⟩
  · have hsum : UnpackedFloat.add .binary64 x.toModel.unpack y.toModel.unpack =
        x.toModel.unpack := by
      obtain ⟨m, e, hm, hx, -⟩ := hx
      rw [hx, hy]
      rfl
    rw [hsum, unpack_pack hx hlo (by omega)]
    exact .inr ⟨fun h => hp h.1, hx.mono le_rfl (by omega)⟩
  · have hsum := isNormal_add hx hy hlo
    rw [unpack_pack hsum hlo hhi]
    exact .inr ⟨fun h => hp h.1, hsum⟩

theorem mul (hx : Measures p lo hi x) (hy : IsNormal lo' hi' y.toModel.unpack)
    (hlo : -1126 ≤ lo + lo') (hhi : hi + hi' ≤ 917) :
    Measures p (lo + lo' + 52) (hi + hi' + 54) (x * y) := by
  have hmodel : (x * y).toModel.unpack = UnpackedFloat.unpack .binary64
      (UnpackedFloat.pack .binary64
        (UnpackedFloat.mul .binary64 x.toModel.unpack y.toModel.unpack)) := rfl
  unfold Measures
  rw [hmodel]
  obtain ⟨hp, hx⟩ | ⟨hp, hx⟩ := hx
  · have hzero : UnpackedFloat.mul .binary64 x.toModel.unpack y.toModel.unpack =
        .zero .positive := by
      obtain ⟨m, e, hm, hy, -⟩ := hy
      rw [hx, hy]
      rfl
    rw [hzero]
    exact .inl ⟨hp, rfl⟩
  · have hproduct := isNormal_mul hx hy hlo
    rw [unpack_pack hproduct (by omega) (by omega)]
    exact .inr ⟨hp, hproduct⟩

theorem div (hx : Measures p lo hi x) (hy : IsNormal lo' hi' y.toModel.unpack)
    (hlo : -1021 ≤ lo - hi') (hhi : hi - lo' ≤ 1022) :
    Measures p (lo - hi' - 53) (hi - lo' - 51) (x / y) := by
  have hmodel : (x / y).toModel.unpack = UnpackedFloat.unpack .binary64
      (UnpackedFloat.pack .binary64
        (UnpackedFloat.div .binary64 x.toModel.unpack y.toModel.unpack)) := rfl
  unfold Measures
  rw [hmodel]
  obtain ⟨hp, hx⟩ | ⟨hp, hx⟩ := hx
  · have hzero : UnpackedFloat.div .binary64 x.toModel.unpack y.toModel.unpack =
        .zero .positive := by
      obtain ⟨m, e, hm, hy, -⟩ := hy
      rw [hx, hy]
      rfl
    rw [hzero]
    exact .inl ⟨hp, rfl⟩
  · have hquotient := isNormal_div hx hy hlo
    rw [unpack_pack hquotient (by omega) (by omega)]
    exact .inr ⟨hp, hquotient⟩

theorem isNaN_div_iff (hx : Measures p lo hi x) (hy : Measures q lo' hi' y)
    (hlo : -1021 ≤ lo - hi') (hhi : hi - lo' ≤ 1022) :
    (Benefit.ofFloat (x / y)).isNaN = true ↔ p ∧ q := by
  rw [isNaN_ofFloat]
  obtain ⟨hq, hy⟩ | ⟨hq, hy⟩ := hy
  · have hmodel : (x / y).toModel.unpack = UnpackedFloat.unpack .binary64
        (UnpackedFloat.pack .binary64
          (UnpackedFloat.div .binary64 x.toModel.unpack y.toModel.unpack)) := rfl
    obtain ⟨hp, hx⟩ | ⟨hp, hx⟩ := hx
    · rw [hmodel, hx, hy]
      exact iff_of_true rfl ⟨hp, hq⟩
    · have hinfinity : UnpackedFloat.div .binary64 x.toModel.unpack y.toModel.unpack =
          .infinity .positive := by
        obtain ⟨m, e, hm, hx, -⟩ := hx
        rw [hx, hy]
        rfl
      have hstored : UnpackedFloat.unpack .binary64
          (UnpackedFloat.pack .binary64 (.infinity .positive)) = .infinity .positive := rfl
      rw [hmodel, hinfinity, hstored]
      exact iff_of_false nofun fun h => hp h.1
  · refine iff_of_false (fun hnan => ?_) fun h => hq h.2
    obtain ⟨-, h⟩ | ⟨-, m, e, hm, h, -⟩ := hx.div hy hlo hhi
    · rw [h] at hnan
      cases hnan
    · rw [h] at hnan
      cases hnan

end Measures

theorem isNormal_billion : IsNormal (-23) (-23) (1.0e9 : Float).toModel.unpack :=
  ⟨_, _, _, rfl, by decide +kernel, by decide +kernel, by decide +kernel⟩

theorem isNormal_thousand : IsNormal (-43) (-43) (1000.0 : Float).toModel.unpack :=
  ⟨_, _, _, rfl, by decide +kernel, by decide +kernel, by decide +kernel⟩

end CommandBus.Cache.Doubles

namespace CommandBus.Cache

open Doubles

def Config.CountsNothing (c : Config) (requestBytes responseBytes : Nat) (execution : Duration) :
    Prop :=
  (c.fixedMillis.toUInt64 = 0 ∧ execution.secs.toUInt64 = 0 ∧
    execution.subsecNanos.toUInt64 = 0) ∧
  (c.unitBytes + requestBytes + responseBytes).toUInt64 = 0

theorem Config.isNaN_benefit_iff (c : Config) (requestBytes responseBytes : Nat)
    (execution : Duration) : (c.benefit requestBytes responseBytes execution).isNaN = true ↔
      c.CountsNothing requestBytes responseBytes execution := by
  have hnanos := (measures_toFloat execution.subsecNanos.toUInt64).div isNormal_billion
    (by omega) (by omega)
  have hsecs : Measures (execution.secs.toUInt64 = 0) (-82) 12 execution.secs.toUInt64.toFloat :=
    (measures_toFloat _).mono (by omega) (by omega)
  have hseconds := hsecs.add (hnanos.mono (by omega) (by omega)) (by omega) (by omega)
  have hfixed : Measures (c.fixedMillis.toUInt64 = 0) (-73) 25 c.fixedMillis.toUInt64.toFloat :=
    (measures_toFloat _).mono (by omega) (by omega)
  have hmillis := hfixed.add ((hseconds.mul isNormal_thousand (by omega) (by omega)).mono
    (by omega) (by omega)) (by omega) (by omega)
  exact hmillis.isNaN_div_iff (measures_toFloat _) (by omega) (by omega)

end CommandBus.Cache
