import AffixRules.Proofs.Number.Whole

/-! The exact values of doubles. A double taken apart by its bits is the double that the standard
library's model unpacks; truncation takes its value toward zero, and finite doubles are ordered as
their values are. -/
namespace AffixRules

open Float.Model (Format UnpackedFloat)
open Float.Model.UnpackedFloat

section Fields

variable (bits : UInt64)

theorem toNat_exponentField :
    ((bits >>> 52) &&& 0x7ff).toNat =
      (@unpackExponent .binary64 bits.toBitVec).toNat := by
  change (bits.toNat >>> 52) &&& (2 ^ 11 - 1) = (bits.toNat >>> 52) % 2 ^ 11
  exact Nat.and_two_pow_sub_one_eq_mod _ _

theorem toNat_fractionField :
    (bits &&& 0xfffffffffffff).toNat =
      (@unpackMantissa .binary64 bits.toBitVec).toNat := by
  change bits.toNat &&& (2 ^ 52 - 1) = (bits.toNat >>> 0) % 2 ^ 52
  rw [Nat.and_two_pow_sub_one_eq_mod, Nat.shiftRight_zero]

def isNegative : Sign → Bool
  | .negative => true
  | .positive => false

theorem isNegative_signField :
    (bits >>> 63 == 1) =
      isNegative (.ofBitVec (@unpackSign .binary64 bits.toBitVec)) := by
  have hb := bits.toNat_lt
  have hbit : (bits >>> 63 == 1) =
      !decide (@unpackSign .binary64 bits.toBitVec = 0#1) := by
    rw [Bool.eq_iff_iff, beq_iff_eq, Bool.not_eq_true', decide_eq_false_iff_not,
      ← UInt64.toNat_inj, ← BitVec.toNat_inj]
    change bits.toNat >>> 63 = 1 ↔ ¬ (bits.toNat >>> 63) % 2 ^ 1 = 0
    rw [Nat.shiftRight_eq_div_pow]
    omega
  rw [hbit, Sign.ofBitVec]
  split <;> simp_all [isNegative]

end Fields

namespace Parts

/-- An unpacked double as its parts; both zeros have the exponent of the smallest doubles. -/
def ofUnpacked : UnpackedFloat → Parts
  | .notANumber => .notANumber
  | .infinity s => .infinite (isNegative s)
  | .zero s => .finite (isNegative s) 0 (-1074)
  | .finite s m e _ => .finite (isNegative s) m e

theorem ofBits_eq (bits : UInt64) :
    ofBits bits = ofUnpacked (unpack .binary64 bits.toBitVec) := by
  have hfraction : (@unpackMantissa .binary64 bits.toBitVec).toNat < 2 ^ 52 := BitVec.isLt _
  have hfull : @unpackExponent .binary64 bits.toBitVec = -1#11 ↔
      (@unpackExponent .binary64 bits.toBitVec).toNat = 2047 := BitVec.toNat_inj.symm
  have hlow : @unpackExponent .binary64 bits.toBitVec = 0#11 ↔
      (@unpackExponent .binary64 bits.toBitVec).toNat = 0 := BitVec.toNat_inj.symm
  have hnone : @unpackMantissa .binary64 bits.toBitVec = 0#52 ↔
      (@unpackMantissa .binary64 bits.toBitVec).toNat = 0 := BitVec.toNat_inj.symm
  have happend : (1#1 ++ @unpackMantissa .binary64 bits.toBitVec).toNat =
      leadingBit + (@unpackMantissa .binary64 bits.toBitVec).toNat := by
    rw [BitVec.toNat_append, ← Nat.shiftLeft_add_eq_or_of_lt hfraction]
    rfl
  simp only [ofBits, toNat_exponentField, toNat_fractionField, isNegative_signField, unpack, hfull,
    hlow, hnone]
  split
  · split <;> rfl
  · split
    next hfield =>
      split
      next hzero => rw [hzero]; rfl
      next => rw [ofUnpacked, hfield]; rfl
    next => rw [ofUnpacked, happend]; rfl

theorem ofFloat_eq (x : Float) : ofFloat x = ofUnpacked x.toModel.unpack := ofBits_eq x.toBits

end Parts

section Value

/-- The number that an unpacked double stands for, zero for what is not finite. -/
def unpackedValue : UnpackedFloat → ℚ
  | .finite s m e _ => s.apply m * 2 ^ e
  | _ => 0

/-- The exact value of a finite double. -/
def exactValue (x : Float) : ℚ := unpackedValue x.toModel.unpack

/-- The whole part of a number, toward zero. -/
def towardZero (q : ℚ) : Int := if 0 ≤ q then ⌊q⌋ else ⌈q⌉

theorem towardZero_neg (q : ℚ) : towardZero (-q) = -towardZero q := by
  obtain h | rfl | h := lt_trichotomy q 0
  · have hneg : 0 ≤ -q := by linarith
    rw [towardZero, if_pos hneg, towardZero, if_neg (not_le.mpr h), Int.floor_neg]
  · simp [towardZero]
  · have hneg : ¬ 0 ≤ -q := by linarith
    rw [towardZero, if_neg hneg, towardZero, if_pos h.le, Int.ceil_neg]

theorem towardZero_mono {q r : ℚ} (h : q ≤ r) : towardZero q ≤ towardZero r := by
  rw [towardZero, towardZero]
  split
  next hq => rw [if_pos (hq.trans h)]; exact Int.floor_le_floor h
  next hq =>
    split
    next hr =>
      have hceil : ⌈q⌉ ≤ 0 := Int.ceil_le.mpr (by simpa using (not_le.mp hq).le)
      exact hceil.trans (Int.floor_nonneg.mpr hr)
    next hr => exact Int.ceil_le_ceil h

/-- The value of a mantissa and a power of two, as a quotient of integers. -/
theorem scaleUp_div_twoTo (m : Nat) (e : Int) :
    (scaleUp m e : ℚ) / (twoTo (-e).toNat : ℚ) = m * 2 ^ e := by
  have hcast (k : Nat) : (twoTo k : ℚ) = 2 ^ k := by
    unfold twoTo
    exact_mod_cast rfl
  rw [scaleUp, Nat.cast_mul, hcast, hcast, mul_div_assoc, ← zpow_natCast, ← zpow_natCast,
    ← zpow_sub₀ two_ne_zero]
  congr 2
  omega

theorem floor_mul_two_zpow (m : Nat) (e : Int) :
    ⌊(m : ℚ) * 2 ^ e⌋ = ((scaleUp m e / twoTo (-e).toNat : Nat) : Int) := by
  rw [← scaleUp_div_twoTo, Rat.floor_natCast_div_natCast]
  rfl

theorem towardZero_unpackedValue (s : Sign) (m : Nat) (e : Int) (hm : 0 < m) :
    towardZero (unpackedValue (.finite s m e hm)) =
      signed (isNegative s) (scaleUp m e / twoTo (-e).toNat) := by
  have hpos : (0 : ℚ) ≤ m * 2 ^ e := by positivity
  have hwhole : towardZero (m * 2 ^ e) = (scaleUp m e / twoTo (-e).toNat : Nat) := by
    rw [towardZero, if_pos hpos, floor_mul_two_zpow]
  cases s with
  | positive => simpa [unpackedValue, Sign.apply, signed, isNegative] using hwhole
  | negative =>
    have hvalue : unpackedValue (.finite .negative m e hm) = -(m * 2 ^ e) := by
      simp [unpackedValue, Sign.apply]
    rw [hvalue, towardZero_neg, hwhole]
    rfl

/-- Truncation of what is finite is exact; a NaN and the infinities have no whole part. -/
theorem truncate_eq (x : Float) :
    truncate x =
      if x.isNaN then .error .notANumber
      else if x.isInf then .error .infinite
      else .ok (towardZero (exactValue x)) := by
  rw [truncate, Parts.ofFloat_eq]
  change _ = if x.toModel.unpack.isNaN then _ else if x.toModel.unpack.isInf then _ else
    Except.ok (towardZero (unpackedValue x.toModel.unpack))
  cases x.toModel.unpack with
  | notANumber => rfl
  | infinity s => rfl
  | zero s =>
    have hzero : scaleUp 0 (-1074) / twoTo 1074 = 0 := by rw [scaleUp, Nat.zero_mul, Nat.zero_div]
    cases s <;> simp [Parts.ofUnpacked, Parts.truncate?, signed, isNegative, isNaN, isInf,
      unpackedValue, towardZero, hzero]
  | finite s m e hm => exact congrArg Except.ok (towardZero_unpackedValue s m e hm).symm

end Value

section Order

/-- Among mantissas with all their bits, the exponent decides first. -/
theorem mul_two_zpow_lt_of_lt {m n : Nat} {e f : Int} (hm : m < 2 ^ 53) (hn : 2 ^ 52 ≤ n)
    (h : e < f) : (m : ℚ) * 2 ^ e < n * 2 ^ f := by
  have hm' : (m : ℚ) < 2 ^ 53 := by exact_mod_cast hm
  have hn' : (2 : ℚ) ^ 52 ≤ n := by exact_mod_cast hn
  calc (m : ℚ) * 2 ^ e < 2 ^ 53 * 2 ^ e := by gcongr
    _ = 2 ^ 52 * 2 ^ (e + 1) := by rw [zpow_add_one₀ two_ne_zero]; ring
    _ ≤ 2 ^ 52 * 2 ^ f := by gcongr; norm_num; omega
    _ ≤ n * 2 ^ f := by gcongr

theorem mul_two_zpow_lt_iff {m n : Nat} {e f : Int} (hm : m < 2 ^ 53) (hn : n < 2 ^ 53)
    (he : -1074 ≤ e) (hf : -1074 ≤ f) (hm' : 2 ^ 52 ≤ m ∨ e = -1074)
    (hn' : 2 ^ 52 ≤ n ∨ f = -1074) :
    (m : ℚ) * 2 ^ e < n * 2 ^ f ↔ e < f ∨ e = f ∧ m < n := by
  obtain h | rfl | h := lt_trichotomy e f
  · exact iff_of_true (mul_two_zpow_lt_of_lt hm (by omega) h) (.inl h)
  · have hpos : (0 : ℚ) < 2 ^ e := by positivity
    rw [mul_lt_mul_iff_left₀ hpos, Nat.cast_lt]
    omega
  · have hlt := mul_two_zpow_lt_of_lt hn (n := m) (by omega) h
    exact iff_of_false hlt.le.not_gt (by omega)

/-- Mantissas and exponents as a double has them. -/
def Fits : UnpackedFloat → Prop
  | .finite _ m e _ => m < 2 ^ 53 ∧ -1074 ≤ e ∧ (2 ^ 52 ≤ m ∨ e = -1074)
  | .zero _ => True
  | _ => False

theorem lt_iff_of_fits {u v : UnpackedFloat} (hu : Fits u) (hv : Fits v) :
    u.lt v = true ↔ unpackedValue u < unpackedValue v := by
  cases u with
  | notANumber => exact hu.elim
  | infinity s => exact hu.elim
  | zero s =>
    cases v with
    | notANumber => exact hv.elim
    | infinity t => exact hv.elim
    | zero t => exact iff_of_false Bool.false_ne_true (lt_irrefl _)
    | finite t n f hn =>
      have hn' : (0 : ℚ) < n * 2 ^ f := by positivity
      cases t with
      | positive => exact iff_of_true rfl hn'
      | negative =>
        refine iff_of_false Bool.false_ne_true ?_
        simpa [unpackedValue, Sign.apply] using hn'.le
  | finite s m e hm =>
    have hm' : (0 : ℚ) < m * 2 ^ e := by positivity
    cases v with
    | notANumber => exact hv.elim
    | infinity t => exact hv.elim
    | zero t =>
      cases s with
      | positive => exact iff_of_false Bool.false_ne_true hm'.not_gt
      | negative =>
        refine iff_of_true rfl ?_
        simpa [unpackedValue, Sign.apply] using hm'
    | finite t n f hn =>
      have hn' : (0 : ℚ) < n * 2 ^ f := by positivity
      obtain ⟨hm53, he, hmtop⟩ := hu
      obtain ⟨hn53, hf, hntop⟩ := hv
      cases s <;> cases t
      · change (some ((compare e f).then (compare m n)).swap == some .lt) = true ↔ _
        rw [beq_iff_eq, Option.some.injEq, Ordering.swap_eq_lt, Ordering.then_eq_gt,
          compare_gt_iff_gt, compare_eq_iff_eq, compare_gt_iff_gt]
        have h := mul_two_zpow_lt_iff hn53 hm53 hf he hntop hmtop
        simp only [unpackedValue, Sign.apply, Int.cast_neg, Int.cast_natCast, neg_mul,
          neg_lt_neg_iff, h]
        omega
      · refine iff_of_true rfl ?_
        simp only [unpackedValue, Sign.apply, Int.cast_neg, Int.cast_natCast, neg_mul]
        linarith
      · refine iff_of_false Bool.false_ne_true ?_
        simp only [unpackedValue, Sign.apply, Int.cast_neg, Int.cast_natCast, neg_mul]
        linarith
      · change (some ((compare e f).then (compare m n)) == some .lt) = true ↔ _
        rw [beq_iff_eq, Option.some.injEq, Ordering.then_eq_lt, compare_lt_iff_lt,
          compare_eq_iff_eq, compare_lt_iff_lt]
        exact (mul_two_zpow_lt_iff hm53 hn53 he hf hmtop hntop).symm

theorem fits_unpack {x : Float} (h : x.isFinite = true) : Fits x.toModel.unpack := by
  have hparts := Parts.ofBits_eq x.toBits
  change UnpackedFloat.isFinite x.toModel.unpack = true at h
  change _ = Parts.ofUnpacked x.toModel.unpack at hparts
  cases hu : x.toModel.unpack with
  | notANumber => simp [hu, UnpackedFloat.isFinite] at h
  | infinity s => simp [hu, UnpackedFloat.isFinite] at h
  | zero s => trivial
  | finite s m e hm =>
    rw [hu] at hparts
    obtain ⟨hm53, -, he, htop⟩ := bounds_of_ofBits hparts
    exact ⟨hm53, he, htop⟩

/-- Finite doubles are ordered as their values are. -/
theorem lt_iff_exactValue_lt {x y : Float} (hx : x.isFinite = true) (hy : y.isFinite = true) :
    x < y ↔ exactValue x < exactValue y := by
  rw [exactValue, exactValue, ← lt_iff_of_fits (fits_unpack hx) (fits_unpack hy)]
  change decide (x.toModel < y.toModel) = true ↔ _
  rw [decide_eq_true_eq]
  rfl

/-- Only a NaN is not comparable. -/
theorem le_iff_not_lt {u v : UnpackedFloat} (hu : Fits u) (hv : Fits v) :
    u.le v = true ↔ ¬ v.lt u = true := by
  have hany (o : Ordering) : (some o).any (·.isLE) = true ↔ ¬ (some o.swap == some .lt) = true := by
    cases o <;> decide
  cases u with
  | notANumber => exact hu.elim
  | infinity s => exact hu.elim
  | zero s =>
    cases v with
    | notANumber => exact hv.elim
    | infinity t => exact hv.elim
    | zero t => exact hany .eq
    | finite t n f hn => cases t with
      | negative => exact hany .gt
      | positive => exact hany .lt
  | finite s m e hm =>
    cases v with
    | notANumber => exact hv.elim
    | infinity t => exact hv.elim
    | zero t => cases s with
      | negative => exact hany .lt
      | positive => exact hany .gt
    | finite t n f hn =>
      have hswap : (compare f e).then (compare n m) = ((compare e f).then (compare m n)).swap := by
        rw [Ordering.swap_then, Int.compare_swap, Nat.compare_swap]
      cases s <;> cases t
      · change Option.any _ (some ((compare e f).then (compare m n)).swap) = true ↔
          ¬ (some ((compare f e).then (compare n m)).swap == some .lt) = true
        rw [hswap]
        exact hany _
      · exact hany .lt
      · exact hany .gt
      · change Option.any _ (some ((compare e f).then (compare m n))) = true ↔
          ¬ (some ((compare f e).then (compare n m)) == some .lt) = true
        rw [hswap]
        exact hany _

theorem le_iff_exactValue_le {x y : Float} (hx : x.isFinite = true) (hy : y.isFinite = true) :
    x ≤ y ↔ exactValue x ≤ exactValue y := by
  rw [← not_lt, ← lt_iff_exactValue_lt hy hx]
  change decide (x.toModel ≤ y.toModel) = true ↔ ¬ decide (y.toModel < x.toModel) = true
  rw [decide_eq_true_eq, decide_eq_true_eq]
  exact le_iff_not_lt (fits_unpack hx) (fits_unpack hy)

theorem truncate_eq_ok_iff {x : Float} {n : Int} :
    truncate x = .ok n ↔ x.isFinite = true ∧ towardZero (exactValue x) = n := by
  rw [truncate_eq]
  change (if x.toModel.unpack.isNaN then _ else if x.toModel.unpack.isInf then _ else _) = _ ↔
    x.toModel.unpack.isFinite = true ∧ _
  cases x.toModel.unpack <;> simp [isNaN, isInf, UnpackedFloat.isFinite]

/-- Truncation keeps the order. -/
theorem truncate_mono {x y : Float} {m n : Int} (h : ¬ y < x) (hx : truncate x = .ok m)
    (hy : truncate y = .ok n) : m ≤ n := by
  obtain ⟨hxfin, rfl⟩ := truncate_eq_ok_iff.mp hx
  obtain ⟨hyfin, rfl⟩ := truncate_eq_ok_iff.mp hy
  rw [lt_iff_exactValue_lt hyfin hxfin, not_lt] at h
  exact towardZero_mono h

end Order

end AffixRules
