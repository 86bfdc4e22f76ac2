import AffixRules.Number.Rounding
import AffixRules.Proofs.Number.Doubles

/-! Rounding to two decimals. The whole number of hundredths is a nearest one, the even one of two, and
what is read back is a double nearest to it. So the order of doubles is kept. -/
namespace AffixRules

open Float.Model (Format UnpackedFloat)
open Float.Model.UnpackedFloat

theorem nearestEven_eq (num den : Nat) :
    nearestEven num den = (accuracyOfFraction (num % den) den).roundToNearestEven (num / den) := by
  unfold nearestEven accuracyOfFraction
  dsimp only
  by_cases hzero : num % den = 0
  · rw [if_pos hzero, hzero]
    simp only [Accuracy.roundToNearestEven]
    split
    · rfl
    · obtain rfl : den = 0 := by omega
      simp
  · rw [if_neg hzero]
    cases hc : compare (2 * (num % den)) den with
    | lt => rw [if_pos (compare_lt_iff_lt.mp hc)]; rfl
    | eq =>
      have heq := compare_eq_iff_eq.mp hc
      rw [if_neg heq.not_lt, if_neg heq.symm.not_lt]
      rfl
    | gt =>
      have hgt := compare_gt_iff_gt.mp hc
      rw [if_neg (not_lt.mpr hgt.le), if_pos hgt]
      rfl

theorem nearestInt_nearestEven (num : Nat) {den : Nat} (hden : 0 < den) :
    NearestInt (nearestEven num den) (num / den) := by
  rw [nearestEven_eq, ← cast_div_add_mod num hden]
  exact nearestInt_roundToNearestEven _ (locates_accuracyOfFraction (Nat.mod_lt num hden))

section Reading

/-- The number one hundred, unpacked. -/
theorem unpack_hundred : (Float.exactlyRepresentablePowersOfTen[2]).toModel.unpack =
    .finite .positive (100 * 2 ^ 46) (-46) (by decide) := rfl

theorem isFinite_hundred : (Float.exactlyRepresentablePowersOfTen[2]).isFinite = true := by
  change UnpackedFloat.isFinite (Float.exactlyRepresentablePowersOfTen[2]).toModel.unpack = true
  rw [unpack_hundred]
  rfl

theorem exactValue_hundred : exactValue Float.exactlyRepresentablePowersOfTen[2] = 100 := by
  rw [exactValue, unpack_hundred, unpackedValue]
  norm_num [Sign.apply, zpow_neg]

theorem rounds_ofScientific {n : Nat} (hn : |(n : ℚ) / 100| ≤ largestDouble) :
    Rounds (Float.ofScientific n true 2) (n / 100) := by
  unfold Float.ofScientific
  by_cases hsmall : n < 2 ^ 53
  · rw [dif_pos ⟨hsmall, by decide⟩, if_pos rfl]
    have hvalue : exactValue n.toUInt64.toFloat /
        exactValue Float.exactlyRepresentablePowersOfTen[2] = n / 100 := by
      rw [exactValue_toFloat hsmall, exactValue_hundred]
    rw [← hvalue]
    refine rounds_div (rounds_toFloat hsmall).finite isFinite_hundred ?_ (lt_half_step ?_)
    · rw [exactValue_hundred]
      norm_num
    · rw [hvalue]
      exact hn
  · have hne : n ≠ 0 := by omega
    rw [dif_neg fun h => hsmall h.1, if_pos rfl]
    have hround := roundsTo_div_finite .positive .positive 0 0 (Nat.pos_of_ne_zero hne)
      (Nat.pow_pos (n := 2) (by decide : 0 < 10))
    have hvalue : unpackedValue (.finite .positive n 0 (Nat.pos_of_ne_zero hne)) /
        unpackedValue (.finite .positive (10 ^ 2) 0 (Nat.pow_pos (by decide))) = n / 100 := by
      simp only [unpackedValue, Sign.apply]
      norm_num
    rw [hvalue] at hround
    refine rounds_of_pack ?_ hround (lt_half_step hn)
    change Float.Model.pack (ofScientific .binary64 n (-2)) = _
    have htiny : ¬ (-2 : Int) < -(2 ^ 11 + (n.log2 : Int)) := by omega
    unfold ofScientific
    rw [dif_neg hne, if_neg (by decide), if_neg htiny, if_neg (by decide)]
    rfl

theorem rounds_ofDecimal (negative : Bool) {n : Nat} (hn : |(n : ℚ) / 100| ≤ largestDouble) :
    Rounds (ofDecimal negative n 2) (signed negative n / 100) := by
  have hround := rounds_ofScientific hn
  cases negative with
  | false => simpa [ofDecimal, signed] using hround
  | true => simpa [ofDecimal, signed, neg_div] using hround.neg

end Reading

section Hundredths

variable {x y : Float}

/-- The double that is read for a number of hundredths. -/
def hundredth (k : ℤ) : Float := ofDecimal (decide (k < 0)) k.natAbs 2

theorem signed_eq_zero_or_hundredth (negative : Bool) (n : Nat) :
    n = 0 ∨ ofDecimal negative n 2 = hundredth (signed negative n) := by
  obtain rfl | hn := Nat.eq_zero_or_pos n
  · exact .inl rfl
  · right
    have hneg : decide (signed negative n < 0) = negative := by
      cases negative with
      | false => simp [signed]
      | true => simpa [signed] using hn
    rw [hundredth, hneg, natAbs_signed]

/-- A double below the integers of 53 bits is rounded to a nearest number of hundredths. -/
theorem exists_hundredth_of_parts (negative : Bool) {m : Nat} {e : ℤ} (hm : m < 2 ^ 53) (he : ¬ 0 ≤ e) :
    ∃ k, NearestInt k (100 * (signed negative m * 2 ^ e)) ∧
      Rounds (ofDecimal negative (nearestEven (m * 100) (twoTo (-e).toNat)) 2) (k / 100) ∧
      (k = 0 ∨ ofDecimal negative (nearestEven (m * 100) (twoTo (-e).toNat)) 2 = hundredth k) := by
  have hpower : (2 : ℚ) ^ e ≤ 1 := zpow_le_one_of_nonpos₀ one_le_two (by omega)
  have hscale : ((m * 100 : Nat) : ℚ) / (twoTo (-e).toNat : ℚ) = 100 * (m * 2 ^ e) := by
    have hone : twoTo 0 = 1 := rfl
    rw [← scaleUp_div_twoTo m e, scaleUp, Int.toNat_of_nonpos (by omega : e ≤ 0), hone, mul_one]
    push_cast
    ring
  have hden : 0 < twoTo (-e).toNat := Nat.two_pow_pos _
  have hnear := nearestInt_nearestEven (m * 100) hden
  rw [hscale] at hnear
  generalize nearestEven (m * 100) (twoTo (-e).toNat) = n at hnear ⊢
  refine ⟨signed negative n, ?_, rounds_ofDecimal negative ?_, ?_⟩
  · cases negative with
    | false => simpa [signed] using hnear
    | true => simpa [signed] using hnear.neg
  · have hclose := (abs_le.mp hnear.close).2
    have hm' : (m : ℚ) + 1 ≤ 2 ^ 53 := by exact_mod_cast hm
    have hmul : (m : ℚ) * 2 ^ e ≤ m := mul_le_of_le_one_right (Nat.cast_nonneg m) hpower
    have hn : (0 : ℚ) ≤ n := Nat.cast_nonneg n
    rw [Int.cast_natCast] at hclose
    rw [abs_of_nonneg (by positivity)]
    linarith [two_pow_le_largestDouble]
  · refine (signed_eq_zero_or_hundredth negative n).imp_left ?_
    rintro rfl
    cases negative <;> rfl

theorem exists_hundredth (hx : x.isFinite = true) :
    ∃ k, NearestInt k (100 * exactValue x) ∧ Rounds (toHundredths x) (k / 100) ∧
      (Representable (k / 100) ∨ toHundredths x = hundredth k) := by
  obtain ⟨negative, m, e, hparts, hvalue⟩ := exists_ofFloat hx
  obtain ⟨hm, -, -⟩ := bounds_of_ofBits hparts
  unfold toHundredths
  rw [hparts]
  dsimp only
  split
  next he =>
    have hwhole : 100 * exactValue x = ((100 * (signed negative m * 2 ^ e.toNat) : ℤ) : ℚ) := by
      rw [hvalue]
      push_cast
      rw [← zpow_natCast, Int.toNat_of_nonneg he]
    have hback : ((100 * (signed negative m * 2 ^ e.toNat) : ℤ) : ℚ) / 100 = exactValue x := by
      rw [← hwhole]
      ring
    refine ⟨100 * (signed negative m * 2 ^ e.toNat), ?_, ?_, .inl ?_⟩
    · rw [hwhole]
      exact .intCast _
    · rw [hback]
      exact rounds_self hx
    · rw [hback]
      exact representable_exactValue hx
  next he =>
    obtain ⟨k, hnear, hround, hk⟩ := exists_hundredth_of_parts negative hm he
    refine ⟨k, hvalue ▸ hnear, hround, hk.imp_left ?_⟩
    rintro rfl
    simpa using Representable.zero

/-- Rounding to two decimals keeps the order. -/
theorem toHundredths_mono (hx : x.isFinite = true) (hy : y.isFinite = true)
    (h : exactValue x ≤ exactValue y) :
    exactValue (toHundredths x) ≤ exactValue (toHundredths y) := by
  obtain ⟨k, hxk, hxround, hxread⟩ := exists_hundredth hx
  obtain ⟨l, hyl, hyround, hyread⟩ := exists_hundredth hy
  obtain hlt | rfl := (hxk.le_of_le hyl (by linarith)).lt_or_eq
  · have hlt' : (k : ℚ) / 100 < l / 100 := by
      have hcast : (k : ℚ) < l := by exact_mod_cast hlt
      linarith
    exact hxround.nearest.le_of_lt hyround.nearest hlt'
  -- One number of hundredths is read as one double, or is one itself.
  · obtain hrep | hx' := hxread
    · rw [hxround.eq hrep, hyround.eq hrep]
    obtain hrep | hy' := hyread
    · rw [hxround.eq hrep, hyround.eq hrep]
    · rw [hx', hy']

/-- Within this many hundredths, the double that is read for them is much closer than half of one. -/
theorem nearestInt_hundredth {k : ℤ} (hk : |k| ≤ 2 ^ 50) :
    Rounds (hundredth k) (k / 100) ∧ NearestInt k (100 * exactValue (hundredth k)) := by
  have hk' : |(k : ℚ)| ≤ 2 ^ 50 := by exact_mod_cast hk
  have hsigned : signed (decide (k < 0)) k.natAbs = k := by
    unfold signed
    split
    next h => rw [decide_eq_true_eq] at h; omega
    next h => rw [decide_eq_true_eq] at h; omega
  have hround : Rounds (hundredth k) (k / 100) := by
    have hread := rounds_ofDecimal (decide (k < 0)) (n := k.natAbs) (by
      have hhundred : |(100 : ℚ)| = 100 := abs_of_pos (by norm_num)
      rw [Nat.cast_natAbs, Int.cast_abs, abs_div, abs_abs, hhundred]
      linarith [two_pow_le_largestDouble])
    rwa [hsigned] at hread
  refine ⟨hround, .of_abs_lt ?_⟩
  -- The multiple of one in 256 below is close enough.
  have hfloor := Int.floor_le ((k : ℚ) / 100 * 256)
  have hfloor' := Int.lt_floor_add_one ((k : ℚ) / 100 * 256)
  generalize ⌊(k : ℚ) / 100 * 256⌋ = j at hfloor hfloor'
  obtain ⟨hk₁, hk₂⟩ := abs_le.mp hk'
  have hj : |j| ≤ 2 ^ 53 := by
    have hj' : |(j : ℚ)| ≤ 2 ^ 53 := abs_le.mpr ⟨by linarith, by linarith⟩
    exact_mod_cast hj'
  have hclose := hround.nearest.closest _ (.mul_two_zpow (e := -8) hj (by decide))
  have hnext : |(j : ℚ) * 2 ^ (-8 : ℤ) - k / 100| < 1 / 200 := by
    rw [abs_lt]
    norm_num
    constructor <;> linarith
  obtain ⟨hlow, hhigh⟩ := abs_lt.mp (hclose.trans_lt hnext)
  rw [abs_lt]
  constructor <;> linarith

/-- What is read for hundredths is a fixed point of the rounding. -/
theorem exactValue_toHundredths_hundredth {k : ℤ} (hk : |k| ≤ 2 ^ 50) :
    exactValue (toHundredths (hundredth k)) = exactValue (hundredth k) := by
  obtain ⟨hread, hnear⟩ := nearestInt_hundredth hk
  obtain ⟨l, hl, hround, hback⟩ := exists_hundredth hread.finite
  obtain rfl : l = k := le_antisymm (hl.le_of_le hnear le_rfl) (hnear.le_of_le hl le_rfl)
  obtain hrep | hsame := hback
  · rw [hround.eq hrep, hread.eq hrep]
  · rw [hsame]

theorem isFinite_toHundredths (hx : x.isFinite = true) : (toHundredths x).isFinite = true := by
  obtain ⟨k, -, hround, -⟩ := exists_hundredth hx
  exact hround.finite

end Hundredths

end AffixRules
