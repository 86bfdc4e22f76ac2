import AffixRules.Proofs.Number.Rounded

/-! The arithmetic of finite doubles is that of their exact values, rounded to a nearest double, as long as
the result is not too large for a double. Integers are read in the same way. -/
namespace AffixRules

open Float.Model (Format UnpackedFloat)
open Float.Model.UnpackedFloat

section Reading

variable {x : Float}

/-- A finite double is its parts. -/
theorem exists_ofFloat (hx : x.isFinite = true) : ∃ negative m e,
    Parts.ofFloat x = .finite negative m e ∧ exactValue x = signed negative m * 2 ^ e := by
  change UnpackedFloat.isFinite x.toModel.unpack = true at hx
  rw [Parts.ofFloat_eq, exactValue]
  cases hu : x.toModel.unpack with
  | notANumber => simp [hu, UnpackedFloat.isFinite] at hx
  | infinity s => simp [hu, UnpackedFloat.isFinite] at hx
  | zero s => exact ⟨_, _, _, rfl, by cases s <;> simp [unpackedValue, signed, isNegative]⟩
  | finite s m e hm => exact ⟨_, _, _, rfl, by cases s <;> rfl⟩

theorem abs_signed (negative : Bool) (m : Nat) : |(signed negative m : ℚ)| = m := by
  cases negative <;> simp [signed]

theorem abs_exactValue_le (hx : x.isFinite = true) : |exactValue x| ≤ largestDouble := by
  obtain ⟨negative, m, e, hparts, hvalue⟩ := exists_ofFloat hx
  obtain ⟨hm, he, -⟩ := bounds_of_ofBits hparts
  have hpos : (0 : ℚ) < 2 ^ e := by positivity
  have hm' : (m : ℚ) ≤ 2 ^ 53 - 1 := by
    have hle : (m : ℚ) + 1 ≤ 2 ^ 53 := by exact_mod_cast hm
    linarith
  have hpower : (2 : ℚ) ^ e ≤ 2 ^ (topExponent : ℤ) := zpow_le_zpow_right₀ one_le_two he
  rw [hvalue, abs_mul, abs_signed, abs_of_pos hpos, cast_largestDouble]
  exact mul_le_mul hm' hpower hpos.le (by norm_num)

theorem mod_twoTo_eq_zero_iff (negative : Bool) (m : Nat) (e : ℤ) :
    m % twoTo (-e).toNat = 0 ↔ ∃ n : ℤ, (signed negative m : ℚ) * 2 ^ e = n := by
  have hpower : (2 : ℚ) ^ (-e).toNat * 2 ^ e = 2 ^ e.toNat := by
    rw [← zpow_natCast, ← zpow_natCast, ← zpow_add₀ two_ne_zero]
    congr 1
    omega
  have htwo : twoTo (-e).toNat = 2 ^ (-e).toNat := rfl
  rw [← Nat.dvd_iff_mod_eq_zero, htwo]
  constructor
  · rintro ⟨c, rfl⟩
    refine ⟨signed negative c * 2 ^ e.toNat, ?_⟩
    push_cast
    rw [← hpower]
    cases negative <;> simp [signed] <;> ring
  · rintro ⟨n, hn⟩
    obtain he | he := le_total 0 e
    · rw [Int.toNat_of_nonpos (by omega)]
      exact one_dvd m
    · rw [Int.toNat_of_nonpos he, pow_zero] at hpower
      have hsigned : signed negative m = n * 2 ^ (-e).toNat := by
        have hcast : (signed negative m : ℚ) = n * 2 ^ (-e).toNat := by
          rw [← hn, mul_assoc, mul_comm ((2 : ℚ) ^ e), hpower, mul_one]
        exact_mod_cast hcast
      rw [← natAbs_signed negative m, hsigned, Int.natAbs_mul, Int.natAbs_pow]
      exact Nat.dvd_mul_left _ _

theorem isWhole_iff : isWhole x = true ↔ x.isFinite = true ∧ ∃ n : ℤ, exactValue x = n := by
  by_cases hx : x.isFinite = true
  · obtain ⟨negative, m, e, hparts, hvalue⟩ := exists_ofFloat hx
    simp only [isWhole, hparts, hx, true_and, hvalue, decide_eq_true_eq]
    exact mod_twoTo_eq_zero_iff negative m e
  · refine iff_of_false (fun hwhole => hx ?_) (fun h => hx h.1)
    rw [isWhole, Parts.ofFloat_eq] at hwhole
    change UnpackedFloat.isFinite x.toModel.unpack = true
    cases hu : x.toModel.unpack with
    | notANumber => simp [hu, Parts.ofUnpacked] at hwhole
    | infinity s => simp [hu, Parts.ofUnpacked] at hwhole
    | zero s => rfl
    | finite s m e hm => rfl

end Reading

section Arithmetic

/-- A finite double that no other one is closer to `q` than. -/
structure Rounds (x : Float) (q : ℚ) : Prop where
  finite : x.isFinite = true
  nearest : Nearest (exactValue x) q

variable {x y : Float} {q : ℚ}

theorem rounds_of_pack {u : UnpackedFloat} (hx : x.toModel = .pack u) (h : RoundsTo u q)
    (hq : |q| < largestDouble + 2 ^ (topExponent : ℤ) / 2) : Rounds x q := by
  have hunpack : x.toModel.unpack = u := by
    rw [hx]
    exact unpack_pack h.1 (h.2.abs_le_largestDouble hq)
  constructor
  · change UnpackedFloat.isFinite x.toModel.unpack = true
    rw [hunpack]
    cases u with
    | notANumber => exact h.1.elim
    | infinity s => exact h.1.elim
    | zero s => rfl
    | finite s m e hm => rfl
  · rw [exactValue, hunpack]
    exact h.2

theorem representable_exactValue (hx : x.isFinite = true) : Representable (exactValue x) :=
  .unpackedValue (fits_unpack hx)

/-- What is no larger than the largest double is not rounded to anything larger. -/
theorem lt_half_step (h : |q| ≤ largestDouble) : |q| < largestDouble + 2 ^ (topExponent : ℤ) / 2 := by
  have hpos : (0 : ℚ) < 2 ^ (topExponent : ℤ) := by positivity
  linarith

theorem two_pow_le_step : (2 : ℚ) ^ 55 ≤ 2 ^ (topExponent : ℤ) := by
  have hpower : (2 : ℚ) ^ (55 : ℤ) ≤ 2 ^ (topExponent : ℤ) :=
    zpow_le_zpow_right₀ one_le_two (by decide)
  exact_mod_cast hpower

theorem two_pow_le_largestDouble : (2 : ℚ) ^ 53 ≤ largestDouble := by
  rw [cast_largestDouble]
  linarith [two_pow_le_step]

theorem rounds_self (hx : x.isFinite = true) : Rounds x (exactValue x) :=
  ⟨hx, .refl (representable_exactValue hx)⟩

theorem rounds_add (hx : x.isFinite = true) (hy : y.isFinite = true)
    (hq : |exactValue x + exactValue y| < largestDouble + 2 ^ (topExponent : ℤ) / 2) :
    Rounds (x + y) (exactValue x + exactValue y) :=
  rounds_of_pack rfl (roundsTo_add (fits_unpack hx) (fits_unpack hy)) hq

theorem rounds_sub (hx : x.isFinite = true) (hy : y.isFinite = true)
    (hq : |exactValue x - exactValue y| < largestDouble + 2 ^ (topExponent : ℤ) / 2) :
    Rounds (x - y) (exactValue x - exactValue y) :=
  rounds_of_pack rfl (roundsTo_sub (fits_unpack hx) (fits_unpack hy)) hq

theorem rounds_mul (hx : x.isFinite = true) (hy : y.isFinite = true)
    (hq : |exactValue x * exactValue y| < largestDouble + 2 ^ (topExponent : ℤ) / 2) :
    Rounds (x * y) (exactValue x * exactValue y) :=
  rounds_of_pack rfl (roundsTo_mul (fits_unpack hx) (fits_unpack hy)) hq

theorem rounds_div (hx : x.isFinite = true) (hy : y.isFinite = true) (hne : exactValue y ≠ 0)
    (hq : |exactValue x / exactValue y| < largestDouble + 2 ^ (topExponent : ℤ) / 2) :
    Rounds (x / y) (exactValue x / exactValue y) :=
  rounds_of_pack rfl (roundsTo_div (fits_unpack hx) (fits_unpack hy) hne) hq

theorem Rounds.eq (h : Rounds x q) (hq : Representable q) : exactValue x = q :=
  h.nearest.eq_of_representable hq

theorem rounds_neg (hx : x.isFinite = true) : Rounds (-x) (-exactValue x) := by
  have hfits := fits_unpack hx
  have hround : RoundsTo x.toModel.unpack.neg (-exactValue x) := by
    rw [exactValue, ← unpackedValue_neg]
    exact roundsTo_of_fits (fits_neg hfits)
  exact rounds_of_pack rfl hround (lt_half_step (by rw [abs_neg]; exact abs_exactValue_le hx))

theorem Rounds.neg (h : Rounds x q) : Rounds (-x) (-q) := by
  have hneg := rounds_neg h.finite
  refine ⟨hneg.finite, ?_⟩
  rw [hneg.eq (representable_exactValue h.finite).neg]
  exact h.nearest.neg

/-- Doubles have all integers of 53 bits. -/
theorem rounds_toFloat {n : Nat} (hn : n < 2 ^ 53) : Rounds n.toUInt64.toFloat n := by
  have htoNat : n.toUInt64.toNat = n := Nat.mod_eq_of_lt (by omega)
  have hvalue : ((n.toUInt64.toNat : ℤ) : ℚ) * 2 ^ (0 : ℤ) = n := by rw [htoNat]; simp
  have hn' : (n : ℚ) ≤ 2 ^ 53 := by exact_mod_cast hn.le
  rw [← hvalue]
  refine rounds_of_pack rfl (roundsTo_normalize _ 0 .positive) (lt_half_step ?_)
  rw [hvalue, Nat.abs_cast]
  exact hn'.trans two_pow_le_largestDouble

theorem exactValue_toFloat {n : Nat} (hn : n < 2 ^ 53) : exactValue n.toUInt64.toFloat = n := by
  refine (rounds_toFloat hn).eq ?_
  have hrep := Representable.intCast (n := n) (by rw [Nat.abs_cast]; exact_mod_cast hn.le)
  exact_mod_cast hrep

end Arithmetic

section Integers

theorem exactValue_one : exactValue Float.exactlyRepresentablePowersOfTen[0] = 1 := by
  rw [exactValue, unpack_one, unpackedValue]
  norm_num [Sign.apply, zpow_neg]

theorem rounds_ofNat {n : Nat} (hn : n ≤ largestDouble) : Rounds (Float.ofNat n) n := by
  have hn' : |(n : ℚ)| ≤ largestDouble := by rwa [Nat.abs_cast, Nat.cast_le]
  by_cases hsmall : n < 2 ^ 53
  · have hx : Float.ofNat n = n.toUInt64.toFloat * Float.exactlyRepresentablePowersOfTen[0] := by
      change Float.ofScientific n false 0 = _
      unfold Float.ofScientific
      rw [dif_pos ⟨hsmall, Nat.zero_le 22⟩]
      rfl
    have hvalue : exactValue n.toUInt64.toFloat *
        exactValue Float.exactlyRepresentablePowersOfTen[0] = n := by
      rw [exactValue_toFloat hsmall, exactValue_one, mul_one]
    rw [hx, ← hvalue]
    refine rounds_mul (rounds_toFloat hsmall).finite rfl (lt_half_step ?_)
    rw [hvalue]
    exact hn'
  · have hne : n ≠ 0 := by omega
    have hround := roundsTo_roundWithAccuracy .positive (e := -53) (describes_exact (n <<< 53))
      (.inl (by rw [log2_shiftLeft hne]; omega))
    have hvalue : ((Sign.positive.apply 1 : ℤ) : ℚ) * ((n <<< 53 : Nat) * 2 ^ (-53 : ℤ)) = n := by
      have hshift := cast_shiftLeft_mul_two_zpow n 53 0
      rw [Nat.cast_ofNat, zero_sub, zpow_zero, mul_one] at hshift
      rw [Sign.apply, Int.cast_one, one_mul, hshift]
    rw [hvalue] at hround
    refine rounds_of_pack ?_ hround (lt_half_step hn')
    rw [toModel_ofNat (not_lt.mp hsmall), ofScientific_whole hne, mul_one_exact]

theorem rounds_ofInt {n : ℤ} (hn : n.natAbs ≤ largestDouble) : Rounds (Float.ofInt n) n := by
  cases n with
  | ofNat k => exact rounds_ofNat hn
  | negSucc k =>
    have hneg := (rounds_ofNat hn).neg
    rw [Int.cast_negSucc]
    exact hneg

theorem exactValue_ofNat {n : Nat} (hn : n ≤ 2 ^ 53) : exactValue (Float.ofNat n) = n := by
  have hlargest : (n : ℚ) ≤ largestDouble :=
    le_trans (by exact_mod_cast hn) two_pow_le_largestDouble
  refine (rounds_ofNat (by exact_mod_cast hlargest)).eq ?_
  have hrep := Representable.intCast (n := n) (by rw [Nat.abs_cast]; exact_mod_cast hn)
  exact_mod_cast hrep

theorem rounds_zero : Rounds 0 0 := by exact_mod_cast rounds_ofNat (Nat.zero_le _)

theorem rounds_one : Rounds 1 1 := by
  exact_mod_cast rounds_ofNat (n := 1) (Nat.mul_pos (by decide) (Nat.two_pow_pos _))

end Integers

end AffixRules
