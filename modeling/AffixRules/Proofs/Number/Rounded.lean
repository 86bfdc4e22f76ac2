import AffixRules.Proofs.Number.Nearest

/-! Rounding in the standard library's model of doubles yields a nearest number of 53 bits. It is read off
the mantissa and its residual bits once, for every operation that ends with it, and packing keeps it. -/
namespace AffixRules

open Float.Model (Format UnpackedFloat totalExponent)
open Float.Model.UnpackedFloat

section Residue

/-- Where a part of a unit is, against none and a half. -/
def Locates : Accuracy → ℚ → Prop
  | .exact, t => t = 0
  | .inexact .lt, t => 0 < t ∧ t < 1 / 2
  | .inexact .eq, t => t = 1 / 2
  | .inexact .gt, t => 1 / 2 < t ∧ t < 1

/-- The mantissa is the whole part of `y`, and the residual bits locate the rest. -/
def Describes (em : ExtendedMantissa) (y : ℚ) : Prop := Locates em.accuracy (y - em.mantissa)

theorem describes_ofMantissaAndAccuracy {a : Accuracy} {t : ℚ} (m : Nat) (h : Locates a t) :
    Describes (.ofMantissaAndAccuracy m a) (m + t) := by
  have hrest : (m : ℚ) + t - m = t := by ring
  unfold Describes
  rw [mantissa_ofMantissaAndAccuracy, hrest]
  cases a with
  | exact => exact h
  | inexact o => cases o <;> exact h

theorem describes_exact (m : Nat) : Describes (.ofMantissaAndAccuracy m .exact) m := by
  simpa using describes_ofMantissaAndAccuracy m (a := .exact) rfl

theorem locates_accuracyOfFraction {num den : Nat} (h : num < den) :
    Locates (accuracyOfFraction num den) (num / den) := by
  have hden : (0 : ℚ) < den := by exact_mod_cast Nat.zero_lt_of_lt h
  unfold accuracyOfFraction
  split
  next hzero => simp [Locates, hzero]
  next hne =>
    have hpos : (0 : ℚ) < num / den := div_pos (by exact_mod_cast Nat.pos_of_ne_zero hne) hden
    have hlt : (num : ℚ) / den < 1 := (div_lt_one hden).mpr (by exact_mod_cast h)
    cases hc : compare (2 * num) den with
    | lt =>
      have hless : 2 * (num : ℚ) < den := by exact_mod_cast compare_lt_iff_lt.mp hc
      exact ⟨hpos, by rw [div_lt_div_iff₀ hden two_pos]; linarith⟩
    | eq =>
      have hsame : 2 * (num : ℚ) = den := by exact_mod_cast compare_eq_iff_eq.mp hc
      change (num : ℚ) / den = 1 / 2
      rw [div_eq_div_iff hden.ne' two_ne_zero]
      linarith
    | gt =>
      have hmore : (den : ℚ) < 2 * num := by exact_mod_cast compare_gt_iff_gt.mp hc
      exact ⟨by rw [div_lt_div_iff₀ two_pos hden]; linarith, hlt⟩

theorem mantissa_le_roundedMantissa (em : ExtendedMantissa) : em.mantissa ≤ em.roundedMantissa := by
  obtain ⟨m, round, sticky⟩ := em
  cases round <;> cases sticky <;>
    simp [ExtendedMantissa.roundedMantissa, ExtendedMantissa.accuracy, Accuracy.roundToNearestEven]

/-- The model rounds to a nearest integer, and to the even one of two. -/
theorem nearestInt_roundToNearestEven {a : Accuracy} {t : ℚ} (m : Nat) (h : Locates a t) :
    NearestInt (a.roundToNearestEven m) (m + t) := by
  cases a with
  | exact =>
    change t = 0 at h
    rw [h, add_zero]
    exact .intCast m
  | inexact o =>
    cases o with
    | lt =>
      obtain ⟨hpos, hlt⟩ := h
      refine .of_abs_lt (abs_lt.mpr ?_)
      simp only [Accuracy.roundToNearestEven, Int.cast_natCast]
      constructor <;> linarith
    | eq =>
      change t = 1 / 2 at h
      have heven : Even (m + m % 2) := by
        rw [Nat.even_iff]
        omega
      have hclose : |((m + m % 2 : Nat) : ℚ) - (m + t)| = 1 / 2 := by
        rw [h]
        obtain hbit | hbit := Nat.mod_two_eq_zero_or_one m <;> rw [hbit] <;> push_cast
        · rw [abs_of_nonpos] <;> linarith
        · rw [abs_of_nonneg] <;> linarith
      exact ⟨hclose.le, fun _ => (Int.even_coe_nat _).mpr heven⟩
    | gt =>
      obtain ⟨hlt, hone⟩ := h
      refine .of_abs_lt (abs_lt.mpr ?_)
      simp only [Accuracy.roundToNearestEven, Int.cast_natCast]
      push_cast
      constructor <;> linarith

namespace Describes

variable {em : ExtendedMantissa} {y : ℚ}

theorem mantissa_le (h : Describes em y) : em.mantissa ≤ y := by
  obtain ⟨m, round, sticky⟩ := em
  cases round <;> cases sticky <;>
    simp only [Describes, ExtendedMantissa.accuracy, Locates] at h ⊢ <;> linarith

theorem lt_mantissa_add_one (h : Describes em y) : y < em.mantissa + 1 := by
  obtain ⟨m, round, sticky⟩ := em
  cases round <;> cases sticky <;>
    simp only [Describes, ExtendedMantissa.accuracy, Locates] at h ⊢ <;> linarith

theorem shiftRightOne (h : Describes em y) : Describes em.shiftRightOne (y / 2) := by
  obtain ⟨m, round, sticky⟩ := em
  have hdiv : (m : ℚ) = 2 * (m / 2 : Nat) + (m % 2 : Nat) := by
    exact_mod_cast (Nat.div_add_mod m 2).symm
  have hhalf : (ExtendedMantissa.mk m round sticky).shiftRightOne =
      ⟨m / 2, m % 2 != 0, round || sticky⟩ := rfl
  rw [hhalf]
  -- The bit that is shifted out and the two residual bits tell where the half is.
  generalize m / 2 = k at hdiv ⊢
  obtain hbit | hbit := Nat.mod_two_eq_zero_or_one m <;> rw [hbit] at hdiv ⊢ <;>
    cases round <;> cases sticky <;>
    simp [Describes, ExtendedMantissa.accuracy, Locates] at h hdiv ⊢ <;> (try constructor) <;> linarith

theorem shiftRight (h : Describes em y) (k : Nat) : Describes (em >>> k) (y / 2 ^ k) := by
  induction k with
  | zero =>
    rw [pow_zero, div_one]
    exact h
  | succ k ih =>
    rw [pow_succ, div_mul_eq_div_div]
    exact ih.shiftRightOne

theorem nearestInt_roundedMantissa (h : Describes em y) : NearestInt em.roundedMantissa y := by
  have hround := nearestInt_roundToNearestEven em.mantissa h
  rwa [add_sub_cancel] at hround

end Describes

end Residue

section Rounding

/-- As a double has it, and nearest to `q`. -/
def RoundsTo (u : UnpackedFloat) (q : ℚ) : Prop := Fits u ∧ Nearest (unpackedValue u) q

/-- A mantissa with its sign, zero if nothing is left of it. -/
def ofMantissa (s : Sign) (n : Nat) (e : Int) : UnpackedFloat :=
  if h : n = 0 then .zero s else .finite s n e (Nat.pos_of_ne_zero h)

theorem unpackedValue_ofMantissa (s : Sign) (n : Nat) (e : Int) :
    unpackedValue (ofMantissa s n e) = s.apply n * 2 ^ e := by
  unfold ofMantissa
  split
  next hzero => cases s <;> simp [unpackedValue, Sign.apply, hzero]
  next => rfl

theorem fits_ofMantissa (s : Sign) {n : Nat} {e : Int} (hn : n < 2 ^ 53) (he : -1074 ≤ e)
    (htop : 2 ^ 52 ≤ n ∨ e = -1074) : Fits (ofMantissa s n e) := by
  unfold ofMantissa
  split
  · trivial
  · exact ⟨hn, he, htop⟩

theorem roundWithAccuracy_eq (s : Sign) (m : Nat) (e : Int) (a : Accuracy) :
    let r := (ExtendedMantissa.ofMantissaAndAccuracy m a >>> shiftOf m e).roundedMantissa
    let f := e + shiftOf m e
    roundWithAccuracy .binary64 s m e a = ofMantissa s (r / 2 ^ shiftOf r f) (f + shiftOf r f) := by
  intro r f
  unfold roundWithAccuracy
  rw [shiftToTargetExponent_eq]
  dsimp only
  rw [shiftToTargetExponent_eq]
  dsimp only
  simp only [mantissa_shiftRight, mantissa_ofMantissaAndAccuracy]
  rfl

variable {m : Nat} {e : Int} {a : Accuracy} {y : ℚ}

/-- The exponent that a mantissa is shifted to, if it has bits enough. -/
theorem add_shiftOf (h : 52 ≤ m.log2 ∨ e ≤ -1074) :
    e + shiftOf m e = max ((m.log2 : Int) + e - 52) (-1074) := by
  unfold shiftOf
  omega

/-- Rounding may carry into one bit more, which the last shift takes back. -/
theorem ofMantissa_carried (s : Sign) {r : Nat} {f : Int} (hr : r ≤ 2 ^ 53) (hf : -1074 ≤ f)
    (htop : 2 ^ 52 ≤ r ∨ f = -1074) :
    Fits (ofMantissa s (r / 2 ^ shiftOf r f) (f + shiftOf r f)) ∧
      unpackedValue (ofMantissa s (r / 2 ^ shiftOf r f) (f + shiftOf r f)) = s.apply r * 2 ^ f := by
  rw [unpackedValue_ofMantissa]
  obtain hlt | rfl := hr.lt_or_eq
  · have hlog : r.log2 ≤ 52 := log2_le_of_lt hlt
    have hshift : shiftOf r f = 0 := by
      unfold shiftOf
      omega
    rw [hshift, pow_zero, Nat.div_one, Nat.cast_zero, add_zero]
    exact ⟨fits_ofMantissa s hlt hf htop, rfl⟩
  · have hlog : (2 ^ 53 : Nat).log2 = 53 := Nat.log2_two_pow
    have hshift : shiftOf (2 ^ 53) f = 1 := by
      unfold shiftOf
      omega
    rw [hshift]
    refine ⟨fits_ofMantissa s (by decide) (by omega) (.inl (by decide)), ?_⟩
    rw [Nat.cast_one, zpow_add_one₀ two_ne_zero]
    cases s <;> norm_num [Sign.apply] <;> ring

/-- Of a mantissa with bits enough, 53 are left, or fewer at the lowest exponent. -/
theorem two_pow_le_of_shifted (hm : 52 ≤ m.log2 ∨ e ≤ -1074) :
    2 ^ 52 ≤ m / 2 ^ shiftOf m e ∨ e + shiftOf m e = -1074 := by
  have hexponent := add_shiftOf hm
  obtain hnormal | hlowest : m.log2 = 52 + shiftOf m e ∨ e + shiftOf m e = -1074 := by omega
  · left
    rw [Nat.le_div_iff_mul_le (Nat.two_pow_pos _), ← Nat.pow_add, ← hnormal]
    exact Nat.log2_self_le (by rintro rfl; simp at hnormal; omega)
  · exact .inr hlowest

theorem nearest_roundedMantissa (h : Describes (.ofMantissaAndAccuracy m a) y)
    (hm : 52 ≤ m.log2 ∨ e ≤ -1074) :
    Nearest ((ExtendedMantissa.ofMantissaAndAccuracy m a >>> shiftOf m e).roundedMantissa *
      2 ^ (e + shiftOf m e)) (y * 2 ^ e) := by
  have hshifted := h.shiftRight (shiftOf m e)
  have hpos : (0 : ℚ) < 2 ^ (e + shiftOf m e : Int) := by positivity
  have hscale : y * 2 ^ e = y / 2 ^ shiftOf m e * 2 ^ (e + shiftOf m e) := by
    rw [zpow_add₀ two_ne_zero, zpow_natCast]
    field_simp
  have hle := hshifted.mantissa_le
  have hlt := hshifted.lt_mantissa_add_one
  have hclose := hshifted.nearestInt_roundedMantissa.close
  rw [mantissa_shiftRight, mantissa_ofMantissaAndAccuracy] at hle hlt
  rw [hscale]
  generalize ExtendedMantissa.roundedMantissa _ = r at hclose ⊢
  generalize y / 2 ^ shiftOf m e = t at hle hlt hclose ⊢
  refine Nearest.of_multiple (i := r) (by have hexponent := add_shiftOf hm; omega) ?_ ?_ ?_ ?_
  · rw [← sub_mul, abs_mul, abs_of_pos hpos]
    calc |((r : ℤ) : ℚ) - t| * 2 ^ (e + shiftOf m e : Int) ≤ 1 / 2 * 2 ^ (e + shiftOf m e : Int) := by gcongr
      _ = 2 ^ (e + shiftOf m e : Int) / 2 := by ring
  · have hnonneg : 0 ≤ t := le_trans (Nat.cast_nonneg _) hle
    positivity
  · have hfew : ((m / 2 ^ shiftOf m e : Nat) : ℚ) + 1 ≤ 2 ^ 53 := by
      exact_mod_cast div_two_pow_shiftOf_lt m e
    gcongr
    linarith
  · refine (two_pow_le_of_shifted hm).symm.imp_right fun hmany => ?_
    have hmany' : (2 : ℚ) ^ 52 ≤ (m / 2 ^ shiftOf m e : Nat) := by exact_mod_cast hmany
    gcongr
    linarith

/-- Rounding yields a nearest double of the number that mantissa, exponent and accuracy describe. -/
theorem roundsTo_roundWithAccuracy (s : Sign) (h : Describes (.ofMantissaAndAccuracy m a) y)
    (hm : 52 ≤ m.log2 ∨ e ≤ -1074) :
    RoundsTo (roundWithAccuracy .binary64 s m e a) (s.apply 1 * (y * 2 ^ e)) := by
  have hnearest := nearest_roundedMantissa h hm
  have hexponent := add_shiftOf hm
  have hfew := div_two_pow_shiftOf_lt m e
  have htop := two_pow_le_of_shifted hm
  have hrounded := roundedMantissa_le (ExtendedMantissa.ofMantissaAndAccuracy m a >>> shiftOf m e)
  have hkept := mantissa_le_roundedMantissa
    (ExtendedMantissa.ofMantissaAndAccuracy m a >>> shiftOf m e)
  rw [mantissa_shiftRight, mantissa_ofMantissaAndAccuracy] at hrounded hkept
  rw [roundWithAccuracy_eq]
  generalize ExtendedMantissa.roundedMantissa _ = r at hnearest hrounded hkept ⊢
  obtain ⟨hfits, hvalue⟩ := ofMantissa_carried s (r := r) (f := e + shiftOf m e) (by omega) (by omega)
    (by omega)
  refine ⟨hfits, ?_⟩
  rw [hvalue]
  cases s with
  | positive => simpa [Sign.apply] using hnearest
  | negative => simpa [Sign.apply] using hnearest.neg

end Rounding

section Operations

variable {u v : UnpackedFloat}

theorem roundsTo_of_fits (h : Fits u) : RoundsTo u (unpackedValue u) :=
  ⟨h, .refl (.unpackedValue h)⟩

theorem cast_shiftLeft_mul_two_zpow (m k : Nat) (e : Int) :
    ((m <<< k : Nat) : ℚ) * 2 ^ (e - k) = m * 2 ^ e := by
  rw [Nat.shiftLeft_eq, Nat.cast_mul, Nat.cast_pow, Nat.cast_ofNat, mul_assoc, ← zpow_natCast,
    ← zpow_add₀ two_ne_zero]
  congr 2
  omega

/-- A quotient is its whole part and the fraction that is left. -/
theorem cast_div_add_mod (m : Nat) {n : Nat} (hn : 0 < n) :
    ((m / n : Nat) : ℚ) + ((m % n : Nat) : ℚ) / n = m / n := by
  have hn' : (n : ℚ) ≠ 0 := by exact_mod_cast hn.ne'
  rw [eq_div_iff hn', add_mul, div_mul_cancel₀ _ hn']
  exact_mod_cast Nat.div_add_mod' m n

theorem log2_shiftLeft {m : Nat} (hm : m ≠ 0) (k : Nat) : (m <<< k).log2 = m.log2 + k := by
  rw [Nat.shiftLeft_eq, log2_mul_two_pow hm]

theorem targetExponent_eq (t : Int) : Format.binary64.targetExponent t = max (t - 53) (-1074) := rfl

theorem roundsTo_round (s : Sign) {m : Nat} (hm : m ≠ 0) (e : Int) :
    RoundsTo (UnpackedFloat.round .binary64 s m e) (s.apply 1 * (m * 2 ^ e)) := by
  unfold UnpackedFloat.round decreaseExponent
  rw [targetExponent_eq, totalExponent]
  dsimp only
  rw [← cast_shiftLeft_mul_two_zpow m _ e]
  refine roundsTo_roundWithAccuracy s (describes_exact _) ?_
  rw [log2_shiftLeft hm]
  omega

theorem roundsTo_normalize (n e : Int) (s : Sign) :
    RoundsTo (UnpackedFloat.normalize .binary64 n e s) (n * 2 ^ e) := by
  unfold UnpackedFloat.normalize
  split
  next hc =>
    have hneg : n < 0 := compare_lt_iff_lt.mp hc
    have hround := roundsTo_round .negative (m := (-n).toNat) (by omega) e
    have hcast : (((-n).toNat : Nat) : ℚ) = -n := by exact_mod_cast Int.toNat_of_nonneg (by omega)
    simpa [Sign.apply, hcast] using hround
  next hc =>
    have hzero : n = 0 := compare_eq_iff_eq.mp hc
    have hround := roundsTo_of_fits (u := .zero s) trivial
    simpa [unpackedValue, hzero] using hround
  next hc =>
    have hpos : 0 < n := compare_gt_iff_gt.mp hc
    have hround := roundsTo_round .positive (m := n.toNat) (by omega) e
    have hcast : ((n.toNat : Nat) : ℚ) = n := by exact_mod_cast Int.toNat_of_nonneg (by omega)
    simpa [Sign.apply, hcast] using hround

theorem unpackedValue_decreaseExponent (s : Sign) (m : Nat) {e f : Int} (h : f ≤ e) :
    (s.apply ((m <<< (e - f).toNat : Nat) : Int) : ℚ) * 2 ^ f = s.apply m * 2 ^ e := by
  have hshift := cast_shiftLeft_mul_two_zpow m (e - f).toNat e
  have hexp : e - (e - f).toNat = f := by omega
  rw [hexp] at hshift
  generalize m <<< (e - f).toNat = n at hshift ⊢
  cases s <;> simpa [Sign.apply] using hshift

theorem roundsTo_add (hu : Fits u) (hv : Fits v) :
    RoundsTo (add .binary64 u v) (unpackedValue u + unpackedValue v) := by
  cases u with
  | notANumber => exact hu.elim
  | infinity s => exact hu.elim
  | zero s =>
    cases v with
    | notANumber => exact hv.elim
    | infinity t => exact hv.elim
    | zero t =>
      have hzero : unpackedValue (.zero s) + unpackedValue (.zero t) = 0 := by simp [unpackedValue]
      rw [hzero]
      cases s <;> cases t <;> exact roundsTo_of_fits (u := .zero _) trivial
    | finite t n f hn => simpa [unpackedValue, add] using roundsTo_of_fits hv
  | finite s m e hm =>
    cases v with
    | notANumber => exact hv.elim
    | infinity t => exact hv.elim
    | zero t => simpa [unpackedValue, add] using roundsTo_of_fits hu
    | finite t n f hn =>
      have hsum := roundsTo_normalize
        (s.apply ((m <<< (e - min e f).toNat : Nat) : Int) +
          t.apply ((n <<< (f - min e f).toNat : Nat) : Int))
        (min e f) .positive
      rw [Int.cast_add, add_mul, unpackedValue_decreaseExponent s m (min_le_left e f),
        unpackedValue_decreaseExponent t n (min_le_right e f)] at hsum
      exact hsum

theorem fits_neg (h : Fits u) : Fits u.neg := by
  cases u <;> exact h

theorem apply_neg (s : Sign) (n : Int) : (-s).apply n = -s.apply n := by
  cases s with
  | negative => exact (neg_neg n).symm
  | positive => rfl

theorem unpackedValue_neg (u : UnpackedFloat) : unpackedValue u.neg = -unpackedValue u := by
  cases u with
  | finite s m e hm => simp [UnpackedFloat.neg, unpackedValue, apply_neg]
  | _ => simp [UnpackedFloat.neg, unpackedValue]

theorem sub_eq_add (u v : UnpackedFloat) : sub .binary64 u v = add .binary64 u v.neg := by
  cases u <;> cases v <;> try rfl
  simp only [sub, add, UnpackedFloat.neg, apply_neg, sub_eq_add_neg]

theorem roundsTo_sub (hu : Fits u) (hv : Fits v) :
    RoundsTo (sub .binary64 u v) (unpackedValue u - unpackedValue v) := by
  have hsum := roundsTo_add hu (fits_neg hv)
  rwa [unpackedValue_neg, ← sub_eq_add_neg, ← sub_eq_add] at hsum

theorem apply_eq (s : Sign) (n : Int) : s.apply n = s.apply 1 * n := by
  cases s with
  | negative => exact (neg_one_mul n).symm
  | positive => exact (one_mul n).symm

theorem apply_mul (s t : Sign) : (s * t).apply 1 = s.apply 1 * t.apply 1 := by
  cases s <;> cases t <;> rfl

theorem apply_div (s t : Sign) : (s / t).apply 1 = s.apply 1 * t.apply 1 := by
  cases s <;> cases t <;> rfl

/-- A product has bits enough, or is below the lowest exponent with all of them. -/
theorem le_log2_mul {m n : Nat} {e f : Int} (hm : 0 < m) (hn : 0 < n)
    (hmtop : 2 ^ 52 ≤ m ∨ e = -1074) (hntop : 2 ^ 52 ≤ n ∨ f = -1074) :
    52 ≤ (m * n).log2 ∨ e + f ≤ -1074 := by
  have hne : m * n ≠ 0 := (Nat.mul_pos hm hn).ne'
  rw [Nat.le_log2 hne]
  obtain hm52 | he := hmtop
  · exact .inl (hm52.trans (Nat.le_mul_of_pos_right m hn))
  obtain hn52 | hf := hntop
  · exact .inl (hn52.trans (Nat.le_mul_of_pos_left n hm))
  · exact .inr (by omega)

theorem roundsTo_mul (hu : Fits u) (hv : Fits v) :
    RoundsTo (mul .binary64 u v) (unpackedValue u * unpackedValue v) := by
  cases u with
  | notANumber => exact hu.elim
  | infinity s => exact hu.elim
  | zero s =>
    cases v with
    | notANumber => exact hv.elim
    | infinity t => exact hv.elim
    | zero t => simpa [unpackedValue, mul] using roundsTo_of_fits (u := .zero _) trivial
    | finite t n f hn => simpa [unpackedValue, mul] using roundsTo_of_fits (u := .zero _) trivial
  | finite s m e hm =>
    cases v with
    | notANumber => exact hv.elim
    | infinity t => exact hv.elim
    | zero t => simpa [unpackedValue, mul] using roundsTo_of_fits (u := .zero _) trivial
    | finite t n f hn =>
      have hmul := roundsTo_roundWithAccuracy (s * t) (describes_exact (m * n))
        (le_log2_mul hm hn hu.2.2 hv.2.2)
      have hvalue : unpackedValue (.finite s m e hm) * unpackedValue (.finite t n f hn) =
          (s * t).apply 1 * ((m * n : Nat) * 2 ^ (e + f)) := by
        rw [unpackedValue, unpackedValue, apply_eq s m, apply_eq t n, apply_mul, zpow_add₀ two_ne_zero]
        push_cast
        ring
      rw [hvalue]
      exact hmul

theorem le_log2_div {m n k : Nat} (hm : 0 < m) (hn : 0 < n) (h : n.log2 + 53 ≤ m.log2 + k) :
    52 ≤ (m <<< k / n).log2 := by
  have hle : 2 ^ 52 ≤ m <<< k / n := by
    rw [Nat.le_div_iff_mul_le hn]
    calc 2 ^ 52 * n ≤ 2 ^ 52 * 2 ^ (n.log2 + 1) := Nat.mul_le_mul_left _ Nat.lt_log2_self.le
      _ = 2 ^ (n.log2 + 53) := by rw [← Nat.pow_add, Nat.add_comm n.log2 1, ← Nat.add_assoc, Nat.add_comm]
      _ ≤ 2 ^ (m.log2 + k) := Nat.pow_le_pow_right two_pos h
      _ = 2 ^ m.log2 * 2 ^ k := Nat.pow_add ..
      _ ≤ m <<< k := by
        rw [Nat.shiftLeft_eq]
        exact Nat.mul_le_mul_right _ (Nat.log2_self_le hm.ne')
  exact (Nat.le_log2 (by omega)).mpr hle

/-- A quotient is computed with bits enough. -/
theorem roundsTo_div_finite (s t : Sign) {m n : Nat} (e f : Int) (hm : 0 < m) (hn : 0 < n) :
    RoundsTo (div .binary64 (.finite s m e hm) (.finite t n f hn))
      (unpackedValue (.finite s m e hm) / unpackedValue (.finite t n f hn)) := by
  change RoundsTo (roundWithAccuracy .binary64 (s / t) _ _ _) _
  rw [targetExponent_eq, totalExponent, totalExponent]
  generalize htarget : min (e - f) _ = target
  generalize hk : (e - f - target).toNat = k
  have hbits : 52 ≤ (m <<< k / n).log2 ∨ target ≤ -1074 := by
    obtain hmany | hfew : n.log2 + 53 ≤ m.log2 + k ∨ target ≤ -1074 := by omega
    · exact .inl (le_log2_div hm hn hmany)
    · exact .inr hfew
  have hround := roundsTo_roundWithAccuracy (s / t) (describes_ofMantissaAndAccuracy (m <<< k / n)
    (locates_accuracyOfFraction (Nat.mod_lt (m <<< k) hn))) hbits
  rw [cast_div_add_mod _ hn] at hround
  have hscale : ((m <<< k : Nat) : ℚ) * 2 ^ target = m * 2 ^ (e - f) := by
    have hshift := cast_shiftLeft_mul_two_zpow m k (e - f)
    have hexp : e - f - k = target := by omega
    rwa [hexp] at hshift
  have hvalue : unpackedValue (.finite s m e hm) / unpackedValue (.finite t n f hn) =
      (s / t).apply 1 * (((m <<< k : Nat) : ℚ) / n * 2 ^ target) := by
    rw [div_mul_eq_mul_div, hscale, unpackedValue, unpackedValue, apply_eq s m, apply_eq t n, apply_div,
      zpow_sub₀ two_ne_zero]
    cases t <;> simp [Sign.apply] <;> field_simp
  rw [hvalue]
  exact hround

theorem roundsTo_div (hu : Fits u) (hv : Fits v) (hne : unpackedValue v ≠ 0) :
    RoundsTo (div .binary64 u v) (unpackedValue u / unpackedValue v) := by
  cases v with
  | notANumber => exact hv.elim
  | infinity t => exact hv.elim
  | zero t => exact absurd rfl hne
  | finite t n f hn =>
    cases u with
    | notANumber => exact hu.elim
    | infinity s => exact hu.elim
    | zero s =>
      have hzero : unpackedValue (.zero s) / unpackedValue (.finite t n f hn) = 0 := zero_div _
      rw [hzero]
      exact roundsTo_of_fits (u := .zero _) trivial
    | finite s m e hm => exact roundsTo_div_finite s t e f hm hn

end Operations

section Packing

theorem unpackSign_packComponents (s : Sign) (field : BitVec 11) (fraction : BitVec 52) :
    unpackSign (packComponents .binary64 s field fraction) = s.toBitVec := by
  ext i hi
  obtain rfl : i = 0 := by omega
  change ((s.toBitVec ++ field ++ fraction).extractLsb' 63 1).getLsbD 0 = s.toBitVec.getLsbD 0
  rw [BitVec.getLsbD_extractLsb', BitVec.getLsbD_append, BitVec.getLsbD_append]
  simp

theorem ofBitVec_toBitVec (s : Sign) : Sign.ofBitVec s.toBitVec = s := by
  cases s <;> rfl

theorem toNat_ofNat_ne {k field n : Nat} (hfield : field < 2 ^ k) (hn : n < 2 ^ k) (h : field ≠ n) :
    BitVec.ofNat k field ≠ BitVec.ofNat k n := fun heq => by
  have hnat := congrArg BitVec.toNat heq
  rw [BitVec.toNat_ofNat, BitVec.toNat_ofNat, Nat.mod_eq_of_lt hfield, Nat.mod_eq_of_lt hn] at hnat
  exact h hnat

theorem unpack_packComponents_normal (s : Sign) {m field : Nat} (hm : 0 < m) (hlow : 2 ^ 52 ≤ m)
    (hhigh : m < 2 ^ 53) (hpos : 0 < field) (hfield : field < 2047) :
    unpack .binary64 (packComponents .binary64 s (BitVec.ofNat 11 field) (BitVec.ofNat 52 m)) =
      .finite s m (field - 1075) hm := by
  have hfull : BitVec.ofNat 11 field ≠ -1#11 := toNat_ofNat_ne (by omega) (by decide) hfield.ne
  have hzero : BitVec.ofNat 11 field ≠ 0#11 := toNat_ofNat_ne (by omega) (by decide) hpos.ne'
  have hmantissa : (1#1 ++ BitVec.ofNat 52 m).toNat = m := by
    rw [BitVec.toNat_append, ← Nat.shiftLeft_add_eq_or_of_lt (BitVec.isLt _), BitVec.toNat_ofNat]
    change 2 ^ 52 + m % 2 ^ 52 = m
    omega
  have hexponent : ((BitVec.ofNat 11 field).toNat : Int) = field := by
    rw [BitVec.toNat_ofNat, Nat.mod_eq_of_lt (by omega)]
  simp only [unpack, unpackExponent_packComponents, unpackMantissa_packComponents,
    unpackSign_packComponents, ofBitVec_toBitVec, if_neg hfull, if_neg hzero, hmantissa, hexponent]
  rfl

theorem unpack_packComponents_subnormal (s : Sign) {m : Nat} (hm : 0 < m) (hhigh : m < 2 ^ 52) :
    unpack .binary64 (packComponents .binary64 s 0#11 (BitVec.ofNat 52 m)) =
      .finite s m (-1074) hm := by
  have hmantissa : (BitVec.ofNat 52 m).toNat = m := by
    rw [BitVec.toNat_ofNat, Nat.mod_eq_of_lt hhigh]
  have hne : BitVec.ofNat 52 m ≠ 0#52 := toNat_ofNat_ne hhigh (by decide) hm.ne'
  have hfull : (0#11 : BitVec 11) ≠ -1#11 := by decide
  simp only [unpack, unpackExponent_packComponents, unpackMantissa_packComponents,
    unpackSign_packComponents, ofBitVec_toBitVec, if_neg hfull, dif_neg hne, hmantissa]
  rfl

theorem abs_unpackedValue (s : Sign) {m : Nat} (e : Int) (hm : 0 < m) :
    |unpackedValue (.finite s m e hm)| = m * 2 ^ e := by
  have hpos : (0 : ℚ) ≤ m * 2 ^ e := by positivity
  cases s <;> simp only [unpackedValue, Sign.apply] <;> push_cast
  · rw [neg_mul, abs_neg, abs_of_nonneg hpos]
  · exact abs_of_nonneg hpos

/-- The exponents of finite doubles go up to that of the largest. -/
theorem exponent_le {s : Sign} {m : Nat} {e : Int} {hm : 0 < m} (h : Fits (.finite s m e hm))
    (hsize : |unpackedValue (.finite s m e hm)| ≤ largestDouble) : e ≤ topExponent := by
  obtain ⟨-, -, hm52 | rfl⟩ := h
  · by_contra hlarge
    rw [abs_unpackedValue, cast_largestDouble] at hsize
    have hpos : (0 : ℚ) < 2 ^ (topExponent : ℤ) := by positivity
    have hm52' : (2 : ℚ) ^ 52 ≤ m := by exact_mod_cast hm52
    have hnext : (2 : ℚ) ^ 53 * 2 ^ (topExponent : ℤ) ≤ m * 2 ^ e := by
      calc (2 : ℚ) ^ 53 * 2 ^ (topExponent : ℤ) = 2 ^ 52 * 2 ^ (topExponent + 1 : ℤ) := by
            rw [zpow_add_one₀ two_ne_zero]
            ring
        _ ≤ 2 ^ 52 * 2 ^ e :=
            mul_le_mul_of_nonneg_left (zpow_le_zpow_right₀ one_le_two (by omega)) (by norm_num)
        _ ≤ m * 2 ^ e := by gcongr
    linarith
  · decide

theorem unpack_pack {u : UnpackedFloat} (h : Fits u) (hsize : |unpackedValue u| ≤ largestDouble) :
    (Float.Model.pack u).unpack = u := by
  cases u with
  | notANumber => exact h.elim
  | infinity s => exact h.elim
  | zero s => cases s <;> rfl
  | finite s m e hm =>
    have htop : e ≤ 971 := exponent_le h hsize
    obtain ⟨hm53, he, hm52⟩ := h
    change unpack .binary64 (pack .binary64 (.finite s m e hm)) = _
    have hbiased : (e + (Format.binary64.exponentBias : Int) +
        (Format.binary64.mantissaBitsWithoutImplicit : Int)) = e + 1075 := by
      change e + 1023 + 52 = _
      omega
    have hfinite : ¬ 2 ^ Format.binary64.exponentBits ≤ (e + 1075).toNat + 1 := by
      change ¬ 2048 ≤ (e + 1075).toNat + 1
      omega
    simp only [pack, hbiased, if_neg hfinite]
    split
    next hnormal =>
      have hlog : m.log2 = 52 := by
        change m.log2 + 1 = 53 at hnormal
        omega
      have hlow : 2 ^ 52 ≤ m := by
        rw [← hlog]
        exact Nat.log2_self_le hm.ne'
      have hexponent : ((e + 1075).toNat : Int) - 1075 = e := by omega
      rw [unpack_packComponents_normal s hm hlow hm53 (by omega) (by omega), hexponent]
    next hshort =>
      have hhigh : m < 2 ^ 52 := by
        by_contra hlow
        have hlog := (Nat.log2_eq_iff hm.ne').mpr ⟨not_lt.mp hlow, hm53⟩
        exact hshort (congrArg (· + 1) hlog)
      rw [unpack_packComponents_subnormal s hm hhigh, hm52.resolve_left (by omega)]

end Packing

end AffixRules
