import AffixRules.Proofs.Number.Exact

/-! Integers nearest to a number, then the numbers that 53 bits can hold, and which of them are nearest.
The exponent has no upper bound here: what is too large for a double is told apart by its size. -/
namespace AffixRules

section Integers

/-- An integer nearest to `q`, the even one of two. -/
structure NearestInt (n : ℤ) (q : ℚ) : Prop where
  close : |n - q| ≤ 1 / 2
  even : |n - q| = 1 / 2 → Even n

namespace NearestInt

variable {n k : ℤ} {q r : ℚ}

theorem intCast (n : ℤ) : NearestInt n n := by
  constructor <;> simp

theorem of_abs_lt (h : |n - q| < 1 / 2) : NearestInt n q :=
  ⟨h.le, fun hhalf => absurd hhalf h.ne⟩

theorem neg (h : NearestInt n q) : NearestInt (-n) (-q) := by
  have habs : |((-n : ℤ) : ℚ) - -q| = |n - q| := by
    rw [Int.cast_neg, neg_sub_neg, abs_sub_comm]
  exact ⟨habs ▸ h.close, fun hhalf => (h.even (habs ▸ hhalf)).neg⟩

/-- Only halves between two neighbors could come out in the other order, and both would be even. -/
theorem le_of_le (hn : NearestInt n q) (hk : NearestInt k r) (h : q ≤ r) : n ≤ k := by
  by_contra hlt
  have hstep : (k : ℚ) + 1 ≤ n := by exact_mod_cast not_le.mp hlt
  have hnq := (abs_le.mp hn.close).2
  have hkr := (abs_le.mp hk.close).1
  have hn₁ : (n : ℚ) - q = 1 / 2 := by linarith
  have hk₁ : (k : ℚ) - r = -(1 / 2) := by linarith
  have hnext : n = k + 1 := by
    have hcast : (n : ℚ) = k + 1 := by linarith
    exact_mod_cast hcast
  have hneven := hn.even (by rw [hn₁]; norm_num)
  have hkeven := hk.even (by rw [hk₁]; norm_num)
  rw [hnext, Int.even_add_one] at hneven
  exact hneven hkeven

end NearestInt

end Integers

/-- A whole number of 53 bits, scaled by a power of two that is not below the lowest. -/
def Representable (q : ℚ) : Prop := ∃ j e : ℤ, |j| < 2 ^ 53 ∧ -1074 ≤ e ∧ q = j * 2 ^ e

/-- A representable number that no other one is closer to `q` than. -/
structure Nearest (z q : ℚ) : Prop where
  representable : Representable z
  closest : ∀ w, Representable w → |z - q| ≤ |w - q|

section Representable

/-- What is scaled by a power of two is a multiple of every lower one. -/
theorem exists_mul_two_zpow (j : ℤ) {e f : ℤ} (h : e ≤ f) :
    ∃ i : ℤ, (j : ℚ) * 2 ^ f = i * 2 ^ e := by
  refine ⟨j * 2 ^ (f - e).toNat, ?_⟩
  have hpower : (2 : ℚ) ^ f = 2 ^ (f - e).toNat * 2 ^ e := by
    rw [← zpow_natCast, ← zpow_add₀ two_ne_zero]
    congr 1
    omega
  rw [hpower]
  push_cast
  ring

namespace Representable

variable {q : ℚ}

theorem neg (h : Representable q) : Representable (-q) := by
  obtain ⟨j, e, hj, he, rfl⟩ := h
  exact ⟨-j, e, by rwa [abs_neg], he, by push_cast; ring⟩

theorem mul_two_zpow {j e : ℤ} (hj : |j| ≤ 2 ^ 53) (he : -1074 ≤ e) :
    Representable (j * 2 ^ e) := by
  obtain hlt | heq := hj.lt_or_eq
  · exact ⟨j, e, hlt, he, rfl⟩
  -- One bit more is needed, and the lowest one is zero.
  · obtain ⟨i, rfl⟩ : ∃ i, j = 2 * i := by
      obtain rfl | rfl := (abs_eq (by decide)).mp heq
      · exact ⟨2 ^ 52, by decide⟩
      · exact ⟨-2 ^ 52, by decide⟩
    have hi : |i| < 2 ^ 53 := by
      rw [abs_mul] at heq
      norm_num at heq ⊢
      omega
    refine ⟨i, e + 1, hi, by omega, ?_⟩
    rw [zpow_add_one₀ two_ne_zero]
    push_cast
    ring

/-- At each exponent the largest number is the one with 53 ones. -/
theorem greatest {e : ℤ} (he : -1074 ≤ e) : Representable ((2 ^ 53 - 1) * 2 ^ e) := by
  have hmul := mul_two_zpow (j := 2 ^ 53 - 1) (by decide) he
  push_cast at hmul
  norm_num at hmul ⊢
  exact hmul

theorem intCast {n : ℤ} (h : |n| ≤ 2 ^ 53) : Representable n := by
  have hn := mul_two_zpow h (by decide : (-1074 : ℤ) ≤ 0)
  simpa using hn

theorem zero : Representable 0 := by simpa using intCast (n := 0) (by decide)

theorem unpackedValue {u : Float.Model.UnpackedFloat} (h : Fits u) :
    Representable (unpackedValue u) := by
  cases u with
  | notANumber => exact h.elim
  | infinity s => exact h.elim
  | zero s => exact zero
  | finite s m e hm =>
    obtain ⟨hm53, he, -⟩ := h
    refine ⟨s.apply m, e, ?_, he, rfl⟩
    cases s <;> simp [Float.Model.UnpackedFloat.Sign.apply] <;> omega

/-- At every exponent there is a gap below 54 bits. -/
theorem le_or_le (h : Representable q) (e : ℤ) :
    q ≤ (2 ^ 53 - 1) * 2 ^ e ∨ 2 ^ 53 * 2 ^ e ≤ q := by
  obtain ⟨j, f, hj, -, rfl⟩ := h
  have hj' := abs_lt.mp hj
  obtain hfe | hef := le_total f e
  · left
    have hle : (j : ℚ) ≤ 2 ^ 53 - 1 := by exact_mod_cast Int.le_sub_one_of_lt hj'.2
    calc (j : ℚ) * 2 ^ f ≤ (2 ^ 53 - 1) * 2 ^ f := by gcongr
      _ ≤ (2 ^ 53 - 1) * 2 ^ e := by
        gcongr
        exact one_le_two
  · obtain ⟨i, hi⟩ := exists_mul_two_zpow j hef
    rw [hi]
    obtain hle | hle : i ≤ 2 ^ 53 - 1 ∨ 2 ^ 53 ≤ i := by omega
    · left
      have hle' : (i : ℚ) ≤ 2 ^ 53 - 1 := by exact_mod_cast hle
      gcongr
    · right
      have hle' : (2 : ℚ) ^ 53 ≤ i := by exact_mod_cast hle
      gcongr

/-- What needs more than 53 bits before the point has none behind it. -/
theorem exists_int (h : Representable q) (hq : 2 ^ 53 ≤ |q|) : ∃ n : ℤ, q = n := by
  obtain ⟨j, e, hj, -, rfl⟩ := h
  have he : 0 ≤ e := by
    by_contra hneg
    have hj' : |(j : ℚ)| < 2 ^ 53 := by exact_mod_cast hj
    have hpower : (2 : ℚ) ^ e ≤ 1 := zpow_le_one_of_nonpos₀ one_le_two (by omega)
    have hpos : (0 : ℚ) < 2 ^ e := by positivity
    rw [abs_mul, abs_of_pos hpos] at hq
    have hle : |(j : ℚ)| * 2 ^ e ≤ |(j : ℚ)| := mul_le_of_le_one_right (abs_nonneg _) hpower
    linarith
  obtain ⟨i, hi⟩ := exists_mul_two_zpow j he
  exact ⟨i, by simpa using hi⟩

end Representable

theorem cast_largestDouble : (largestDouble : ℚ) = (2 ^ 53 - 1) * 2 ^ (topExponent : ℤ) := by
  rw [largestDouble, zpow_natCast]
  push_cast
  norm_num

end Representable

namespace Nearest

variable {w z q r : ℚ}

theorem refl (h : Representable q) : Nearest q q :=
  ⟨h, fun w _ => by simp⟩

theorem neg (h : Nearest z q) : Nearest (-z) (-q) := by
  refine ⟨h.representable.neg, fun w hw => ?_⟩
  have hle := h.closest (-w) hw.neg
  rw [← abs_neg (z - q), ← abs_neg (-w - q)] at hle
  simpa [sub_eq_add_neg, add_comm] using hle

/-- A number is no closer to a smaller representable number than to the nearest one. -/
theorem midpoint_le (h : Nearest z q) (hw : Representable w) (hlt : w < z) : (w + z) / 2 ≤ q := by
  have hle := sq_le_sq.mpr (h.closest w hw)
  by_contra hq
  nlinarith

theorem le_midpoint (h : Nearest z q) (hw : Representable w) (hlt : z < w) : q ≤ (w + z) / 2 := by
  have hmid := h.neg.midpoint_le hw.neg (neg_lt_neg hlt)
  linarith

theorem le_of_le (h : Nearest z q) (hw : Representable w) (hq : q ≤ w) : z ≤ w := by
  by_contra hlt
  have hmid := h.midpoint_le hw (not_le.mp hlt)
  linarith

theorem ge_of_ge (h : Nearest z q) (hw : Representable w) (hq : w ≤ q) : w ≤ z := by
  by_contra hlt
  have hmid := h.le_midpoint hw (not_le.mp hlt)
  linarith

theorem eq_of_representable (h : Nearest z q) (hq : Representable q) : z = q :=
  le_antisymm (h.le_of_le hq le_rfl) (h.ge_of_ge hq le_rfl)

/-- Of two numbers, the nearest representable ones are not in the other order. -/
theorem le_of_lt (hz : Nearest z q) (hw : Nearest w r) (h : q < r) : z ≤ w := by
  by_contra hlt
  have hlow := hz.midpoint_le hw.representable (not_le.mp hlt)
  have hhigh := hw.le_midpoint hz.representable (not_le.mp hlt)
  linarith

/-- What is less than half a step above the largest double is not rounded up. -/
theorem le_largestDouble (h : Nearest z q) (hq : q < largestDouble + 2 ^ (topExponent : ℤ) / 2) :
    z ≤ largestDouble := by
  rw [cast_largestDouble] at hq ⊢
  refine (h.representable.le_or_le topExponent).resolve_right fun hge => ?_
  have hpos : (0 : ℚ) < 2 ^ (topExponent : ℤ) := by positivity
  have hlow : (-1074 : ℤ) ≤ topExponent := by decide
  have hmid := h.midpoint_le (.greatest hlow) (by linarith)
  linarith

theorem abs_le_largestDouble (h : Nearest z q)
    (hq : |q| < largestDouble + 2 ^ (topExponent : ℤ) / 2) : |z| ≤ largestDouble := by
  obtain ⟨hlow, hhigh⟩ := abs_lt.mp hq
  have hneg := h.neg.le_largestDouble (by linarith)
  exact abs_le.mpr ⟨by linarith, h.le_largestDouble hhigh⟩

/-- Rounding to a multiple of a power of two yields a nearest number when 53 bits of the number are
left, or when no smaller power is there. -/
theorem of_multiple {i e : ℤ} (he : -1074 ≤ e) (hi : |i * 2 ^ e - q| ≤ 2 ^ e / 2) (hq : 0 ≤ q)
    (hhigh : q < 2 ^ 53 * 2 ^ e) (hlow : e = -1074 ∨ 2 ^ 52 * 2 ^ e ≤ q) :
    Nearest (i * 2 ^ e) q := by
  have hpos : (0 : ℚ) < 2 ^ e := by positivity
  obtain ⟨hi₁, hi₂⟩ := abs_le.mp hi
  -- Other multiples are at least half a step away.
  have hgrid (k : ℤ) : |i * 2 ^ e - q| ≤ |k * 2 ^ e - q| := by
    obtain hlt | rfl | hgt := lt_trichotomy k i
    · have hstep : (k : ℚ) + 1 ≤ i := by exact_mod_cast hlt
      have hmul : (k + 1 : ℚ) * 2 ^ e ≤ i * 2 ^ e := by gcongr
      exact hi.trans (le_abs.mpr (.inr (by linarith)))
    · rfl
    · have hstep : (i : ℚ) + 1 ≤ k := by exact_mod_cast hgt
      have hmul : (i + 1 : ℚ) * 2 ^ e ≤ k * 2 ^ e := by gcongr
      exact hi.trans (le_abs.mpr (.inl (by linarith)))
  have hbits : |i| ≤ 2 ^ 53 := by
    have hlt : (i : ℚ) < 2 ^ 53 + 1 := by
      by_contra hle
      have hmul : (2 ^ 53 + 1) * (2 : ℚ) ^ e ≤ i * 2 ^ e := by gcongr; exact not_lt.mp hle
      linarith
    have hgt : (-1 : ℚ) < i := by
      by_contra hle
      have hmul : (i : ℚ) * 2 ^ e ≤ (-1) * 2 ^ e := by gcongr; exact not_lt.mp hle
      linarith
    have hlt' : i < 2 ^ 53 + 1 := by exact_mod_cast hlt
    have hgt' : -1 < i := by exact_mod_cast hgt
    exact abs_le.mpr ⟨by omega, by omega⟩
  refine ⟨.mul_two_zpow hbits he, ?_⟩
  rintro w ⟨j, f, hj, hf, rfl⟩
  obtain hef | hfe := le_or_gt e f
  · obtain ⟨k, hk⟩ := exists_mul_two_zpow j hef
    rw [hk]
    exact hgrid k
  -- Below the binade of `q`, its lowest number is closer than any other.
  · have hbinade : 2 ^ 52 * 2 ^ e ≤ q := hlow.resolve_left (by omega)
    have hj' : (j : ℚ) ≤ 2 ^ 53 := by exact_mod_cast (abs_lt.mp hj).2.le
    have hbelow : (j : ℚ) * 2 ^ f ≤ 2 ^ 52 * 2 ^ e := by
      calc (j : ℚ) * 2 ^ f ≤ 2 ^ 53 * 2 ^ f := by gcongr
        _ = 2 ^ 52 * 2 ^ (f + 1) := by rw [zpow_add_one₀ two_ne_zero]; ring
        _ ≤ 2 ^ 52 * 2 ^ e := by gcongr <;> [norm_num; omega]
    have hclose := hgrid (2 ^ 52)
    rw [Int.cast_pow, Int.cast_ofNat, abs_of_nonpos (by linarith : 2 ^ 52 * 2 ^ e - q ≤ 0)] at hclose
    rw [abs_of_nonpos (by linarith : (j : ℚ) * 2 ^ f - q ≤ 0)]
    linarith

end Nearest

end AffixRules
