import AffixRules.Proofs.Affix.Reroll
import AffixRules.Proofs.Number.Hundredths

/-! Rerolls and the authored range. A point that is drawn between two finite bounds is between them for
every fraction: of the difference, the product and the sum none is rounded past a bound. Only rounding to
two decimals can leave the range, and it does not pass a bound that it keeps. -/
namespace AffixRules

open Float.Model (UnpackedFloat)

namespace Generator

/-- Fractions are drawn from zero up to, but not including, one. -/
def InUnit (σ : Type) [Generator σ] : Prop :=
  ∀ g : σ, 0 ≤ (fraction g).1 ∧ (fraction g).1 < 1

end Generator

theorem Turns.inUnit : Generator.InUnit Turns := by
  intro t
  have hlt : t.used % 4 < 4 := Nat.mod_lt _ (by decide)
  change 0 ≤ Float.ofNat (t.used % 4) / 4 ∧ Float.ofNat (t.used % 4) / 4 < 1
  generalize t.used % 4 = k at hlt
  interval_cases k <;> decide +kernel

section Fraction

variable {p d r : ℚ}

theorem mul_le_of_fraction (hr : 0 ≤ r) (hd : d ≤ 1 - 1 / 2 ^ 53) : r * d ≤ r :=
  mul_le_of_le_one_right hr (hd.trans (by norm_num))

/-- What is scaled down by a fraction of 53 bits is not rounded back, unless it has fewer bits. -/
theorem Nearest.lt_of_mul {m : Nat} {e : ℤ} (h : Nearest p (m * 2 ^ e * d)) (hlow : 2 ^ 52 ≤ m)
    (hhigh : m < 2 ^ 53) (he : -1074 < e) (hd : d ≤ 1 - 1 / 2 ^ 53) : p < m * 2 ^ e := by
  have hpos : (0 : ℚ) < 2 ^ e := by positivity
  have hscaled : (m : ℚ) * 2 ^ e * d ≤ m * 2 ^ e * (1 - 1 / 2 ^ 53) := by gcongr
  have hrep : Representable (m * 2 ^ e) := by
    have hmul := Representable.mul_two_zpow (j := m) (e := e)
      (by rw [Nat.abs_cast]; exact_mod_cast hhigh.le) he.le
    exact_mod_cast hmul
  have hle : p ≤ m * 2 ^ e := h.le_of_le hrep (mul_le_of_fraction (by positivity) hd)
  refine lt_of_le_of_ne hle fun heq => ?_
  -- The number below is close enough, which at a power of two is half a step below.
  obtain rfl | hmore := hlow.eq_or_lt
  · have hhalf : (2 : ℚ) ^ e = 2 * 2 ^ (e - 1) := by
      rw [← zpow_one_add₀ two_ne_zero]
      congr 1
      ring
    have hbelow : Representable ((2 ^ 53 - 1) * 2 ^ (e - 1)) := .greatest (by omega)
    have hstep : (0 : ℚ) < 2 ^ (e - 1) := by positivity
    push_cast at h heq hscaled
    rw [hhalf] at h heq hscaled
    have hmid := h.midpoint_le hbelow (by rw [heq]; linarith)
    rw [heq] at hmid
    linarith
  · have hbelow : Representable ((m - 1) * 2 ^ e) := by
      have hmul := Representable.mul_two_zpow (j := m - 1) (e := e)
        (by rw [abs_of_nonneg] <;> omega) he.le
      push_cast at hmul
      exact hmul
    have hmore' : (2 : ℚ) ^ 52 + 1 ≤ m := by exact_mod_cast hmore
    have hmul : ((2 : ℚ) ^ 52 + 1) * 2 ^ e ≤ m * 2 ^ e := by gcongr
    have hmid := h.midpoint_le hbelow (by rw [heq]; linarith)
    rw [heq] at hmid
    linarith

/-- A part of the rounded difference of two doubles does not exceed the difference. -/
theorem Nearest.mul_le {m : Nat} {e i : ℤ} (hr : r = i * 2 ^ (-1074 : ℤ)) (hr' : 0 ≤ r)
    (hw : Nearest (m * 2 ^ e) r) (hm : m < 2 ^ 53) (he : -1074 ≤ e) (htop : 2 ^ 52 ≤ m ∨ e = -1074)
    (hp : Nearest p (m * 2 ^ e * d)) (hd : d ≤ 1 - 1 / 2 ^ 53) : p ≤ r := by
  have hpos : (0 : ℚ) < 2 ^ e := by positivity
  have hle : p ≤ m * 2 ^ e :=
    hp.le_of_le hw.representable (mul_le_of_fraction (by positivity) hd)
  by_contra hlt
  rw [not_le] at hlt
  -- Rounded up, the difference is not one of the smallest doubles.
  have hnormal : -1074 < e := by
    refine lt_of_le_of_ne he fun heq => ?_
    subst heq
    have hless : (i : ℚ) * 2 ^ (-1074 : ℤ) < m * 2 ^ (-1074 : ℤ) := hr ▸ hlt.trans_le hle
    have hbits : |i| < 2 ^ 53 := by
      have him : (i : ℚ) < m := lt_of_mul_lt_mul_right hless hpos.le
      have hi : (0 : ℚ) ≤ i := nonneg_of_mul_nonneg_left (hr ▸ hr') hpos
      have him' : i < m := by exact_mod_cast him
      have hi' : 0 ≤ i := by exact_mod_cast hi
      rw [abs_of_nonneg hi']
      omega
    have heq := hw.eq_of_representable ⟨i, -1074, hbits, le_rfl, hr⟩
    rw [heq, hr] at hless
    exact lt_irrefl _ hless
  have hless := hp.lt_of_mul (htop.resolve_right (by omega)) hm hnormal hd
  have hmid := hw.midpoint_le hp.representable hless
  linarith

end Fraction

section Point

variable {x low high d : Float}

theorem isFinite_of_unit (h₀ : 0 ≤ d) (h₁ : d < 1) : d.isFinite = true := by
  have hone : (1 : Float).toModel.unpack = .finite .positive (2 ^ 52) (-52) (by decide) := rfl
  have hzero : (0 : Float).toModel.unpack = .zero .positive := rfl
  change decide ((0 : Float).toModel ≤ d.toModel) = true at h₀
  change decide (d.toModel < (1 : Float).toModel) = true at h₁
  rw [decide_eq_true_eq] at h₀ h₁
  change (0 : Float).toModel.unpack.le d.toModel.unpack = true at h₀
  change d.toModel.unpack.lt (1 : Float).toModel.unpack = true at h₁
  rw [hzero] at h₀
  rw [hone] at h₁
  change UnpackedFloat.isFinite d.toModel.unpack = true
  cases hu : d.toModel.unpack with
  | notANumber => rw [hu] at h₀; exact h₀
  | infinity s =>
    rw [hu] at h₀ h₁
    cases s with
    | negative => exact h₀
    | positive => exact h₁
  | zero s => rfl
  | finite s m e hm => rfl

theorem exactValue_of_unit (h₀ : 0 ≤ d) (h₁ : d < 1) :
    0 ≤ exactValue d ∧ exactValue d ≤ 1 - 1 / 2 ^ 53 := by
  have hd := isFinite_of_unit h₀ h₁
  rw [le_iff_exactValue_le rounds_zero.finite hd, rounds_zero.eq .zero] at h₀
  have hone : exactValue 1 = 1 := rounds_one.eq (by exact_mod_cast Representable.intCast (n := 1) (by decide))
  rw [lt_iff_exactValue_lt hd rounds_one.finite, hone] at h₁
  refine ⟨h₀, ?_⟩
  obtain hle | hge := (representable_exactValue hd).le_or_le (-53)
  · norm_num at hle ⊢
    exact hle
  · norm_num at hge
    linarith

/-- What is not whole is small. -/
theorem abs_lt_of_not_isWhole (hx : x.isFinite = true) (h : ¬ isWhole x = true) :
    |exactValue x| < 2 ^ 53 := by
  by_contra hlarge
  exact h (isWhole_iff.mpr ⟨hx, (representable_exactValue hx).exists_int (not_lt.mp hlarge)⟩)

/-- The difference of two bounds is read as a double if one of them is not whole. -/
theorem abs_sub_lt (hlow : low.isFinite = true) (hhigh : high.isFinite = true)
    (hpart : ¬ (isWhole low = true ∧ isWhole high = true)) :
    |exactValue high - exactValue low| < largestDouble + 2 ^ (topExponent : ℤ) / 2 := by
  have hstep := two_pow_le_step
  have hsub := abs_sub (exactValue high) (exactValue low)
  obtain hl | hh := not_and_or.mp hpart
  · linarith [abs_lt_of_not_isWhole hlow hl, abs_exactValue_le hhigh]
  · linarith [abs_lt_of_not_isWhole hhigh hh, abs_exactValue_le hlow]

theorem exists_multiple (hx : x.isFinite = true) : ∃ i : ℤ, exactValue x = i * 2 ^ (-1074 : ℤ) := by
  obtain ⟨j, e, -, he, hvalue⟩ := representable_exactValue hx
  obtain ⟨i, hi⟩ := exists_mul_two_zpow j he
  exact ⟨i, hvalue.trans hi⟩

theorem exists_mantissa (hx : x.isFinite = true) (h : 0 ≤ exactValue x) : ∃ (m : Nat) (e : ℤ),
    exactValue x = m * 2 ^ e ∧ m < 2 ^ 53 ∧ -1074 ≤ e ∧ (2 ^ 52 ≤ m ∨ e = -1074) := by
  obtain ⟨negative, m, e, hparts, hvalue⟩ := exists_ofFloat hx
  obtain ⟨hm, -, he, htop⟩ := bounds_of_ofBits hparts
  have hpos : (0 : ℚ) < 2 ^ e := by positivity
  refine ⟨m, e, ?_, hm, he, htop⟩
  rw [← abs_of_nonneg h, hvalue, abs_mul, abs_signed, abs_of_pos hpos]

/-- A draw of zero yields the lower bound. -/
theorem exactValue_drawn_zero (hlow : low.isFinite = true) (hhigh : high.isFinite = true)
    (hpart : ¬ (isWhole low = true ∧ isWhole high = true)) (hd : d.isFinite = true)
    (hzero : exactValue d = 0) :
    exactValue (low + (high - low) * d) = exactValue low := by
  have hsub := rounds_sub hhigh hlow (abs_sub_lt hlow hhigh hpart)
  have hnone : exactValue (high - low) * exactValue d = 0 := by rw [hzero, mul_zero]
  have hmul := rounds_mul hsub.finite hd (lt_half_step (by
    rw [hnone, abs_zero]
    exact Nat.cast_nonneg _))
  rw [hnone] at hmul
  have hsum : exactValue low + exactValue ((high - low) * d) = exactValue low := by
    rw [hmul.eq .zero, add_zero]
  have hadd := rounds_add hlow hmul.finite (lt_half_step (by
    rw [hsum]
    exact abs_exactValue_le hlow))
  rw [hsum] at hadd
  exact hadd.eq (representable_exactValue hlow)

/-- What is drawn between two bounds, before it is rounded to two decimals, is between them. -/
theorem drawn_between (hlow : low.isFinite = true) (hhigh : high.isFinite = true)
    (hle : exactValue low ≤ exactValue high)
    (hpart : ¬ (isWhole low = true ∧ isWhole high = true)) (h₀ : 0 ≤ d) (h₁ : d < 1) :
    (low + (high - low) * d).isFinite = true ∧
      exactValue low ≤ exactValue (low + (high - low) * d) ∧
      exactValue (low + (high - low) * d) ≤ exactValue high := by
  obtain ⟨hd₀, hd₁⟩ := exactValue_of_unit h₀ h₁
  -- The difference, and its part, are not negative.
  have hsub := rounds_sub hhigh hlow (abs_sub_lt hlow hhigh hpart)
  have hwidth : 0 ≤ exactValue high - exactValue low := sub_nonneg.mpr hle
  have hw : 0 ≤ exactValue (high - low) := hsub.nearest.ge_of_ge .zero hwidth
  have hpart₀ : 0 ≤ exactValue (high - low) * exactValue d := mul_nonneg hw hd₀
  have hpart₁ : exactValue (high - low) * exactValue d ≤ exactValue (high - low) :=
    mul_le_of_fraction hw hd₁
  have hmul := rounds_mul hsub.finite (isFinite_of_unit h₀ h₁) (lt_half_step (by
    rw [abs_of_nonneg hpart₀]
    exact hpart₁.trans ((le_abs_self _).trans (abs_exactValue_le hsub.finite))))
  have hp : 0 ≤ exactValue ((high - low) * d) := hmul.nearest.ge_of_ge .zero hpart₀
  have hp' : exactValue ((high - low) * d) ≤ exactValue high - exactValue low := by
    obtain ⟨i, hi⟩ := exists_multiple hhigh
    obtain ⟨j, hj⟩ := exists_multiple hlow
    have hgrid : exactValue high - exactValue low = (i - j : ℤ) * 2 ^ (-1074 : ℤ) := by
      rw [hi, hj, Int.cast_sub, sub_mul]
    obtain ⟨m, e, hvalue, hm, he, htop⟩ := exists_mantissa hsub.finite hw
    exact Nearest.mul_le hgrid hwidth (hvalue ▸ hsub.nearest) hm he htop (hvalue ▸ hmul.nearest) hd₁
  -- So the sum is between the bounds, and no bound is passed when it is rounded.
  have hsum₀ : exactValue low ≤ exactValue low + exactValue ((high - low) * d) := by linarith
  have hsum₁ : exactValue low + exactValue ((high - low) * d) ≤ exactValue high := by linarith
  have hadd := rounds_add hlow hmul.finite (lt_half_step (abs_le.mpr
    ⟨by linarith [neg_abs_le (exactValue low), abs_exactValue_le hlow],
      by linarith [le_abs_self (exactValue high), abs_exactValue_le hhigh]⟩))
  exact ⟨hadd.finite, hadd.nearest.ge_of_ge (representable_exactValue hlow) hsum₀,
    hadd.nearest.le_of_le (representable_exactValue hhigh) hsum₁⟩

end Point

section Whole

variable {low high value : Float}

theorem toDouble_eq_ok {n : ℤ} (h : toDouble n = .ok value) : value = Float.ofInt n := by
  unfold toDouble at h
  dsimp only at h
  split at h
  · cases h
  · exact (Except.ok.inj h).symm

theorem exactValue_of_truncate {a : ℤ} (hx : isWhole low = true) (h : truncate low = .ok a) :
    exactValue low = a := by
  obtain ⟨-, n, hn⟩ := isWhole_iff.mp hx
  obtain ⟨-, ha⟩ := truncate_eq_ok_iff.mp h
  rw [hn] at ha ⊢
  rw [← ha, towardZero, Int.floor_intCast, Int.ceil_intCast, ite_self]

/-- What is nearest to an integer is one. -/
theorem exists_int_of_rounds {n : ℤ} (h : Rounds value n) : ∃ k : ℤ, exactValue value = k := by
  obtain hsmall | hlarge := le_or_gt |n| (2 ^ 53)
  · exact ⟨n, h.eq (.intCast hsmall)⟩
  · refine (representable_exactValue h.finite).exists_int ?_
    have hlimit : Representable (2 ^ 53) := ⟨1, 53, by decide, by decide, by norm_num⟩
    obtain hpos | hneg := le_abs.mp hlarge.le
    · have hle : (2 : ℚ) ^ 53 ≤ n := by exact_mod_cast hpos
      exact (h.nearest.ge_of_ge hlimit hle).trans (le_abs_self _)
    · have hle : (n : ℚ) ≤ -2 ^ 53 := by
        have hcast : (2 : ℚ) ^ 53 ≤ -n := by exact_mod_cast hneg
        linarith
      have hge := h.nearest.le_of_le hlimit.neg hle
      exact le_abs.mpr (.inr (by linarith))

/-- A whole number between two bounds is between them as a double. -/
theorem toDouble_between {a b n : ℤ} (hlow : isWhole low = true) (hhigh : isWhole high = true)
    (ha : truncate low = .ok a) (hb : truncate high = .ok b) (han : a ≤ n) (hnb : n ≤ b)
    (h : toDouble n = .ok value) : isWhole value = true ∧ low ≤ value ∧ value ≤ high := by
  have hlowfin := (isWhole_iff.mp hlow).1
  have hhighfin := (isWhole_iff.mp hhigh).1
  have hamax := natAbs_truncate ha
  have hbmax := natAbs_truncate hb
  have hround : Rounds value n := by
    rw [toDouble_eq_ok h]
    exact rounds_ofInt (by omega)
  have hlown : exactValue low ≤ n := by
    rw [exactValue_of_truncate hlow ha]
    exact_mod_cast han
  have hnhigh : n ≤ exactValue high := by
    rw [exactValue_of_truncate hhigh hb]
    exact_mod_cast hnb
  rw [isWhole_iff, le_iff_exactValue_le hlowfin hround.finite, le_iff_exactValue_le hround.finite hhighfin]
  exact ⟨⟨hround.finite, exists_int_of_rounds hround⟩,
    hround.nearest.ge_of_ge (representable_exactValue hlowfin) hlown,
    hround.nearest.le_of_le (representable_exactValue hhighfin) hnhigh⟩

end Whole

section Rounded

variable {low high x : Float}

theorem toHundredths_le (hx : x.isFinite = true) (hhigh : high.isFinite = true) (hle : x ≤ high)
    (hkept : toHundredths high ≤ high) : toHundredths x ≤ high := by
  have hx' := isFinite_toHundredths hx
  have hhigh' := isFinite_toHundredths hhigh
  rw [le_iff_exactValue_le hx hhigh] at hle
  rw [le_iff_exactValue_le hhigh' hhigh] at hkept
  rw [le_iff_exactValue_le hx' hhigh]
  exact (toHundredths_mono hx hhigh hle).trans hkept

theorem le_toHundredths (hlow : low.isFinite = true) (hx : x.isFinite = true) (hle : low ≤ x)
    (hkept : low ≤ toHundredths low) : low ≤ toHundredths x := by
  have hx' := isFinite_toHundredths hx
  have hlow' := isFinite_toHundredths hlow
  rw [le_iff_exactValue_le hlow hx] at hle
  rw [le_iff_exactValue_le hlow hlow'] at hkept
  rw [le_iff_exactValue_le hlow hx']
  exact hkept.trans (toHundredths_mono hlow hx hle)

theorem le_toHundredths_congr {y : Float} (hlow : low.isFinite = true) (hx : x.isFinite = true)
    (hy : y.isFinite = true) (h : exactValue x = exactValue y) :
    low ≤ toHundredths x ↔ low ≤ toHundredths y := by
  have hsame := le_antisymm (toHundredths_mono hx hy h.le) (toHundredths_mono hy hx h.ge)
  rw [le_iff_exactValue_le hlow (isFinite_toHundredths hx),
    le_iff_exactValue_le hlow (isFinite_toHundredths hy), hsame]

/-- Rounding keeps a bound that is written with two decimals. -/
theorem toHundredths_hundredth_le {k : ℤ} (hk : |k| ≤ 2 ^ 50) :
    toHundredths (hundredth k) ≤ hundredth k ∧ hundredth k ≤ toHundredths (hundredth k) := by
  have hfinite := (nearestInt_hundredth hk).1.finite
  have hfinite' := isFinite_toHundredths hfinite
  have heq := exactValue_toHundredths_hundredth hk
  exact ⟨(le_iff_exactValue_le hfinite' hfinite).mpr heq.le,
    (le_iff_exactValue_le hfinite hfinite').mpr heq.ge⟩

end Rounded

section Roll

variable {σ : Type} [Generator σ]

theorem rollBetween_of_not_isWhole {low high : Float}
    (hpart : ¬ (isWhole low = true ∧ isWhole high = true)) (g : σ) :
    rollBetween low high g =
      .done (toHundredths (low + (high - low) * (Generator.fraction g).1)) (Generator.fraction g).2 := by
  rw [rollBetween, if_neg fun h => hpart ((Bool.and_eq_true _ _).mp h)]

/-- A reroll between finite bounds that are not reversed succeeds and sets what it returns. Between whole
bounds the value is whole and in the range. Else it is the drawn point of the range rounded to two
decimals, and in the range if rounding keeps the bounds, as it does with those that are written with two
decimals; a draw of zero keeps the lower bound exactly if rounding does. -/
theorem reroll_stays_in_rounded_range (hσ : Generator.InBounds σ) (hunit : Generator.InUnit σ)
    {a : Affix} {low high : Float} (hrange : a.range? = some (low, high))
    (hlow : low.isFinite = true) (hhigh : high.isFinite = true) (hle : low ≤ high) (g : σ) :
    ∃ v g', a.rollValue g = .done v g' ∧ a.rerolled g = .done (a.withValue v) g' ∧
      (a.withValue v).effect.value = v ∧
      (isWhole low = true ∧ isWhole high = true → isWhole v = true ∧ low ≤ v ∧ v ≤ high) ∧
      (¬ (isWhole low = true ∧ isWhole high = true) →
        let x := low + (high - low) * (Generator.fraction g).1
        (low ≤ x ∧ x ≤ high ∧ v = toHundredths x) ∧
          ((Generator.fraction g).1 ≤ 0 → (low ≤ v ↔ low ≤ toHundredths low))) ∧
      (low ≤ toHundredths low → low ≤ v) ∧ (toHundredths high ≤ high → v ≤ high) ∧
      (∀ k : ℤ, |k| ≤ 2 ^ 50 → low = hundredth k → low ≤ v) ∧
      (∀ k : ℤ, |k| ≤ 2 ^ 50 → high = hundredth k → v ≤ high) := by
  have hroll : a.rollValue g = rollBetween low high g := by rw [Affix.rollValue, hrange]
  have hle' := (le_iff_exactValue_le hlow hhigh).mp hle
  rw [Affix.rerolled, hroll]
  by_cases hwhole : isWhole low = true ∧ isWhole high = true
  · have hnot : ¬ high < low := by
      rw [lt_iff_exactValue_lt hhigh hlow]
      exact not_lt.mpr hle'
    obtain ⟨b, c, n, v, g', hb, hc, hbn, hnc, hv, hdone⟩ :=
      exists_rollBetween_of_whole hσ hwhole hnot g
    have hvalue := toDouble_between hwhole.1 hwhole.2 hb hc hbn hnc hv
    refine ⟨v, g', hdone, by rw [hdone, Outcome.andThen_done], rfl, fun _ => hvalue,
      fun hpart => absurd hwhole hpart, ?_⟩
    exact ⟨fun _ => hvalue.2.1, fun _ => hvalue.2.2, fun _ _ _ => hvalue.2.1, fun _ _ _ => hvalue.2.2⟩
  · obtain ⟨h₀, h₁⟩ := hunit g
    have hdone := rollBetween_of_not_isWhole hwhole g
    generalize hd : (Generator.fraction g).1 = d at h₀ h₁ hdone ⊢
    obtain ⟨hx, hlowx, hxhigh⟩ := drawn_between hlow hhigh hle' hwhole h₀ h₁
    rw [← le_iff_exactValue_le hlow hx] at hlowx
    rw [← le_iff_exactValue_le hx hhigh] at hxhigh
    refine ⟨_, _, hdone, by rw [hdone, Outcome.andThen_done], rfl, fun h => absurd h hwhole,
      fun _ => ⟨⟨hlowx, hxhigh, rfl⟩, fun hzero => ?_⟩, le_toHundredths hlow hx hlowx,
      toHundredths_le hx hhigh hxhigh, ?_, ?_⟩
    · have hdfin := isFinite_of_unit h₀ h₁
      rw [le_iff_exactValue_le hdfin rounds_zero.finite, rounds_zero.eq .zero] at hzero
      have hd₀ := le_antisymm hzero (exactValue_of_unit h₀ h₁).1
      exact le_toHundredths_congr hlow hx hlow (exactValue_drawn_zero hlow hhigh hwhole hdfin hd₀)
    · rintro k hk rfl
      exact le_toHundredths hlow hx hlowx (toHundredths_hundredth_le hk).2
    · rintro k hk rfl
      exact toHundredths_le hx hhigh hxhigh (toHundredths_hundredth_le hk).1

/-- A tenth to a half, in quarters of the way. -/
theorem reroll_of_tenths_stays_in_range : Generator.InBounds Turns ∧ Generator.InUnit Turns ∧
    (Float.isFinite 0.1 = true ∧ Float.isFinite 0.5 = true ∧ (0.1 : Float) ≤ 0.5) ∧
    ∃ v g', ({ name := "Spark", range? := some (0.1, 0.5) } : Affix).rollValue (Turns.mk 3) = .done v g' ∧
      0.1 ≤ v ∧ v ≤ 0.5 := by
  refine ⟨Turns.inBounds, Turns.inUnit, by decide +kernel, ?_⟩
  have hrange : ({ name := "Spark", range? := some (0.1, 0.5) } : Affix).range? = some (0.1, 0.5) := rfl
  obtain ⟨v, g', hroll, -, -, -, -, -, -, hlow, hhigh⟩ := reroll_stays_in_rounded_range Turns.inBounds
    Turns.inUnit hrange (by decide +kernel) (by decide +kernel) (by decide +kernel) (Turns.mk 3)
  exact ⟨v, g', hroll, hlow 10 (by decide) (by decide +kernel), hhigh 50 (by decide) (by decide +kernel)⟩

/-- The middle of a range that is narrower than a hundredth is rounded out of it. -/
theorem reroll_of_thousandths_leaves_range : Generator.InBounds Turns ∧ Generator.InUnit Turns ∧
    (Float.isFinite 0.001 = true ∧ Float.isFinite 0.004 = true ∧ (0.001 : Float) ≤ 0.004) ∧
    ∃ v, ({ name := "Spark", range? := some (0.001, 0.004) } : Affix).rollValue (Turns.mk 2) =
      .done v (Turns.mk 3) ∧ v < 0.001 := by
  have hpart : ¬ (isWhole 0.001 = true ∧ isWhole 0.004 = true) := by decide +kernel
  exact ⟨Turns.inBounds, Turns.inUnit, by decide +kernel, _,
    rollBetween_of_not_isWhole hpart (Turns.mk 2), by decide +kernel⟩

end Roll

end AffixRules
