import AffixRules.Number.Conversion
import Mathlib

/-! The whole part of a double is a double: what truncation yields is never too large to be read as a
double again. The proof follows the rounding of the standard library's model of doubles, step by
step, and bounds the exponent at which a mantissa is packed. -/
namespace AffixRules

open Float.Model (Format UnpackedFloat totalExponent)
open Float.Model.UnpackedFloat

section Rounding

theorem mantissa_shiftRight (em : ExtendedMantissa) (k : Nat) :
    (em >>> k).mantissa = em.mantissa / 2 ^ k := by
  induction k with
  | zero => exact (Nat.div_one _).symm
  | succ k ih =>
    change (em >>> k).mantissa / 2 = _
    rw [ih, Nat.div_div_eq_div_mul, Nat.pow_succ]

/-- Zeros that are shifted out leave nothing to round. -/
theorem shiftRight_mul_two_pow (m k : Nat) :
    (⟨m * 2 ^ k, false, false⟩ : ExtendedMantissa) >>> k = ⟨m, false, false⟩ := by
  induction k generalizing m with
  | zero => simp [HShiftRight.hShiftRight, Nat.repeat]
  | succ k ih =>
    change ExtendedMantissa.shiftRightOne ((⟨m * 2 ^ (k + 1), false, false⟩ : ExtendedMantissa) >>> k) = _
    have hm : m * 2 ^ (k + 1) = (m * 2) * 2 ^ k := by rw [Nat.pow_succ]; ac_rfl
    rw [hm, ih]
    simp [ExtendedMantissa.shiftRightOne]

theorem roundedMantissa_le (em : ExtendedMantissa) : em.roundedMantissa ≤ em.mantissa + 1 := by
  obtain ⟨m, round, sticky⟩ := em
  cases round <;> cases sticky <;>
    simp [ExtendedMantissa.roundedMantissa, ExtendedMantissa.accuracy, Accuracy.roundToNearestEven]
  omega

theorem mantissa_ofMantissaAndAccuracy (m : Nat) (a : Accuracy) :
    (ExtendedMantissa.ofMantissaAndAccuracy m a).mantissa = m := by
  cases a with
  | exact => rfl
  | inexact o => cases o <;> rfl

/-- By how much a mantissa is shifted so that 53 bits of it are left. -/
def shiftOf (m : Nat) (e : Int) : Nat := (max ((m.log2 : Int) + e - 52) (-1074) - e).toNat

theorem shiftToTargetExponent_eq (m : Nat) (e : Int) (a : Accuracy) :
    shiftToTargetExponent .binary64 m e a =
      (ExtendedMantissa.ofMantissaAndAccuracy m a >>> shiftOf m e, e + shiftOf m e) := by
  have htarget : Format.binary64.targetExponent (totalExponent m e) =
      max ((m.log2 : Int) + e - 52) (-1074) := by
    change max ((m.log2 : Int) + 1 + e - 53) (-1074) = _
    omega
  unfold shiftToTargetExponent shiftToExponent shiftOf
  rw [htarget]

theorem div_two_pow_shiftOf_lt (m : Nat) (e : Int) : m / 2 ^ shiftOf m e < 2 ^ 53 := by
  have hlog : m.log2 + 1 ≤ 53 + shiftOf m e := by
    unfold shiftOf
    omega
  rw [Nat.div_lt_iff_lt_mul (Nat.two_pow_pos _), ← Nat.pow_add]
  exact Nat.lt_of_lt_of_le Nat.lt_log2_self (Nat.pow_le_pow_right (by decide) hlog)

/-- Neither infinite nor with an exponent above `top`. -/
def Below (top : Int) : UnpackedFloat → Prop
  | .infinity _ => False
  | .finite _ _ e _ => e ≤ top
  | _ => True

/-- Rounding leaves a number below the exponent at which 53 of its bits are left, or, if a carry makes
the mantissa longer, by as much above it. -/
theorem below_roundWithAccuracy {s : Sign} {m : Nat} {e : Int} {a : Accuracy} (top : Int)
    (carry : Nat) (he : e ≤ top) (hm : m.log2 + e - 52 ≤ top) (ht : -1074 ≤ top)
    (hr : (ExtendedMantissa.ofMantissaAndAccuracy m a >>> shiftOf m e).roundedMantissa.log2 ≤
      52 + carry) :
    Below (top + carry) (roundWithAccuracy .binary64 s m e a) := by
  unfold roundWithAccuracy
  rw [shiftToTargetExponent_eq]
  dsimp only
  generalize ExtendedMantissa.roundedMantissa _ = rounded at hr ⊢
  -- The second shift takes back what rounding has carried.
  rw [shiftToTargetExponent_eq]
  dsimp only
  split
  · trivial
  · change e + shiftOf m e + shiftOf rounded (e + shiftOf m e) ≤ top + carry
    unfold shiftOf
    omega

theorem log2_le_of_lt {n k : Nat} (h : n < 2 ^ (k + 1)) : n.log2 ≤ k := by
  by_cases hn : n = 0
  · simp [hn]
  · exact Nat.le_of_lt_succ ((Nat.log2_lt hn).mpr h)

theorem below_roundWithAccuracy_carried {s : Sign} {m : Nat} {e : Int} {a : Accuracy} (top : Int)
    (he : e ≤ top) (hm : m.log2 + e - 52 ≤ top) (ht : -1074 ≤ top) :
    Below (top + 1) (roundWithAccuracy .binary64 s m e a) := by
  refine below_roundWithAccuracy top 1 he hm ht (log2_le_of_lt ?_)
  have hle := roundedMantissa_le (ExtendedMantissa.ofMantissaAndAccuracy m a >>> shiftOf m e)
  have hlt := div_two_pow_shiftOf_lt m e
  rw [mantissa_shiftRight, mantissa_ofMantissaAndAccuracy] at hle
  omega

end Rounding

section Packing

/-- What packed bits stand for, by their exponent field. -/
theorem unpack_cases (b : BitVec Format.binary64.numBits) :
    let field := (unpackExponent b).toNat
    field = 2047 ∧ (unpack .binary64 b = .notANumber ∨ ∃ s, unpack .binary64 b = .infinity s) ∨
      field < 2047 ∧ ((∃ s, unpack .binary64 b = .zero s) ∨
        ∃ s m e hm, unpack .binary64 b = .finite s m e hm ∧ e = max (field : Int) 1 - 1075 ∧
          m < 2 ^ 53) := by
  intro field
  have hfield : field < 2048 := (unpackExponent b).isLt
  have hfraction : (unpackMantissa b).toNat < 2 ^ 52 := (unpackMantissa b).isLt
  unfold unpack
  dsimp only
  split
  next htop =>
    refine .inl ⟨congrArg BitVec.toNat htop, ?_⟩
    split
    · exact .inr ⟨_, rfl⟩
    · exact .inl rfl
  next htop =>
    have hlt : field ≠ 2047 := fun h => htop (BitVec.eq_of_toNat_eq h)
    refine .inr ⟨by omega, ?_⟩
    split
    next hzero =>
      have hz : field = 0 := congrArg BitVec.toNat hzero
      split
      · exact .inl ⟨_, rfl⟩
      next hm =>
        have hpos : 0 < (unpackMantissa b).toNat :=
          Nat.pos_of_ne_zero fun h => hm (BitVec.eq_of_toNat_eq h)
        refine .inr ⟨_, _, _, hpos, rfl, ?_, Nat.lt_trans hfraction (by decide)⟩
        change (field : Int) - (1023 + 52) + 1 = _
        omega
    next hzero =>
      have hz : field ≠ 0 := fun h => hzero (BitVec.eq_of_toNat_eq h)
      have happend : (1#1 ++ unpackMantissa b).toNat = 2 ^ 52 + (unpackMantissa b).toNat := by
        rw [BitVec.toNat_append, ← Nat.shiftLeft_add_eq_or_of_lt hfraction]
        rfl
      have hpos : 0 < (1#1 ++ unpackMantissa b).toNat := by omega
      refine .inr ⟨_, _, _, hpos, rfl, ?_, by omega⟩
      change (field : Int) - (1023 + 52) = _
      omega

theorem unpackExponent_pack_le (s : Sign) {m : Nat} {e : Int} (hm : 0 < m) (he : e ≤ 971) :
    ((unpackExponent (pack .binary64 (.finite s m e hm))).toNat : Int) ≤ max (e + 1075) 0 := by
  have hbiased : (e + (Format.binary64.exponentBias : Int) +
      (Format.binary64.mantissaBitsWithoutImplicit : Int)) = e + 1075 := by
    change e + 1023 + 52 = _
    omega
  have hfits : ¬ 2 ^ Format.binary64.exponentBits ≤ (e + 1075).toNat + 1 := by
    change ¬ 2048 ≤ (e + 1075).toNat + 1
    omega
  simp only [pack, hbiased, if_neg hfits]
  split
  · rw [unpackExponent_packComponents, BitVec.toNat_ofNat]
    have hmod := Nat.mod_le (e + 1075).toNat (2 ^ Format.binary64.exponentBits)
    omega
  · rw [unpackExponent_packComponents]
    exact Int.le_max_right _ _

/-- What is packed below the highest exponent is read as it was, as far as its exponent goes. -/
theorem below_unpack_pack {u : UnpackedFloat} {top : Int} (h : Below top u) (hlow : -1074 ≤ top)
    (hhigh : top ≤ 971) : Below top (Float.Model.pack u).unpack := by
  cases u with
  | infinity s => exact h.elim
  | notANumber => exact trivial
  | zero s => cases s <;> exact trivial
  | finite s m e hm =>
    have hfield := unpackExponent_pack_le s hm (Int.le_trans h hhigh)
    change Below top (unpack .binary64 (pack .binary64 (.finite s m e hm)))
    obtain ⟨htop, -⟩ | ⟨-, ⟨_, hz⟩ | ⟨_, _, e', _, hf, he', -⟩⟩ :=
      unpack_cases (pack .binary64 (.finite s m e hm))
    · have hle : e ≤ top := h
      omega
    · rw [hz]
      trivial
    · have hle : e ≤ top := h
      rw [hf]
      change e' ≤ top
      omega

theorem below_unpack {v : Float.Model} (h : v.isInf = false) : Below 971 v.unpack := by
  change (unpack .binary64 v.toBits.toBitVec).isInf = false at h
  change Below 971 (unpack .binary64 v.toBits.toBitVec)
  obtain ⟨-, hu | ⟨s, hu⟩⟩ | ⟨hlt, ⟨_, hu⟩ | ⟨_, _, e, _, hu, he, -⟩⟩ :=
    unpack_cases v.toBits.toBitVec <;> rw [hu] at h ⊢
  · trivial
  · cases h
  · trivial
  · change e ≤ 971
    omega

theorem isInf_eq_false_of_below {v : Float.Model} (top : Int) (h : Below top v.unpack) :
    v.isInf = false := by
  unfold Float.Model.isInf
  cases hu : v.unpack with
  | infinity s =>
    rw [hu] at h
    exact h.elim
  | _ => rfl

theorem lt_of_unpack_eq_finite {v : Float.Model} {s : Sign} {m : Nat} {e : Int} {hm : 0 < m}
    (h : v.unpack = .finite s m e hm) : m < 2 ^ 53 := by
  change unpack .binary64 v.toBits.toBitVec = _ at h
  obtain ⟨-, hu | ⟨s, hu⟩⟩ | ⟨-, ⟨_, hu⟩ | ⟨_, _, _, _, hu, -, hlt⟩⟩ :=
    unpack_cases v.toBits.toBitVec <;> rw [hu] at h <;> cases h
  exact hlt

end Packing

section Reading

theorem log2_mul_two_pow {n : Nat} (hn : n ≠ 0) (k : Nat) : (n * 2 ^ k).log2 = n.log2 + k := by
  have hne : n * 2 ^ k ≠ 0 := Nat.mul_ne_zero hn (Nat.ne_of_gt (Nat.two_pow_pos k))
  rw [Nat.log2_eq_iff hne, Nat.pow_add, Nat.add_right_comm, Nat.pow_add]
  exact ⟨Nat.mul_le_mul_right _ (Nat.log2_self_le hn),
    Nat.mul_lt_mul_of_pos_right Nat.lt_log2_self (Nat.two_pow_pos k)⟩

theorem log2_lt_of_lt_mul {n j k : Nat} (hn : n ≠ 0) (h : n < 2 ^ j * 2 ^ k) : n.log2 < j + k := by
  rw [Nat.log2_lt hn, Nat.pow_add]
  exact h

theorem below_ofUInt64 (n : UInt64) : Below 13 (Float.Model.ofUInt64 n).unpack := by
  refine below_unpack_pack ?_ (by decide) (by decide)
  change Below 13 (normalize .binary64 n.toNat 0 .positive)
  have hn : n.toNat < 2 ^ 64 := n.toNat_lt
  generalize n.toNat = m at hn ⊢
  cases m with
  | zero => trivial
  | succ m =>
    have hlog : (m + 1).log2 ≤ 63 := log2_le_of_lt hn
    change Below 13 (UnpackedFloat.round .binary64 .positive (m + 1) 0)
    unfold UnpackedFloat.round decreaseExponent
    dsimp only
    generalize Int.toNat _ = k
    rw [Nat.shiftLeft_eq]
    have hshift : ((m + 1) * 2 ^ k).log2 = (m + 1).log2 + k :=
      log2_mul_two_pow (Nat.succ_ne_zero m) k
    exact below_roundWithAccuracy_carried 12 (by omega) (by omega) (by decide)

/-- The number one, unpacked. -/
theorem unpack_one : (Float.exactlyRepresentablePowersOfTen[0]).toModel.unpack =
    .finite .positive (2 ^ 52) (-52) (by decide) := rfl

theorem isInf_ofNat_of_lt {n : Nat} (hn : n < 2 ^ 53) : (Float.ofNat n).isInf = false := by
  have hx : Float.ofNat n = n.toUInt64.toFloat * Float.exactlyRepresentablePowersOfTen[0] := by
    change Float.ofScientific n false 0 = _
    unfold Float.ofScientific
    rw [dif_pos ⟨hn, Nat.zero_le 22⟩]
    rfl
  rw [hx]
  refine isInf_eq_false_of_below 14 (below_unpack_pack ?_ (by decide) (by decide))
  rw [unpack_one]
  have hbelow := below_ofUInt64 n.toUInt64
  change Below 14 (mul .binary64 (Float.Model.ofUInt64 n.toUInt64).unpack _)
  cases hu : (Float.Model.ofUInt64 n.toUInt64).unpack with
  | infinity s =>
    rw [hu] at hbelow
    exact hbelow.elim
  | notANumber => trivial
  | zero s => trivial
  | finite s m e hm =>
    rw [hu] at hbelow
    have he : e ≤ 13 := hbelow
    have hlog : m.log2 ≤ 52 := log2_le_of_lt (lt_of_unpack_eq_finite hu)
    have hshift := log2_mul_two_pow (Nat.ne_of_gt hm) 52
    exact below_roundWithAccuracy_carried 13 (by omega) (by omega) (by decide)

/-- An integer that reaches by at most `2 ^ 53 - 1` above the places that are shifted out keeps 53 bits
when it is rounded: only zeros are shifted out of the largest of them. -/
theorem roundedMantissa_lt {n k : Nat} (hn : n ≤ (2 ^ 53 - 1) * 2 ^ k) :
    ((⟨n * 2 ^ 53, false, false⟩ : ExtendedMantissa) >>> (53 + k)).roundedMantissa < 2 ^ 53 := by
  have hpos : 0 < 2 ^ k := Nat.two_pow_pos k
  have hquotient : n * 2 ^ 53 / 2 ^ (53 + k) = n / 2 ^ k := by
    rw [Nat.pow_add, Nat.mul_comm n, Nat.mul_div_mul_left _ _ (Nat.two_pow_pos 53)]
  have hle : n / 2 ^ k ≤ 2 ^ 53 - 1 := by
    have hdiv := Nat.div_le_div_right (c := 2 ^ k) hn
    rwa [Nat.mul_div_cancel _ hpos] at hdiv
  -- Rounding up carries only from the largest quotient, and there nothing is left to round.
  by_cases htop : n / 2 ^ k = 2 ^ 53 - 1
  · have hmost : n = (2 ^ 53 - 1) * 2 ^ k :=
      Nat.le_antisymm hn (htop ▸ Nat.div_mul_le_self n (2 ^ k))
    have hexact : n * 2 ^ 53 = (2 ^ 53 - 1) * 2 ^ (53 + k) := by
      rw [hmost, Nat.pow_add]
      ac_rfl
    rw [hexact, shiftRight_mul_two_pow]
    decide
  · have hrounded := roundedMantissa_le ((⟨n * 2 ^ 53, false, false⟩ : ExtendedMantissa) >>> (53 + k))
    rw [mantissa_shiftRight, hquotient] at hrounded
    omega

/-- The exponent of the largest doubles, whose mantissas are whole. -/
def topExponent : Nat := 971

def largestDouble : Nat := (2 ^ 53 - 1) * 2 ^ topExponent

theorem largestDouble_lt : largestDouble < 2 ^ 53 * 2 ^ topExponent := by
  have hpos : 0 < 2 ^ topExponent := Nat.two_pow_pos topExponent
  unfold largestDouble
  generalize 2 ^ topExponent = k at hpos ⊢
  omega

theorem shiftLeft_pos {n : Nat} (hn : n ≠ 0) (k : Nat) : 0 < n <<< k := by
  rw [Nat.shiftLeft_eq]
  exact Nat.mul_pos (Nat.pos_of_ne_zero hn) (Nat.two_pow_pos k)

/-- An integer is read as itself times one. -/
theorem ofScientific_whole {n : Nat} (hn : n ≠ 0) : ofScientific .binary64 n 0 =
    mul .binary64 (.finite .positive (n <<< 53) (-53) (shiftLeft_pos hn 53))
      (.finite .positive (10 ^ 0) 0 (by decide)) := by
  have htiny : ¬ (0 : Int) < -(2 ^ 11 + (n.log2 : Int)) := by omega
  unfold ofScientific
  rw [dif_neg hn, if_neg (by decide), if_neg htiny, if_pos (Int.le_refl 0)]
  rfl

theorem mul_one_exact {n : Nat} {e : Int} (hn : 0 < n) :
    mul .binary64 (.finite .positive n e hn) (.finite .positive (10 ^ 0) 0 (by decide)) =
      roundWithAccuracy .binary64 .positive n e .exact := by
  change roundWithAccuracy .binary64 .positive (n * 10 ^ 0) (e + 0) .exact = _
  rw [Nat.pow_zero, Nat.mul_one, Int.add_zero]

theorem toModel_ofNat {n : Nat} (hn : 2 ^ 53 ≤ n) :
    (Float.ofNat n).toModel = .pack (ofScientific .binary64 n 0) := by
  have hx : Float.ofNat n = ⟨Float.Model.ofScientific n 0⟩ := by
    change Float.ofScientific n false 0 = _
    unfold Float.ofScientific
    rw [dif_neg fun h => Nat.not_lt.mpr hn h.1]
    rfl
  rw [hx]
  rfl

theorem isInf_ofNat_of_le {n : Nat} (hlow : 2 ^ 53 ≤ n) (hn : n ≤ largestDouble) :
    (Float.ofNat n).isInf = false := by
  have hne : n ≠ 0 := by omega
  have htop : topExponent = 971 := rfl
  have hlog : (n * 2 ^ 53).log2 = n.log2 + 53 := log2_mul_two_pow hne 53
  have hmany : 53 ≤ n.log2 := (Nat.le_log2 hne).mpr hlow
  have hfew : n.log2 < 53 + topExponent :=
    log2_lt_of_lt_mul hne (Nat.lt_of_le_of_lt hn largestDouble_lt)
  change (Float.ofNat n).toModel.isInf = false
  rw [toModel_ofNat hlow, ofScientific_whole hne, mul_one_exact, Nat.shiftLeft_eq]
  refine isInf_eq_false_of_below 971 (below_unpack_pack ?_ (by decide) (by decide))
  -- With 1024 bits, a carry would reach infinity.
  obtain hsmall | hlarge : n.log2 ≤ 1022 ∨ n.log2 = 1023 := by omega
  · exact below_roundWithAccuracy_carried 970 (by omega) (by omega) (by decide)
  · refine below_roundWithAccuracy 971 0 (by omega) (by omega) (by decide) (log2_le_of_lt ?_)
    have hshift : shiftOf (n * 2 ^ 53) (-53) = 53 + topExponent := by
      unfold shiftOf
      omega
    rw [hshift]
    exact roundedMantissa_lt hn

theorem isInf_ofNat {n : Nat} (hn : n ≤ largestDouble) : (Float.ofNat n).isInf = false := by
  by_cases hsmall : n < 2 ^ 53
  · exact isInf_ofNat_of_lt hsmall
  · exact isInf_ofNat_of_le (Nat.le_of_not_lt hsmall) hn

theorem isInf_neg {x : Float} (h : x.isInf = false) : x.neg.isInf = false := by
  refine isInf_eq_false_of_below 971 (below_unpack_pack ?_ (by decide) (by decide))
  have hx : Below 971 x.toModel.unpack := below_unpack h
  cases hu : x.toModel.unpack with
  | infinity s =>
    rw [hu] at hx
    exact hx.elim
  | notANumber => trivial
  | zero s => trivial
  | finite s m e hm =>
    rw [hu] at hx
    exact hx

/-- An integer no larger than the largest double is read as a double. -/
theorem toDouble_of_natAbs_le {n : Int} (hn : n.natAbs ≤ largestDouble) :
    ∃ x, toDouble n = .ok x := by
  have hfinite : (Float.ofInt n).isInf = false := by
    cases n with
    | ofNat k => exact isInf_ofNat hn
    | negSucc k => exact isInf_neg (isInf_ofNat hn)
  exact ⟨Float.ofInt n, by simp [toDouble, hfinite]⟩

end Reading

section Truncation

/-- The mantissa has 53 bits, all of them above the lowest exponent. -/
theorem bounds_of_ofBits {bits : UInt64} {negative : Bool} {m : Nat} {e : Int}
    (h : Parts.ofBits bits = .finite negative m e) :
    m < 2 ^ 53 ∧ e ≤ topExponent ∧ -1074 ≤ e ∧ (2 ^ 52 ≤ m ∨ e = -1074) := by
  have hfield : ((bits >>> 52) &&& 0x7ff).toNat ≤ 2047 := by
    rw [UInt64.toNat_and]
    exact Nat.and_le_right
  have hfraction : (bits &&& 0xfffffffffffff).toNat ≤ 2 ^ 52 - 1 := by
    rw [UInt64.toNat_and]
    exact Nat.and_le_right
  have hleading : Parts.leadingBit = 2 ^ 52 := rfl
  have htop : topExponent = 971 := rfl
  simp only [Parts.ofBits] at h
  generalize UInt64.toNat _ = field at h hfield
  generalize UInt64.toNat _ = fraction at h hfraction
  split at h
  · split at h <;> cases h
  · split at h <;> cases h <;> omega

theorem natAbs_signed (negative : Bool) (n : Nat) : (signed negative n).natAbs = n := by
  cases negative <;> simp [signed]

theorem natAbs_truncate_ofBits {bits : UInt64} {n : Int}
    (h : (Parts.ofBits bits).truncate? = some n) : n.natAbs ≤ largestDouble := by
  cases hp : Parts.ofBits bits with
  | notANumber => simp [hp, Parts.truncate?] at h
  | infinite negative => simp [hp, Parts.truncate?] at h
  | finite negative m e =>
    obtain ⟨hm, he, -⟩ := bounds_of_ofBits hp
    rw [hp] at h
    cases h
    rw [natAbs_signed]
    have hpower : twoTo e.toNat ≤ 2 ^ topExponent :=
      Nat.pow_le_pow_right Nat.two_pos (Int.toNat_le.mpr he)
    calc scaleUp m e / twoTo (-e).toNat
        ≤ scaleUp m e := Nat.div_le_self _ _
      _ ≤ largestDouble := Nat.mul_le_mul (Nat.le_sub_one_of_lt hm) hpower

theorem natAbs_truncate {x : Float} {n : Int} (h : truncate x = .ok n) :
    n.natAbs ≤ largestDouble := by
  unfold truncate at h
  cases hp : Parts.ofFloat x with
  | notANumber => simp [hp] at h
  | infinite negative => simp [hp] at h
  | finite negative m e =>
    simp only [hp, Parts.truncate?, Option.getD_some, Except.ok.injEq] at h
    have hn : (Parts.ofBits x.toBits).truncate? = some n :=
      (congrArg Parts.truncate? hp).trans (congrArg some h)
    exact natAbs_truncate_ofBits hn

/-- What truncation yields can be read as a double. -/
theorem toDouble_of_truncate {x : Float} {n : Int} (h : truncate x = .ok n) :
    ∃ y, toDouble n = .ok y :=
  toDouble_of_natAbs_le (natAbs_truncate h)

end Truncation

end AffixRules
