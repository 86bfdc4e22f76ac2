import AffixRules.Proofs.Number.Doubles
import AffixRules.Proofs.Offer.Eligible
import Mathlib.Algebra.BigOperators.Group.List.Basic
import Mathlib.Algebra.Order.BigOperators.Group.List
import Mathlib.Order.Interval.Set.Basic

/-! The chances of an offer, with weights and draws taken exactly. A draw picks the candidate in whose
part of the unit interval it lies, and each part is as long as the candidate's share of the weight. -/
namespace AffixRules

section Pick

variable {ws : List ℚ} {roll sum d : ℚ} {i : Nat}

theorem weightSum_eq_sum (ws : List ℚ) : weightSum ws = ws.sum := List.sum_eq_foldl.symm

theorem sum_take_nonneg (hpos : ∀ w ∈ ws, 0 < w) (i : Nat) : 0 ≤ (ws.take i).sum :=
  List.sum_nonneg fun w hw => (hpos w (List.mem_of_mem_take hw)).le

/-- Positive weights are hit where the roll lies between two sums that follow each other. -/
theorem hit?_eq_some_iff (hpos : ∀ w ∈ ws, 0 < w) (hsum : sum ≤ roll) :
    hit? roll sum ws = some i ↔
      i < ws.length ∧ sum + (ws.take i).sum ≤ roll ∧ roll < sum + (ws.take (i + 1)).sum := by
  induction ws generalizing sum i with
  | nil => simp [hit?]
  | cons w ws ih =>
    obtain ⟨-, hws⟩ := List.forall_mem_cons.mp hpos
    rw [hit?]
    by_cases hlt : roll < sum + w
    · rw [if_pos hlt]
      cases i with
      | zero => simp [hsum, hlt]
      | succ i =>
        have hlater := sum_take_nonneg hws i
        have hnot : ¬ sum + (w + (ws.take i).sum) ≤ roll := by linarith
        simp [hnot]
    · rw [if_neg hlt, Option.map_eq_some_iff]
      cases i with
      | zero => simp [hlt]
      | succ i =>
        have hrest := ih hws (not_lt.mp hlt) (i := i)
        rw [List.take_succ_cons, List.take_succ_cons, List.sum_cons, List.sum_cons, ← add_assoc,
          ← add_assoc, List.length_cons, Nat.add_lt_add_iff_right, ← hrest]
        simp

/-- Some weight is hit by what does not reach the whole sum. -/
theorem exists_hit? (hlt : roll < sum + ws.sum) (hsum : sum ≤ roll) :
    ∃ i, hit? roll sum ws = some i := by
  induction ws generalizing sum with
  | nil =>
    rw [List.sum_nil, add_zero] at hlt
    exact absurd hsum (not_le.mpr hlt)
  | cons w ws ih =>
    rw [hit?]
    split
    · exact ⟨0, rfl⟩
    next hge =>
      rw [List.sum_cons, ← add_assoc] at hlt
      obtain ⟨i, hi⟩ := ih hlt (not_lt.mp hge)
      exact ⟨i + 1, by rw [hi]; rfl⟩

/-- The share of the weight that lies before a place. -/
def shareBefore (ws : List ℚ) (i : Nat) : ℚ := (ws.take i).sum / ws.sum

/-- The draws that belong to a place. -/
def drawsFor (ws : List ℚ) (i : Nat) : Set ℚ := Set.Ico (shareBefore ws i) (shareBefore ws (i + 1))

theorem sum_pos_of_ne_nil (hne : ws ≠ []) (hpos : ∀ w ∈ ws, 0 < w) : 0 < ws.sum :=
  List.sum_pos ws hpos hne

/-- The share of one weight. -/
theorem shareBefore_succ_sub (ws : List ℚ) {i : Nat} (hi : i < ws.length) :
    shareBefore ws (i + 1) - shareBefore ws i = ws[i] / ws.sum := by
  rw [shareBefore, shareBefore, List.sum_take_succ ws i hi, ← sub_div, add_sub_cancel_left]

theorem drawsFor_subset (hpos : ∀ w ∈ ws, 0 < w) (i : Nat) : drawsFor ws i ⊆ Set.Ico 0 1 := by
  have htotal : 0 ≤ ws.sum := List.sum_nonneg fun w hw => (hpos w hw).le
  have hrest : 0 ≤ (ws.drop (i + 1)).sum :=
    List.sum_nonneg fun w hw => (hpos w (List.mem_of_mem_drop hw)).le
  have hall := List.sum_take_add_sum_drop ws (i + 1)
  refine Set.Ico_subset_Ico (div_nonneg (sum_take_nonneg hpos i) htotal) ?_
  exact div_le_one_of_le₀ (by linarith) htotal

theorem exists_hit?_of_unit (hne : ws ≠ []) (hpos : ∀ w ∈ ws, 0 < w) (hd : d ∈ Set.Ico (0 : ℚ) 1) :
    0 ≤ d * ws.sum ∧ ∃ i, hit? (d * weightSum ws) 0 ws = some i := by
  have htotal := sum_pos_of_ne_nil hne hpos
  have hnonneg : 0 ≤ d * ws.sum := mul_nonneg hd.1 htotal.le
  have hless : d * ws.sum < 0 + ws.sum := by
    rw [zero_add]
    exact mul_lt_of_lt_one_left htotal hd.2
  rw [weightSum_eq_sum]
  exact ⟨hnonneg, exists_hit? hless hnonneg⟩

/-- A draw picks the place that it belongs to. -/
theorem pickIndex_eq_iff (hne : ws ≠ []) (hpos : ∀ w ∈ ws, 0 < w) (hd : d ∈ Set.Ico (0 : ℚ) 1) :
    pickIndex d ws = i ↔ i < ws.length ∧ d ∈ drawsFor ws i := by
  have htotal := sum_pos_of_ne_nil hne hpos
  obtain ⟨hnonneg, j, hj⟩ := exists_hit?_of_unit hne hpos hd
  have hpick : pickIndex d ws = i ↔ hit? (d * weightSum ws) 0 ws = some i := by
    rw [pickIndex, hj, Option.getD_some, Option.some.injEq]
  rw [hpick, weightSum_eq_sum, hit?_eq_some_iff hpos hnonneg, zero_add, zero_add, drawsFor,
    Set.mem_Ico, shareBefore, shareBefore, div_le_iff₀ htotal, lt_div_iff₀ htotal]

/-- The places share the unit interval among them. -/
theorem iUnion_drawsFor (hne : ws ≠ []) (hpos : ∀ w ∈ ws, 0 < w) :
    (⋃ i : Fin ws.length, drawsFor ws i) = Set.Ico 0 1 := by
  refine Set.Subset.antisymm (Set.iUnion_subset fun i => drawsFor_subset hpos i) fun d hd => ?_
  obtain ⟨hi, hmem⟩ := (pickIndex_eq_iff hne hpos hd).mp rfl
  exact Set.mem_iUnion.mpr ⟨⟨pickIndex d ws, hi⟩, hmem⟩

theorem pairwise_disjoint_drawsFor (hne : ws ≠ []) (hpos : ∀ w ∈ ws, 0 < w) :
    Pairwise (Function.onFun Disjoint fun i : Fin ws.length => drawsFor ws i) := by
  intro i j hij
  rw [Function.onFun, Set.disjoint_left]
  intro d hi hj
  have hd := drawsFor_subset hpos i hi
  have hpick := (pickIndex_eq_iff hne hpos hd).mpr ⟨i.isLt, hi⟩
  have hpick' := (pickIndex_eq_iff hne hpos hd).mpr ⟨j.isLt, hj⟩
  exact hij (Fin.ext (hpick.symm.trans hpick'))

end Pick

namespace OfferEntry

variable {e : OfferEntry}

/-- The weight of an offer over the divisor of its rarity, without rounding. -/
def exactWeight (e : OfferEntry) : ℚ := weightOver (exactValue e.weight) (e.rarity.divisor : ℚ)

theorem divisor_pos (e : OfferEntry) : (0 : ℚ) < e.rarity.divisor := by
  cases e.rarity <;> norm_num [OfferRarity.divisor]

theorem exactWeight_eq (h : 0 < exactValue e.weight) :
    e.exactWeight = exactValue e.weight / e.rarity.divisor := by
  rw [exactWeight, weightOver, if_neg (not_le.mpr h)]

theorem exactWeight_pos_iff : 0 < e.exactWeight ↔ 0 < exactValue e.weight := by
  rw [exactWeight, weightOver]
  split
  next h => simp [h]
  next h => simp [not_le.mp h, e.divisor_pos]

/-- The double that stands for a positive weight is a nearest one. -/
theorem rounds_effectiveWeight (hfinite : e.weight.isFinite = true) (hnot : ¬ e.weight ≤ 0)
    (hpos : 0 < exactValue e.weight) : Rounds e.effectiveWeight e.exactWeight := by
  have hsmall : e.rarity.divisor ≤ 2 ^ 53 := by cases e.rarity <;> decide
  have hone : (1 : ℚ) ≤ e.rarity.divisor := by
    cases e.rarity <;> norm_num [OfferRarity.divisor]
  have hdivisor := exactValue_ofNat hsmall
  have hbound : |exactValue e.weight / (e.rarity.divisor : ℚ)| ≤ largestDouble := by
    rw [abs_of_pos (div_pos hpos e.divisor_pos)]
    calc exactValue e.weight / (e.rarity.divisor : ℚ) ≤ exactValue e.weight :=
          div_le_self hpos.le hone
      _ ≤ largestDouble := (le_abs_self _).trans (abs_exactValue_le hfinite)
  rw [exactWeight_eq hpos, effectiveWeight, weightOver, if_neg hnot, ← hdivisor]
  refine rounds_div hfinite (rounds_ofNat ?_).finite ?_ ?_
  · exact hsmall.trans (by exact_mod_cast two_pow_le_largestDouble)
  · rw [hdivisor]
    exact e.divisor_pos.ne'
  · rw [hdivisor]
    exact lt_half_step hbound

/-- What may be offered has a positive weight. -/
theorem weight_of_offerable (hfinite : e.weight.isFinite = true) (h : ¬ e.effectiveWeight ≤ 0) :
    0 < e.exactWeight ∧ Rounds e.effectiveWeight e.exactWeight := by
  have hnot : ¬ e.weight ≤ 0 := by
    intro hle
    rw [effectiveWeight, weightOver, if_pos hle] at h
    exact h (by decide)
  have hpos : 0 < exactValue e.weight := by
    rwa [le_iff_exactValue_le hfinite rounds_zero.finite, rounds_zero.eq .zero, not_le] at hnot
  exact ⟨exactWeight_pos_iff.mpr hpos, rounds_effectiveWeight hfinite hnot hpos⟩

end OfferEntry

section Batch

variable {σ β : Type} {draw : σ → ℚ × σ} {weight : β → ℚ}

/-- A batch in which each draw takes out the candidate that it belongs to, of those that remain. -/
inductive DrawnByShare (draw : σ → ℚ × σ) (weight : β → ℚ) : Nat → List β → σ → List β → Prop
  | enough (cs : List β) (g : σ) : DrawnByShare draw weight 0 cs g []
  | exhausted (n : Nat) (g : σ) : DrawnByShare draw weight n [] g []
  | pick {n i : Nat} {cs offers : List β} {g : σ} (hi : i < cs.length)
      (hd : (draw g).1 ∈ drawsFor (cs.map weight) i)
      (rest : DrawnByShare draw weight n (cs.eraseIdx i) (draw g).2 offers) :
      DrawnByShare draw weight (n + 1) cs g (cs[i] :: offers)

theorem sampleBy_of_pickIndex (n : Nat) {cs : List β} {g : σ} {i : Nat} (hi : i < cs.length)
    (hpick : pickIndex (draw g).1 (cs.map weight) = i) :
    (sampleBy draw weight (n + 1) cs g).1 =
      cs[i] :: (sampleBy draw weight n (cs.eraseIdx i) (draw g).2).1 := by
  subst hpick
  cases cs with
  | nil => exact absurd hi (Nat.not_lt_zero _)
  | cons c cs =>
    rw [← List.getD_eq_getElem _ c hi]
    rfl

theorem sampleBy_eq_iff (hdraw : ∀ g, (draw g).1 ∈ Set.Ico (0 : ℚ) 1) {n : Nat} {cs : List β}
    (hpos : ∀ c ∈ cs, 0 < weight c) {g : σ} {offers : List β} :
    (sampleBy draw weight n cs g).1 = offers ↔ DrawnByShare draw weight n cs g offers := by
  induction n generalizing cs g offers with
  | zero =>
    constructor
    · rintro rfl
      exact .enough cs g
    · intro h
      cases h <;> rfl
  | succ n ih =>
    by_cases hcs : cs = []
    · subst hcs
      constructor
      · rintro rfl
        exact .exhausted (n + 1) g
      · intro h
        cases h with
        | exhausted => rfl
        | pick hi => exact absurd hi (Nat.not_lt_zero _)
    · have hws : cs.map weight ≠ [] := by simpa using hcs
      have hpositive : ∀ w ∈ cs.map weight, 0 < w := by simpa using hpos
      have hremain : ∀ i, ∀ c ∈ cs.eraseIdx i, 0 < weight c := fun i c hc =>
        hpos c (List.mem_of_mem_eraseIdx hc)
      have hiff := fun i => pickIndex_eq_iff (i := i) hws hpositive (hdraw g)
      constructor
      · obtain ⟨hi, hd⟩ := (hiff _).mp rfl
        rw [List.length_map] at hi
        rintro rfl
        rw [sampleBy_of_pickIndex n hi rfl]
        exact .pick hi hd ((ih (hremain _)).mp rfl)
      · intro h
        cases h with
        | exhausted => exact absurd rfl hcs
        | @pick n i cs offers g hi hd rest =>
          have hpick := (hiff i).mpr ⟨by rwa [List.length_map], hd⟩
          rw [sampleBy_of_pickIndex n hi hpick, (ih (hremain i)).mpr rest]

end Batch

/-- A draw from the unit interval picks the candidate in whose part of it it lies, without the last
resort. The parts are apart, fill the interval and are as long as the shares of the weights, each
weight being that of the offer over the divisor of its rarity. In a batch this holds of every draw
and the candidates that remain. -/
theorem draws_pick_by_share {σ : Type} (draw : σ → ℚ × σ)
    (hdraw : ∀ g, (draw g).1 ∈ Set.Ico (0 : ℚ) 1) :
    (∀ ws : List ℚ, ws ≠ [] → (∀ w ∈ ws, 0 < w) →
      (∀ d ∈ Set.Ico (0 : ℚ) 1, (∃ i, hit? (d * weightSum ws) 0 ws = some i) ∧
        ∀ i, pickIndex d ws = i ↔
          i < ws.length ∧ (ws.take i).sum / ws.sum ≤ d ∧ d < (ws.take (i + 1)).sum / ws.sum) ∧
      (⋃ i : Fin ws.length, drawsFor ws i) = Set.Ico 0 1 ∧
      Pairwise (Function.onFun Disjoint fun i : Fin ws.length => drawsFor ws i) ∧
      ∀ (i : Nat) (hi : i < ws.length),
        (ws.take (i + 1)).sum / ws.sum - (ws.take i).sum / ws.sum = ws[i] / ws.sum) ∧
    (∀ e : OfferEntry, 0 < e.exactWeight →
      e.exactWeight = exactValue e.weight / e.rarity.divisor) ∧
    (∀ (s : RunState) (catalog : List OfferEntry), ∀ e ∈ s.eligible catalog,
      e.weight.isFinite = true → 0 < e.exactWeight ∧ Rounds e.effectiveWeight e.exactWeight) ∧
    ∀ candidates : List OfferEntry, (∀ e ∈ candidates, 0 < e.exactWeight) →
      ∀ (n : Nat) (g : σ) (offers : List OfferEntry),
        (sampleBy draw OfferEntry.exactWeight n candidates g).1 = offers ↔
          DrawnByShare draw OfferEntry.exactWeight n candidates g offers := by
  refine ⟨fun ws hne hpos => ⟨fun d hd => ⟨?_, fun i => pickIndex_eq_iff hne hpos hd⟩, ?_, ?_, ?_⟩,
    fun e he => ?_, fun s catalog e he hfinite => ?_, fun candidates hpos n g offers => ?_⟩
  · exact (exists_hit?_of_unit hne hpos hd).2
  · exact iUnion_drawsFor hne hpos
  · exact pairwise_disjoint_drawsFor hne hpos
  · exact fun i hi => shareBefore_succ_sub ws hi
  · exact OfferEntry.exactWeight_eq (OfferEntry.exactWeight_pos_iff.mp he)
  · obtain ⟨-, -, -, hweight⟩ := RunState.offerable_of_mem_eligible he
    exact OfferEntry.weight_of_offerable hfinite hweight
  · exact sampleBy_eq_iff hdraw hpos

/-- Beside a common offer a legendary one has the last seventeenth of the draws, its lower end
included. -/
theorem draws_pick_by_share_at_boundary :
    let draw : Nat → ℚ × Nat := fun k => ((k % 17 : Nat) / 17, k + 1)
    let plain : OfferEntry := { affixId := "plain" }
    let grand : OfferEntry := { affixId := "grand", rarity := .legendary }
    pickIndex (16 / 17 : ℚ) [1, 1 / 16] = 1 ∧
      (sampleBy draw OfferEntry.exactWeight 1 [plain, grand] 16).1 = [grand] ∧
      (sampleBy draw OfferEntry.exactWeight 2 [plain, grand] 15).1 = [plain, grand] := by
  intro draw plain grand
  have hdraw : ∀ k, (draw k).1 ∈ Set.Ico (0 : ℚ) 1 := by
    intro k
    have hlt : ((k % 17 : Nat) : ℚ) < 17 := by exact_mod_cast Nat.mod_lt k (by decide)
    exact ⟨by positivity, by rw [div_lt_one (by norm_num)]; exact hlt⟩
  obtain ⟨hpick, hweight, -, hbatch⟩ := draws_pick_by_share draw hdraw
  have hone : exactValue 1 = 1 := by exact_mod_cast exactValue_ofNat (n := 1) (by decide)
  have hpositive : 0 < plain.exactWeight ∧ 0 < grand.exactWeight := by
    rw [OfferEntry.exactWeight_pos_iff, OfferEntry.exactWeight_pos_iff]
    exact ⟨hone ▸ one_pos, hone ▸ one_pos⟩
  have hplain : plain.exactWeight = 1 := by
    rw [hweight plain hpositive.1, hone]
    norm_num [plain, OfferRarity.divisor]
  have hgrand : grand.exactWeight = 1 / 16 := by
    rw [hweight grand hpositive.2, hone]
    norm_num [grand, OfferRarity.divisor]
  have hcandidates : ∀ e ∈ [plain, grand], 0 < e.exactWeight := by
    simpa using hpositive
  refine ⟨?_, (hbatch _ hcandidates _ _ _).mpr ?_, (hbatch _ hcandidates _ _ _).mpr ?_⟩
  · obtain ⟨hinterval, -⟩ := hpick [1, 1 / 16] (by simp) (by norm_num)
    exact ((hinterval (16 / 17) (by norm_num)).2 1).mpr (by norm_num)
  · refine .pick (i := 1) (by decide) ?_ (.enough _ _)
    norm_num [draw, drawsFor, shareBefore, hplain, hgrand]
  · refine .pick (i := 0) (by decide) ?_ (.pick (i := 0) (by decide) ?_ (.enough _ _))
    · norm_num [draw, drawsFor, shareBefore, hplain, hgrand]
    · norm_num [draw, drawsFor, shareBefore, hplain, hgrand]

end AffixRules
