import AffixRules.Proofs.Offer.Eligible
import Mathlib.Data.List.Perm.Basic
import Mathlib.Logic.Function.Iterate

/-! Draws of offers. Whatever the numbers that are drawn, a place that is picked is one of the
candidates', so that a batch takes candidates out one by one until there are enough or none. -/
namespace AffixRules

section Pick

variable {α : Type} [OfNat α 0] [Add α] [Mul α] [LT α] [DecidableLT α]

omit [OfNat α 0] [Mul α] in
theorem hit?_lt {roll sum : α} {ws : List α} {i : Nat} (h : hit? roll sum ws = some i) :
    i < ws.length := by
  induction ws generalizing sum i with
  | nil => cases h
  | cons w ws ih =>
    rw [hit?] at h
    split at h
    · cases h
      exact Nat.succ_pos _
    · obtain ⟨k, hk, rfl⟩ := Option.map_eq_some_iff.mp h
      exact Nat.succ_lt_succ (ih hk)

theorem pickIndex_lt (draw : α) {ws : List α} (h : ws ≠ []) : pickIndex draw ws < ws.length := by
  have hpos : 0 < ws.length := List.length_pos_iff.mpr h
  rw [pickIndex]
  cases hhit : hit? (draw * weightSum ws) 0 ws with
  | none => exact Nat.sub_lt hpos Nat.one_pos
  | some i => exact hit?_lt hhit

end Pick

section Sample

variable {σ : Type} [Generator σ] {β : Type} (weight : β → Float)

/-- One draw takes one of the candidates out, the same one whatever is drawn after it. -/
theorem sample_step {cs : List β} (hcs : cs ≠ []) (g : σ) :
    ∃ x rest, cs.Perm (x :: rest) ∧ ∀ n,
      sample weight (n + 1) cs g =
        (x :: (sample weight n rest (Generator.fraction g).2).1,
          (sample weight n rest (Generator.fraction g).2).2) := by
  cases cs with
  | nil => exact absurd rfl hcs
  | cons c cs =>
    let i := pickIndex (Generator.fraction g).1 ((c :: cs).map weight)
    have hi : i < (c :: cs).length := by
      have hlt : i < ((c :: cs).map weight).length := pickIndex_lt _ (by simp)
      rwa [List.length_map] at hlt
    refine ⟨(c :: cs)[i], (c :: cs).eraseIdx i, (List.getElem_cons_eraseIdx_perm hi).symm,
      fun n => ?_⟩
    simp only [sample, sampleBy, List.getD_eq_getElem?_getD]
    rw [List.getElem?_eq_getElem hi]
    rfl

theorem sample_subperm (n : Nat) (cs : List β) (g : σ) : (sample weight n cs g).1.Subperm cs := by
  induction n generalizing cs g with
  | zero => exact List.nil_subperm
  | succ n ih =>
    by_cases hcs : cs = []
    · subst hcs
      exact List.nil_subperm
    · obtain ⟨x, rest, hperm, heq⟩ := sample_step weight hcs g
      rw [heq, hperm.subperm_left]
      exact (List.subperm_cons x).mpr (ih rest _)

theorem length_sample (n : Nat) (cs : List β) (g : σ) :
    (sample weight n cs g).1.length = min n cs.length := by
  induction n generalizing cs g with
  | zero => simp [sample, sampleBy]
  | succ n ih =>
    by_cases hcs : cs = []
    · subst hcs
      rfl
    · obtain ⟨x, rest, hperm, heq⟩ := sample_step weight hcs g
      have hlength := hperm.length_eq
      rw [List.length_cons] at hlength
      rw [heq, List.length_cons, ih, hlength]
      omega

/-- Each pick uses one draw and nothing else uses any. -/
theorem sample_draws (n : Nat) (cs : List β) (g : σ) :
    (sample weight n cs g).2 =
      (fun h : σ => (Generator.fraction h).2)^[(sample weight n cs g).1.length] g := by
  induction n generalizing cs g with
  | zero => rfl
  | succ n ih =>
    by_cases hcs : cs = []
    · subst hcs
      rfl
    · obtain ⟨x, rest, hperm, heq⟩ := sample_step weight hcs g
      rw [heq, List.length_cons, Function.iterate_succ_apply]
      exact ih rest _

end Sample

variable {σ : Type} [Generator σ]

/-- A batch is as many of the first offerable entries of their affixes as there are or are asked
for, no affix twice, for one draw each; a negative count is refused before any draw. -/
theorem rollOffers_samples_first_offerable (s : RunState) (catalog : List OfferEntry) (count : Int)
    (g : σ) :
    let E := firstOfEach (catalog.filter fun e => s.Offerable catalog e)
    (count < 0 → s.rollOffers catalog count g = .failed .negativeCount g) ∧
    (0 ≤ count → ∃ offers,
      s.rollOffers catalog count g =
        .done offers ((fun h : σ => (Generator.fraction h).2)^[offers.length] g) ∧
      (offers.length : Int) = min count E.length ∧
      (∀ e ∈ offers, e ∈ E) ∧
      (offers.map (·.affixId)).Nodup ∧
      ((E.length : Int) ≤ count → offers.Perm E)) := by
  intro E
  constructor
  · intro hneg
    rw [RunState.rollOffers, if_pos hneg]
  · intro hcount
    have hE : s.eligible catalog = E := s.eligible_eq catalog
    let drawn := sample OfferEntry.effectiveWeight count.toNat E g
    have hlength : drawn.1.length = min count.toNat E.length := length_sample _ _ _ _
    have hsub : drawn.1.Subperm E := sample_subperm _ _ _ _
    refine ⟨drawn.1, ?_, by omega, fun e he => hsub.subset he, ?_, fun hle => ?_⟩
    · rw [RunState.rollOffers, if_neg (by omega), hE, ← sample_draws]
    · obtain ⟨picked, hperm, hsublist⟩ := hsub
      have hnodup := (nodup_ids_firstOfEach _).sublist (hsublist.map (·.affixId))
      exact (hperm.map _).nodup_iff.mp hnodup
    · exact hsub.perm_of_length_le (by omega)

/-- Of two entries of one affix the first is excluded, of two of another the first has no weight, nor
has a third affix any; the second entry that is left has a weight that is no number, and the first draw
is none either. -/
theorem rollOffers_samples_second_of_two :
    let frost : OfferEntry := { affixId := "frost", tags := ["cold"] }
    let ember : OfferEntry := { affixId := "ember", excludes := ["cold"] }
    let spark : OfferEntry := { affixId := "ember", rarity := .rare }
    let faded : OfferEntry := { affixId := "blank", weight := 0 }
    let blank : OfferEntry := { affixId := "blank", weight := 0 / 0 }
    let cursed : OfferEntry := { affixId := "cursed", weight := -1 }
    let catalog := [frost, ember, spark, faded, blank, cursed, ember]
    let s : RunState := RunState.track {} frost
    let g : Script := { draws := [0 / 0, 7] }
    s.rollOffers catalog (-1) g = .failed .negativeCount g ∧
      ∃ offers, s.rollOffers catalog 3 g = .done offers { g with used := 2 } ∧
        offers.Perm [spark, blank] := by
  intro frost ember spark faded blank cursed catalog s g
  have hE : firstOfEach (catalog.filter fun e => s.Offerable catalog e) = [spark, blank] := by
    decide +kernel
  have hneg := (rollOffers_samples_first_offerable s catalog (-1) g).1
  obtain ⟨offers, hroll, -, -, -, hperm⟩ :=
    (rollOffers_samples_first_offerable s catalog 3 g).2 (by decide)
  rw [hE] at hperm
  have hall : offers.Perm [spark, blank] := hperm (by decide)
  have hlength : offers.length = 2 := hall.length_eq
  rw [hlength] at hroll
  exact ⟨hneg (by decide), offers, hroll, hall⟩

end AffixRules
