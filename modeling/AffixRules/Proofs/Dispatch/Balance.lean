import AffixRules.Proofs.Dispatch.Change
import Mathlib.Algebra.BigOperators.Group.Finset.Basic
import Mathlib.Algebra.BigOperators.Group.Finset.Piecewise
import Mathlib.Data.Finset.Dedup

/-! The account of a dispatch. The values of the dice in a slot, less the change that the report
shows for the slot, is a balance that no change of the board touches. -/
namespace AffixRules

/-- The values of the hand's dice in a slot, a die counting once. -/
def Tray.valueAt (t : Tray) (hand : List DieId) (slot : Int) : Int :=
  ∑ i ∈ hand.toFinset with (t.get i).slot = slot, (t.get i).value

/-- By how much the values of the hand's dice in a slot rose from one tray to another. -/
def Tray.gain (t u : Tray) (hand : List DieId) (slot : Int) : Int :=
  ∑ i ∈ hand.toFinset with (t.get i).slot = slot, ((u.get i).value - (t.get i).value)

theorem Tray.gain_eq_sub {t u : Tray} (h : ∀ i, (u.get i).slot = (t.get i).slot)
    (hand : List DieId) (slot : Int) :
    t.gain u hand slot = u.valueAt hand slot - t.valueAt hand slot := by
  simp only [gain, valueAt, h, Finset.sum_sub_distrib]

theorem Tray.valueAt_congr {t u : Tray} (hs : ∀ i, (u.get i).slot = (t.get i).slot)
    (hv : ∀ i, (u.get i).value = (t.get i).value) (hand : List DieId) (slot : Int) :
    u.valueAt hand slot = t.valueAt hand slot := by
  simp only [valueAt, hs, hv]

theorem Tray.valueAt_set_withValue (t : Tray) {hand : List DieId} {i : DieId} (hi : i ∈ hand)
    (n slot : Int) :
    Tray.valueAt (t.set i ((t.get i).withValue n)) hand slot =
      t.valueAt hand slot + if (t.get i).slot = slot then n - (t.get i).value else 0 := by
  have hs : ∀ j, ((t.set i ((t.get i).withValue n)).get j).slot = (t.get j).slot := by
    intro j
    by_cases hj : i = j
    · subst hj
      simp [Die.withValue]
    · simp [hj]
  rw [← sub_eq_iff_eq_add', ← Tray.gain_eq_sub hs]
  have hterm : ∀ j, ((t.set i ((t.get i).withValue n)).get j).value - (t.get j).value =
      if i = j then n - (t.get i).value else 0 := by
    intro j
    by_cases hj : i = j
    · subst hj
      simp [Die.withValue]
    · simp [hj]
  simp only [Tray.gain, hterm, Finset.sum_ite_eq, Finset.mem_filter, List.mem_toFinset, hi,
    true_and]

namespace Board

variable {reached : DieId → Prop} {b c : Board} {hand : List DieId}

/-- What the dice of a slot are worth apart from the reported change. -/
def balance (b : Board) (hand : List DieId) (slot : Int) : Int :=
  b.tray.valueAt hand slot - b.report.change slot

theorem Change.balance_eq (h : Change reached b c) (hr : ∀ i, reached i → i ∈ hand) (slot : Int) :
    c.balance hand slot = b.balance hand slot := by
  cases h with
  | emit e => rfl
  | name fired => rfl
  | @write i hi n =>
    simp only [balance, writeValue, Report.change_record,
      Tray.valueAt_set_withValue b.tray (hr i hi)]
    omega
  | @repaint i hi f hf =>
    -- neither side of the balance reads tags or elements
    have hplain : ∀ j, ((b.modifyDie i f).tray.get j).plain = (b.tray.get j).plain := by
      intro j
      by_cases hj : i = j
      · subst hj
        simp [modifyDie, hf]
      · simp [modifyDie, hj]
    have hvalue : (b.modifyDie i f).tray.valueAt hand slot = b.tray.valueAt hand slot :=
      Tray.valueAt_congr (fun j => Die.slot_of_outline (Die.outline_of_plain (hplain j)))
        (fun j => Die.value_of_plain (hplain j)) hand slot
    simp only [balance, hvalue]
    rfl

theorem Becomes.balance_eq (h : Becomes reached b c) (hr : ∀ i, reached i → i ∈ hand)
    (slot : Int) : c.balance hand slot = b.balance hand slot := by
  induction h with
  | refl => rfl
  | tail _ hc ih => exact (hc.balance_eq hr slot).trans ih

/-- What the dice of a slot gained is what the report gained for it. -/
theorem Becomes.gain_eq (h : Becomes reached b c) (hr : ∀ i, reached i → i ∈ hand) (slot : Int) :
    b.tray.gain c.tray hand slot = c.report.change slot - b.report.change slot := by
  have hb := h.balance_eq hr slot
  rw [Tray.gain_eq_sub fun i => Die.slot_of_outline (h.outline_eq i)]
  simp only [balance] at hb
  omega

end Board

namespace Stage

variable (g : Stage)

theorem mem_of_reaches {hand : List DieId} (hh : g.hand ⊆ hand) {t : Tray} {source : DieId}
    (hs : source ∈ hand) (i : DieId) (h : g.Reaches t source i) : i ∈ hand :=
  h.elim (fun he => he ▸ hs) (fun hm => hh hm.1)

theorem applyAffix_gain {source : DieId} (hs : source ∈ g.hand) (a : Affix) (b : Board)
    (slot : Int) :
    b.tray.gain (g.applyAffix source a b).state.tray g.hand slot =
      (g.applyAffix source a b).state.report.change slot - b.report.change slot :=
  (g.applyAffix_becomes source a fun _ hi => hi).gain_eq
    (g.mem_of_reaches (List.Subset.refl _) hs) slot

/-- The report of a dispatch accounts for all that the hand and the source gained in a slot. -/
theorem fire_gain {trigger : Trigger} {source? : Option DieId} {t : Tray} {r : Report}
    (h : (g.fire trigger source? t).answer = .ok r) (slot : Int) :
    t.gain (g.fire trigger source? t).state (g.hand ++ source?.toList) slot = r.change slot := by
  have hh : g.hand ⊆ g.hand ++ source?.toList := List.subset_append_left _ _
  have hsources : ∀ source ∈ g.sources source? t, ∀ i, g.Reaches t source i →
      i ∈ g.hand ++ source?.toList := by
    intro source hsource
    apply g.mem_of_reaches hh
    cases source? with
    | none => exact hh (List.mem_filter.mp hsource).1
    | some i => exact List.mem_append_right _ hsource
  obtain ⟨report, hb, hr⟩ := g.fire_becomes trigger source? t hsources
  rw [hr r h]
  have hgain := hb.gain_eq (fun i (hi : i ∈ g.hand ++ source?.toList) => hi) slot
  simpa [Report.change] using hgain

end Stage

end AffixRules
