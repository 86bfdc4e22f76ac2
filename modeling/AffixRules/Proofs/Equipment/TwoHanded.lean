import AffixRules.Condition.Evaluation

/-! Two-handed items lie in both hands. Along a run of equipping and unequipping this holds in every
reached state exactly when no one-handed item is put into a hand that a two-handed one holds; then
no two-handed item passes for a pair of weapons. -/
namespace AffixRules

namespace Equipment

@[simp] theorem at?_put (e : Equipment) (slot other : EquipmentSlot) (item? : Option Item) :
    at? (e.put slot item?) other = if slot = other then item? else e.at? other := by
  by_cases h : slot = other <;> simp [at?, h]

@[simp] theorem at?_mapValues_clearItem (e : Equipment) (serial : Nat) (slot : EquipmentSlot) :
    at? (e.mapValues (clearItem serial)) slot = clearItem serial (e.at? slot) := by
  cases h : e.value? slot <;> simp [at?, h, clearItem]

/-- The two-handed item at a slot, if one is held there. -/
def twoHandedAt? (e : Equipment) (slot : EquipmentSlot) : Option Item :=
  (e.at? slot).filter Item.twoHanded

theorem twoHandedAt?_eq_some {e : Equipment} {slot : EquipmentSlot} {t : Item} :
    e.twoHandedAt? slot = some t ↔ e.at? slot = some t ∧ t.twoHanded = true :=
  Option.filter_eq_some_iff

/-- A two-handed item that one hand holds is held by both. -/
def Paired (e : Equipment) : Prop :=
  ∀ t : Item, t.twoHanded = true → (e.at? .mainHand = some t ↔ e.at? .offHand = some t)

theorem paired_iff {e : Equipment} :
    e.Paired ↔ e.twoHandedAt? .mainHand = e.twoHandedAt? .offHand := by
  constructor
  · intro h
    refine Option.ext fun t => ?_
    rw [twoHandedAt?_eq_some, twoHandedAt?_eq_some]
    exact and_congr_left (h t)
  · intro h t ht
    have hmain : e.twoHandedAt? .mainHand = some t ↔ e.at? .mainHand = some t := by
      simp [twoHandedAt?_eq_some, ht]
    have hoff : e.twoHandedAt? .offHand = some t ↔ e.at? .offHand = some t := by
      simp [twoHandedAt?_eq_some, ht]
    rw [← hmain, ← hoff, h]

inductive Step where
  | equip (item : Item) (slot? : Option EquipmentSlot)
  | unequip (slot : EquipmentSlot)

namespace Step

def take : Step → Equipment → Equipment
  | equip item slot?, e => e.equip item slot?
  | unequip slot, e => (e.unequip slot).2

/-- Whether a one-handed item takes one hand from a two-handed one. -/
def covers : Step → Equipment → Bool
  | equip item slot?, e =>
    let slot := slot?.getD item.slot
    !item.twoHanded && (slot = .mainHand || slot = .offHand) && (e.twoHandedAt? slot).isSome
  | unequip _, _ => false

end Step

def after (e : Equipment) (ss : List Step) : Equipment := ss.foldl (fun e s => s.take e) e

/-- No step of a run takes one hand from a two-handed item. -/
def uncovered : Equipment → List Step → Bool
  | _, [] => true
  | e, s :: ss => !s.covers e && uncovered (s.take e) ss

theorem paired_equip_twoHanded (e : Equipment) {item : Item} (slot? : Option EquipmentSlot)
    (ht : item.twoHanded = true) : (e.equip item slot?).Paired := by
  rw [paired_iff]
  simp [equip, ht, twoHandedAt?]

theorem paired_unequip {e : Equipment} (he : e.Paired) (slot : EquipmentSlot) :
    (e.unequip slot).2.Paired := by
  intro t ht
  unfold unequip
  split
  · simp only [at?_mapValues_clearItem, clearItem, Option.filter_eq_some_iff, he t ht]
  · exact he t ht

theorem twoHandedAt?_equip_oneHanded (e : Equipment) {item : Item} (ht : item.twoHanded = false)
    (slot? : Option EquipmentSlot) (other : EquipmentSlot) :
    (e.equip item slot?).twoHandedAt? other =
      if slot?.getD item.slot = other then none else e.twoHandedAt? other := by
  by_cases h : slot?.getD item.slot = other <;> simp [equip, ht, twoHandedAt?, h]

theorem paired_equip_oneHanded_iff {e : Equipment} (he : e.Paired) {item : Item}
    (ht : item.twoHanded = false) {slot? : Option EquipmentSlot} :
    (e.equip item slot?).Paired ↔ (Step.equip item slot?).covers e = false := by
  rw [paired_iff] at he ⊢
  rw [twoHandedAt?_equip_oneHanded e ht, twoHandedAt?_equip_oneHanded e ht]
  simp only [Step.covers, ht]
  -- the hand it goes to holds nothing two-handed afterwards, so the other one may not either
  generalize slot?.getD item.slot = slot
  by_cases hmain : slot = .mainHand
  · subst hmain
    simpa [he] using eq_comm
  · by_cases hoff : slot = .offHand
    · subst hoff
      simp [he]
    · simp [hmain, hoff, he]

/-- From a state where two-handed items lie in both hands a step leads to another one exactly when
it does not take one hand from such an item. -/
theorem paired_take_iff {e : Equipment} (he : e.Paired) (s : Step) :
    (s.take e).Paired ↔ s.covers e = false := by
  cases s with
  | equip item slot? =>
    cases ht : item.twoHanded with
    | true => simp [Step.take, Step.covers, ht, paired_equip_twoHanded e slot? ht]
    | false => exact paired_equip_oneHanded_iff he ht
  | unequip slot => simp [Step.take, Step.covers, paired_unequip he slot]

theorem uncovered_iff {e : Equipment} (he : e.Paired) (ss : List Step) :
    e.uncovered ss = true ↔ ∀ ns, ns <+: ss → (e.after ns).Paired := by
  induction ss generalizing e with
  | nil =>
    constructor
    · intro _ ns hns
      rw [List.prefix_nil.mp hns]
      exact he
    · intro _
      rfl
  | cons s ss ih =>
    simp only [uncovered, Bool.and_eq_true, Bool.not_eq_true', ← paired_take_iff he]
    constructor
    · rintro ⟨hs, hss⟩ ns hns
      obtain rfl | ⟨ms, rfl, hms⟩ := List.prefix_cons_iff.mp hns
      · exact he
      · exact (ih hs).mp hss ms hms
    · intro h
      have hs : (s.take e).Paired := h [s] (List.prefix_append [s] ss)
      exact ⟨hs, (ih hs).mpr fun ms hms => h (s :: ms) (List.prefix_cons_inj s |>.mpr hms)⟩

theorem Paired.not_dualWield {e : Equipment} (he : e.Paired) {slot : EquipmentSlot} {t : Item}
    (hslot : slot = .mainHand ∨ slot = .offHand) (ht : e.twoHandedAt? slot = some t) :
    Condition.dualWield e = false := by
  rw [twoHandedAt?_eq_some] at ht
  have hboth : e.at? .mainHand = some t ∧ e.at? .offHand = some t := by
    obtain rfl | rfl := hslot
    · exact ⟨ht.1, (he t ht.2).mp ht.1⟩
    · exact ⟨(he t ht.2).mpr ht.1, ht.1⟩
  simp [Condition.dualWield, hboth.1, hboth.2]

end Equipment

/-- Along a run from empty equipment every reached state holds its two-handed items in both hands
exactly when no step takes one hand from such an item; then the condition on two weapons blocks
where a hand holds a two-handed item. -/
theorem two_handed_in_both_hands (ss : List Equipment.Step) :
    (Equipment.uncovered [] ss = true ↔ ∀ ns, ns <+: ss → (Equipment.after [] ns).Paired) ∧
      (Equipment.uncovered [] ss = true →
        ∀ ns, ns <+: ss → ∀ (slot : EquipmentSlot) (t : Item),
          slot = .mainHand ∨ slot = .offHand →
          (Equipment.after [] ns).at? slot = some t → t.twoHanded = true →
          ∀ (c : Condition) (v : View), c.kind = .hasDualWield →
            v.scene.equipment = Equipment.after [] ns →
            c.evaluate v = .ok { blocked := !c.invert }) := by
  have hiff := Equipment.uncovered_iff (e := []) (by simp [Equipment.Paired, Equipment.at?]) ss
  refine ⟨hiff, fun huncovered ns hns slot t hslot hat ht c v hk hv => ?_⟩
  have hpaired : (Equipment.after [] ns).Paired := hiff.mp huncovered ns hns
  have hnot := hpaired.not_dualWield hslot (Equipment.twoHandedAt?_eq_some.mpr ⟨hat, ht⟩)
  have hverdict : c.verdict v = .ok { blocked := true } := by
    simp [Condition.verdict, hk, hv, hnot, Verdict.gate]
  cases hinvert : c.invert <;>
    simp [Condition.evaluate, hverdict, hinvert, Except.map, Verdict.flipped]

/-- A two-handed item that goes, and comes back over a one-handed one, lies in both hands again. -/
theorem two_handed_in_both_hands_after_swaps :
    let greatsword : Item := { serial := 0, id := "greatsword", name := "", twoHanded := true }
    let dagger : Item := { serial := 1, id := "dagger", name := "" }
    let ss : List Equipment.Step :=
      [.equip greatsword none, .unequip .offHand, .equip dagger (some .mainHand),
        .equip greatsword (some .head)]
    (Equipment.after [] ss).Paired ∧
      ∀ v : View, v.scene.equipment = Equipment.after [] ss →
        Condition.evaluate { kind := .hasDualWield } v = .ok { blocked := true } := by
  intro greatsword dagger ss
  have huncovered : Equipment.uncovered [] ss = true := by decide
  have hheld : (Equipment.after [] ss).at? .offHand = some greatsword := by decide
  obtain ⟨hiff, hblocked⟩ := two_handed_in_both_hands ss
  exact ⟨hiff.mp huncovered ss (List.prefix_refl ss), fun v hv =>
    hblocked huncovered ss (List.prefix_refl ss) .offHand greatsword (.inr rfl) hheld rfl _ v rfl hv⟩

/-- A one-handed item put into the main hand leaves the two-handed one in the off hand alone, and
the two pass for a pair of weapons. -/
theorem two_handed_left_in_one_hand :
    let greatsword : Item := { serial := 0, id := "greatsword", name := "", twoHanded := true }
    let dagger : Item := { serial := 1, id := "dagger", name := "" }
    let e := Equipment.after [] [.equip greatsword none, .equip dagger (some .mainHand)]
    e.at? .offHand = some greatsword ∧ e.at? .mainHand ≠ some greatsword ∧ ¬ e.Paired ∧
      ∀ v : View, v.scene.equipment = e →
        Condition.evaluate { kind := .hasDualWield } v = .ok .passed := by
  intro greatsword dagger e
  have hoff : e.at? .offHand = some greatsword := by decide
  have hmain : e.at? .mainHand ≠ some greatsword := by decide
  refine ⟨hoff, hmain, fun h => hmain ((h greatsword rfl).mpr hoff), fun v hv => ?_⟩
  have hpair : Condition.dualWield e = true := by decide
  simp [Condition.evaluate, Condition.verdict, hv, hpair, Except.map, Verdict.gate, Verdict.passed]

end AffixRules
