import AffixRules.Vocabulary
import AffixRules.Number.Written
import AffixRules.Text.Quoted

/-! Conditions: what gates an affix or scales its value. -/
namespace AffixRules

inductive ConditionKind where
  | none
  | selfValueAbove | selfValueBelow | healthAbovePercent | healthBelowPercent | statAbove
  | minDiceUsed | minEquipmentSlotsFilled
  | hasHeavyWeapon | hasDualWield | allSlotsFilled | classIs | neighborsUsed
  | selfValueIsMax | selfValueIsMin | selfValueBelowHalfMax | hasTag | inCombat
  | perUsedDie | perQualifyingNeighbor | perEquippedItem | perStatPoint | perEquipmentRarity
  deriving DecidableEq, Repr, Inhabited

instance : Vocabulary ConditionKind where
  title := "ConditionType"
  all := [.none, .selfValueAbove, .selfValueBelow, .healthAbovePercent, .healthBelowPercent,
    .statAbove, .minDiceUsed, .minEquipmentSlotsFilled, .hasHeavyWeapon, .hasDualWield,
    .allSlotsFilled, .classIs, .neighborsUsed, .selfValueIsMax, .selfValueIsMin,
    .selfValueBelowHalfMax, .hasTag, .inCombat, .perUsedDie, .perQualifyingNeighbor,
    .perEquippedItem, .perStatPoint, .perEquipmentRarity]
  word
    | .none => "none"
    | .selfValueAbove => "self_value_above"
    | .selfValueBelow => "self_value_below"
    | .healthAbovePercent => "health_above_percent"
    | .healthBelowPercent => "health_below_percent"
    | .statAbove => "stat_above"
    | .minDiceUsed => "min_dice_used"
    | .minEquipmentSlotsFilled => "min_equipment_slots_filled"
    | .hasHeavyWeapon => "has_heavy_weapon"
    | .hasDualWield => "has_dual_wield"
    | .allSlotsFilled => "all_slots_filled"
    | .classIs => "class_is"
    | .neighborsUsed => "neighbors_used"
    | .selfValueIsMax => "self_value_is_max"
    | .selfValueIsMin => "self_value_is_min"
    | .selfValueBelowHalfMax => "self_value_below_half_max"
    | .hasTag => "has_tag"
    | .inCombat => "in_combat"
    | .perUsedDie => "per_used_die"
    | .perQualifyingNeighbor => "per_qualifying_neighbor"
    | .perEquippedItem => "per_equipped_item"
    | .perStatPoint => "per_stat_point"
    | .perEquipmentRarity => "per_equipment_rarity"

namespace ConditionKind

/-- Scaling kinds never block; they count something. -/
def isScaling : ConditionKind → Bool
  | perUsedDie | perQualifyingNeighbor | perEquippedItem | perStatPoint | perEquipmentRarity => true
  | _ => false

/-- The parameter that a kind reads. -/
def parameter? : ConditionKind → Option String
  | statAbove | perStatPoint => some "stat"
  | classIs => some "class_name"
  | hasTag => some "tag"
  | _ => Option.none

end ConditionKind

/-- A predicate with its threshold and parameters; inversion flips the gate, never the scale. -/
structure Condition where
  kind : ConditionKind := .none
  threshold : Float := 0
  invert : Bool := false
  parameters : Entries String Document := []
  deriving DecidableEq, Inhabited

/-- What a condition answers: whether it blocks, and the factor of the value. -/
structure Verdict where
  blocked : Bool := false
  multiplier : Float := 1
  deriving DecidableEq, Repr, Inhabited

namespace Verdict

def passed : Verdict := {}

def gate (pass : Bool) : Verdict := { blocked := !pass }

def scaled (multiplier : Float) : Verdict := { multiplier }

def flipped (v : Verdict) : Verdict := { v with blocked := !v.blocked }

end Verdict

namespace Condition

/-- The parameter of a name, unless it counts as absent. -/
def parameter? (c : Condition) (name : String) : Option Document :=
  match c.parameters.value? name with
  | some d => if d.isAbsent then none else some d
  | none => none

/-- Warnings for the author. -/
def warnings (c : Condition) : List String :=
  let label := Vocabulary.label c.kind
  (match c.kind.parameter? with
    | some name =>
      if (c.parameter? name).isNone then [label ++ " requires data key " ++ quoted name] else []
    | none => []) ++
  (if c.kind = .healthAbovePercent ∨ c.kind = .healthBelowPercent then
    if 0 ≤ c.threshold ∧ c.threshold ≤ 1 then []
    else [label ++ " threshold " ++ floatText c.threshold ++ " is outside 0..1"]
   else []) ++
  (if c.invert && c.kind.isScaling then
    ["invert on scaling condition " ++ label ++ " blocks every evaluation"] else [])

end Condition

end AffixRules
