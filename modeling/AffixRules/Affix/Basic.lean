import AffixRules.Condition.Basic
import AffixRules.Document.Shown
import AffixRules.Effect.Payload

/-! Affixes: modifiers described as data, owned by an item, a die or a run. -/
namespace AffixRules

/-- When an affix fires. -/
inductive Trigger where
  | passive | onCombatStart | onTurnStart | onRoll | onUse
  deriving DecidableEq, Repr, Inhabited

instance : Vocabulary Trigger where
  title := "AffixTrigger"
  all := [.passive, .onCombatStart, .onTurnStart, .onRoll, .onUse]
  word
    | .passive => "passive"
    | .onCombatStart => "on_combat_start"
    | .onTurnStart => "on_turn_start"
    | .onRoll => "on_roll"
    | .onUse => "on_use"

/-- Which dice receive an effect, seen from the source die. -/
inductive TargetSelector where
  | self | left | right | neighbors | all | allExceptSource
  deriving DecidableEq, Repr, Inhabited

instance : Vocabulary TargetSelector where
  title := "TargetSelector"
  all := [.self, .left, .right, .neighbors, .all, .allExceptSource]
  word
    | .self => "self"
    | .left => "left"
    | .right => "right"
    | .neighbors => "neighbors"
    | .all => "all"
    | .allExceptSource => "all_except_source"

/-- How a pool groups affixes. -/
inductive Category where
  | statFlat | statMultiplier | damageFlat | damageMultiplier | elementalMultiplier | defenseFlat
  | healing | grantedAction | dice | misc
  deriving DecidableEq, Repr, Inhabited

instance : Vocabulary Category where
  title := "AffixCategory"
  all := [.statFlat, .statMultiplier, .damageFlat, .damageMultiplier, .elementalMultiplier,
    .defenseFlat, .healing, .grantedAction, .dice, .misc]
  word
    | .statFlat => "stat_flat"
    | .statMultiplier => "stat_multiplier"
    | .damageFlat => "damage_flat"
    | .damageMultiplier => "damage_multiplier"
    | .elementalMultiplier => "elemental_multiplier"
    | .defenseFlat => "defense_flat"
    | .healing => "healing"
    | .grantedAction => "granted_action"
    | .dice => "dice"
    | .misc => "misc"

/-- What an effect's magnitude is computed from. -/
inductive ValueSource where
  | static | selfValue | selfValueFraction | neighborPercent | contextUsedCount | playerStat
  | equippedItemCount | equipmentRaritySum
  deriving DecidableEq, Repr, Inhabited

instance : Vocabulary ValueSource where
  title := "ValueSource"
  all := [.static, .selfValue, .selfValueFraction, .neighborPercent, .contextUsedCount,
    .playerStat, .equippedItemCount, .equipmentRaritySum]
  word
    | .static => "static"
    | .selfValue => "self_value"
    | .selfValueFraction => "self_value_fraction"
    | .neighborPercent => "neighbor_percent"
    | .contextUsedCount => "context_used_count"
    | .playerStat => "player_stat"
    | .equippedItemCount => "equipped_item_count"
    | .equipmentRaritySum => "equipment_rarity_sum"

/-- An effect and how its magnitude is found. -/
structure Effect where
  kind : EffectKind := .statBonus
  value : Float := 0
  payload : Payload := .nothing
  source : ValueSource := .static
  sourceStat : Label := ""
  deriving DecidableEq, Inhabited

namespace Effect

def payloadWarnings (e : Effect) : List String :=
  (e.payload.fault? e.kind).toList.map PayloadFault.warning

def sourceWarnings (e : Effect) : List String :=
  if e.source = .playerStat ∧ e.sourceStat.isAbsent then
    ["PLAYER_STAT value source requires source_stat"] else []

end Effect

/-- A further effect of an affix. It shares the gate and the targets of the affix unless it has its
own. -/
structure SubEffect extends Effect where
  target? : Option TargetSelector := none
  condition? : Option Condition := none
  deriving DecidableEq, Inhabited

def SubEffect.warnings (s : SubEffect) : List String :=
  s.payloadWarnings ++ s.sourceWarnings ++ (s.condition?.map Condition.warnings).getD []

structure Affix where
  name : Label
  trigger : Trigger := .passive
  category : Category := .misc
  effect : Effect := {}
  selector : TargetSelector := .self
  condition? : Option Condition := none
  subEffects : List SubEffect := []
  tags : List Label := []
  statName : Label := ""
  /-- The bounds between which the value is rerolled. -/
  range? : Option (Float × Float) := none
  id : Label := ""
  description : Label := ""
  deriving DecidableEq, Inhabited

namespace Affix

def isCompound (a : Affix) : Bool := !a.subEffects.isEmpty

/-- The action that the primary effect's payload names. -/
def grantedActionId? (a : Affix) : Option Label :=
  match a.effect.payload with
  | .action id => some id
  | _ => none

def hasTag (a : Affix) (tag : Label) : Bool := a.tags.contains tag

def withValue (a : Affix) (value : Float) : Affix := { a with effect := { a.effect with value } }

/-- The affix in one line. -/
def shown (a : Affix) : String :=
  "Affix(" ++ a.name.shown ++ ", " ++ Vocabulary.label a.effect.kind ++ ", " ++
    floatText a.effect.value ++ ")"

def categoryWarnings (a : Affix) : List String :=
  (if (a.category = .statFlat ∨ a.category = .statMultiplier) ∧ a.statName.isAbsent then
    [Vocabulary.label a.category ++ " affix requires stat_name"] else []) ++
  (if a.category = .grantedAction ∧ a.effect.kind ≠ .grantAction then
    ["GRANTED_ACTION affix should use the GRANT_ACTION effect"] else [])

def rangeWarnings (a : Affix) : List String :=
  match a.range? with
  | some (low, high) =>
    if high < low then
      ["value_range (" ++ floatText low ++ ", " ++ floatText high ++ ") is reversed"]
    else []
  | none => []

def subEffectWarnings (a : Affix) : List String :=
  a.subEffects.zipIdx.flatMap fun (s, i) =>
    s.warnings.map fun w => "sub_effect[" ++ toString i ++ "]: " ++ w

/-- Warnings for the author, each after the affix's name. -/
def warnings (a : Affix) : List String :=
  (a.effect.payloadWarnings ++ a.categoryWarnings ++ a.effect.sourceWarnings ++ a.rangeWarnings ++
    (a.condition?.map Condition.warnings).getD [] ++ a.subEffectWarnings).map fun w =>
      a.name.asText ++ ": " ++ w

theorem warnings_eq_nil_iff (a : Affix) :
    a.warnings = [] ↔ a.effect.payloadWarnings = [] ∧ a.categoryWarnings = [] ∧
      a.effect.sourceWarnings = [] ∧ a.rangeWarnings = [] ∧
      (a.condition?.map Condition.warnings).getD [] = [] ∧ ∀ s ∈ a.subEffects, s.warnings = [] := by
  have hsubs : a.subEffectWarnings = [] ↔ ∀ s ∈ a.subEffects, s.warnings = [] := by
    rw [subEffectWarnings, List.flatMap_eq_nil_iff]
    constructor
    · intro h s hs
      obtain ⟨i, hi⟩ := List.mem_iff_getElem?.mp hs
      simpa using h (s, i) (List.mk_mem_zipIdx_iff_getElem?.mpr hi)
    · intro h x hx
      simpa using h x.1 (List.fst_mem_of_mem_zipIdx hx)
  simp only [warnings, List.map_eq_nil_iff, List.append_eq_nil_iff, hsubs, and_assoc]

end Affix

end AffixRules
