import AffixRules.Vocabulary

/-! Kinds of effects and the words that their payloads use. -/
namespace AffixRules

/-- What an affix or one of its parts does when it fires. -/
inductive EffectKind where
  | statBonus | grantAction
  | flatBonus | setMinimum | addTag | removeTag | setElement
  | randomizeElement | leechHeal | destroySelf | createCombatModifier
  deriving DecidableEq, Repr, Inhabited

instance : Vocabulary EffectKind where
  title := "EffectType"
  all := [.statBonus, .grantAction, .flatBonus, .setMinimum, .addTag, .removeTag, .setElement,
    .randomizeElement, .leechHeal, .destroySelf, .createCombatModifier]
  word
    | .statBonus => "stat_bonus"
    | .grantAction => "grant_action"
    | .flatBonus => "flat_bonus"
    | .setMinimum => "set_minimum"
    | .addTag => "add_tag"
    | .removeTag => "remove_tag"
    | .setElement => "set_element"
    | .randomizeElement => "randomize_element"
    | .leechHeal => "leech_heal"
    | .destroySelf => "destroy_self"
    | .createCombatModifier => "create_combat_modifier"

/-- The damage element of a die. -/
inductive Element where
  | none | fire | ice | shock | poison | shadow
  deriving DecidableEq, Repr, Inhabited

instance : Vocabulary Element where
  title := "Element"
  all := [.none, .fire, .ice, .shock, .poison, .shadow]
  word
    | .none => "none"
    | .fire => "fire"
    | .ice => "ice"
    | .shock => "shock"
    | .poison => "poison"
    | .shadow => "shadow"

/-- A flat modifier adds, a percent one multiplies. -/
inductive ModifierType where
  | flat | percent
  deriving DecidableEq, Repr, Inhabited

instance : Vocabulary ModifierType where
  title := "ModifierType"
  all := [.flat, .percent]
  word
    | .flat => "flat"
    | .percent => "percent"

/-- Until combat ends, or for a number of turns. -/
inductive ModifierDuration where
  | combat | turns
  deriving DecidableEq, Repr, Inhabited

instance : Vocabulary ModifierDuration where
  title := "ModifierDuration"
  all := [.combat, .turns]
  word
    | .combat => "combat"
    | .turns => "turns"

/-- Which dice a modifier reaches. -/
inductive TargetFilter where
  | all | allExceptSource | single
  deriving DecidableEq, Repr, Inhabited

instance : Vocabulary TargetFilter where
  title := "ModifierTargetFilter"
  all := [.all, .allExceptSource, .single]
  word
    | .all => "all"
    | .allExceptSource => "all_except_source"
    | .single => "single"

/-- What a dispatch asks of its caller. -/
inductive SpecialKind where
  | randomizeElement | leechHeal | destroyFromPool | createCombatModifier
  deriving DecidableEq, Repr, Inhabited

instance : Vocabulary SpecialKind where
  title := "SpecialEffectType"
  all := [.randomizeElement, .leechHeal, .destroyFromPool, .createCombatModifier]
  word
    | .randomizeElement => "randomize_element"
    | .leechHeal => "leech_heal"
    | .destroyFromPool => "destroy_from_pool"
    | .createCombatModifier => "create_combat_modifier"

end AffixRules
