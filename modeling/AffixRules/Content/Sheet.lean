import AffixRules.Affix.Basic
import AffixRules.Content.Checked
import AffixRules.Offer.RunState

/-! Content sheets: affixes and offers as authors write them, and the engine's values made of them.
Unknown fields are ignored. -/
namespace AffixRules

/-- Every key that a payload may use; an effect takes those that it needs. -/
structure PayloadSheet where
  tag? : Option String := none
  element? : Option Element := none
  elements : List Element := []
  percent? : Option Float := none
  modType : ModifierType := .flat
  duration : ModifierDuration := .combat
  turns : Int := 0
  filter : TargetFilter := .all
  action? : Option String := none
  deriving DecidableEq, Inhabited

namespace PayloadSheet

def nonEmpty? (s? : Option String) : Option String := s?.filter (· ≠ "")

/-- The payload of an effect; without its key an effect has none. -/
def payload (s : PayloadSheet) : EffectKind → Payload
  | .addTag | .removeTag => (nonEmpty? s.tag?).elim .nothing fun tag => .tag tag
  | .setElement => s.element?.elim .nothing .element
  | .randomizeElement => .randomize s.elements
  | .leechHeal => s.percent?.elim .nothing .leech
  | .createCombatModifier => .modifier ⟨s.modType, s.duration, s.turns, s.filter⟩
  | .grantAction => (nonEmpty? s.action?).elim .nothing fun id => .action id
  | _ => .nothing

open Checked in
def ofFields (fields : Entries String Document) : Checked PayloadSheet :=
  (optional fields "tag" none (orNull text)).map PayloadSheet.mk
    |>.and (optional fields "element" none (orNull word))
    |>.and (optional fields "elements" [] (list word))
    |>.and (optional fields "percent" none (orNull float))
    |>.and (optional fields "mod_type" .flat word)
    |>.and (optional fields "duration" .combat word)
    |>.and (optional fields "turns" 0 int)
    |>.and (optional fields "target_filter" .all word)
    |>.and (optional fields "action_id" none (orNull text))

def ofDocument : Document → Checked PayloadSheet := Checked.model ofFields

end PayloadSheet

/-- The payload that a sheet, or the lack of one, gives an effect. -/
def Payload.ofSheet (kind : EffectKind) (sheet? : Option PayloadSheet) : Payload :=
  (sheet?.getD {}).payload kind

namespace Condition

open Checked in
def ofFields (fields : Entries String Document) : Checked Condition :=
  (optional fields "kind" .none word).map Condition.mk
    |>.and (optional fields "threshold" 0 float)
    |>.and (optional fields "invert" false bool)
    |>.and (optional fields "data" [] (dict .ok))

def ofDocument : Document → Checked Condition := Checked.model ofFields

end Condition

structure SubEffectSheet where
  kind : EffectKind := .statBonus
  value : Float := 0
  payload? : Option PayloadSheet := none
  source : ValueSource := .static
  sourceStat : String := ""
  target? : Option TargetSelector := none
  condition? : Option Condition := none
  deriving DecidableEq, Inhabited

namespace SubEffectSheet

def toSubEffect (s : SubEffectSheet) : SubEffect :=
  { kind := s.kind, value := s.value, payload := .ofSheet s.kind s.payload?, source := s.source
    sourceStat := s.sourceStat, target? := s.target?, condition? := s.condition? }

open Checked in
def ofFields (fields : Entries String Document) : Checked SubEffectSheet :=
  (optional fields "effect_type" .statBonus word).map SubEffectSheet.mk
    |>.and (optional fields "effect_value" 0 float)
    |>.and (optional fields "effect_data" none (orNull PayloadSheet.ofDocument))
    |>.and (optional fields "value_source" .static word)
    |>.and (optional fields "source_stat" "" text)
    |>.and (optional fields "override_target" none (orNull word))
    |>.and (optional fields "override_condition" none (orNull Condition.ofDocument))

def ofDocument : Document → Checked SubEffectSheet := Checked.model ofFields

end SubEffectSheet

structure AffixSheet where
  id : String
  name : String
  description : String := ""
  trigger : Trigger := .passive
  category : Category := .misc
  kind : EffectKind := .statBonus
  source : ValueSource := .static
  selector : TargetSelector := .self
  value : Float := 0
  payload? : Option PayloadSheet := none
  condition? : Option Condition := none
  subEffects : List SubEffectSheet := []
  tags : List String := []
  statName : String := ""
  sourceStat : String := ""
  range? : Option (Float × Float) := none
  deriving DecidableEq, Inhabited

namespace AffixSheet

def toAffix (s : AffixSheet) : Affix :=
  { name := s.name, trigger := s.trigger, category := s.category
    effect :=
      { kind := s.kind, value := s.value, payload := .ofSheet s.kind s.payload?
        source := s.source, sourceStat := s.sourceStat }
    selector := s.selector, condition? := s.condition?
    subEffects := s.subEffects.map SubEffectSheet.toSubEffect
    tags := s.tags.map .text, statName := s.statName, range? := s.range?, id := s.id
    description := s.description }

open Checked in
def ofFields (fields : Entries String Document) : Checked AffixSheet :=
  (required fields "id" text).map AffixSheet.mk
    |>.and (required fields "name" text)
    |>.and (optional fields "description" "" text)
    |>.and (optional fields "trigger" .passive word)
    |>.and (optional fields "category" .misc word)
    |>.and (optional fields "effect_type" .statBonus word)
    |>.and (optional fields "value_source" .static word)
    |>.and (optional fields "target_selector" .self word)
    |>.and (optional fields "effect_value" 0 float)
    |>.and (optional fields "effect_data" none (orNull PayloadSheet.ofDocument))
    |>.and (optional fields "condition" none (orNull Condition.ofDocument))
    |>.and (optional fields "sub_effects" [] (list SubEffectSheet.ofDocument))
    |>.and (optional fields "tags" [] (list text))
    |>.and (optional fields "stat_name" "" text)
    |>.and (optional fields "source_stat" "" text)
    |>.and (optional fields "value_range" none (orNull pair))

def ofDocument : Document → Checked AffixSheet := Checked.model ofFields

end AffixSheet

namespace OfferEntry

open Checked in
def ofFields (fields : Entries String Document) : Checked OfferEntry :=
  (required fields "affix_id" text).map OfferEntry.mk
    |>.and (optional fields "name" "" text)
    |>.and (optional fields "description" "" text)
    |>.and (optional fields "rarity" .common word)
    |>.and (optional fields "tags" [] (list text))
    |>.and (optional fields "mutually_exclusive_tags" [] (list text))
    |>.and (optional fields "max_stacks" 1 int)
    |>.and (optional fields "offer_weight" 1 float)

def ofDocument : Document → Checked OfferEntry := Checked.model ofFields

end OfferEntry

namespace RunState

open Checked in
def ofFields (fields : Entries String Document) : Checked RunState :=
  (optional fields "chosen" [] (dict int)).map RunState.mk
    |>.and (optional fields "chosen_order" [] (list text))
    |>.and (optional fields "skipped_offers" 0 int)

def ofDocument : Document → Checked RunState := Checked.model ofFields

end RunState

end AffixRules
