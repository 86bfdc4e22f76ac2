import AffixRules.Content.Library
import AffixRules.Record.Field

/-! The record form of affixes. A record is taken as it is: payloads need not fit their effects. -/
namespace AffixRules

open Document

namespace Condition

def toRecord (c : Condition) : Document :=
  .object [("kind", ofWord c.kind), ("threshold", .float c.threshold), ("invert", .bool c.invert),
    ("data", .object c.parameters)]

def ofRecord : Reading Condition := fun d => do
  let r ← Reading.fields d
  let kind ← r.field "kind" .none Reading.word
  let threshold ← r.field "threshold" 0 Reading.float
  let invert ← r.field "invert" false Reading.truth
  let parameters ← r.given "data" [] Reading.fields
  pure { kind, threshold, invert, parameters }

end Condition

namespace Payload

def toRecord : Payload → Document
  | nothing => .object [("kind", .text "none")]
  | tag t => .object [("kind", .text "tag"), ("tag", t)]
  | element e => .object [("kind", .text "element"), ("element", ofWord e)]
  | randomize pool =>
    .object [("kind", .text "randomize"), ("pool", ofWords pool),
      ("elements", ofWords (elements pool))]
  | leech x => .object [("kind", .text "leech"), ("percent", .float x)]
  | modifier t =>
    .object [("kind", .text "modifier"), ("mod_type", ofWord t.modType),
      ("duration", ofWord t.duration), ("turns", .int t.turns), ("target_filter", ofWord t.filter)]
  | action id => .object [("kind", .text "action"), ("action_id", id)]

def templateOf (r : Record) : Except Failure ModifierTemplate := do
  let modType ← r.field "mod_type" .flat Reading.word
  let duration ← r.field "duration" .combat Reading.word
  let turns ← r.field "turns" 0 Reading.int
  let filter ← r.field "target_filter" .all Reading.word
  pure { modType, duration, turns, filter }

def ofRecord : Reading Payload := fun d => do
  let r ← Reading.fields d
  match ← r.given "kind" "none" Reading.text with
  | "tag" => (r.need "tag" .ok).map tag
  | "element" => (r.need "element" Reading.word).map element
  | "randomize" => (r.field "pool" [] (Reading.list Reading.word)).map randomize
  | "leech" => (r.need "percent" Reading.float).map leech
  | "modifier" => (templateOf r).map modifier
  | "action" => (r.need "action_id" .ok).map action
  | _ => pure nothing

end Payload

/-- The fields of an effect. -/
def Effect.toRecord (e : Effect) : Record :=
  [("effect_type", ofWord e.kind), ("effect_value", .float e.value),
   ("effect_data", e.payload.toRecord), ("value_source", ofWord e.source),
   ("source_stat", e.sourceStat)]

namespace SubEffect

def toRecord (s : SubEffect) : Document :=
  .object (s.toEffect.toRecord ++
    [("override_target", ofOption ofWord s.target?),
     ("override_condition", ofOption Condition.toRecord s.condition?)])

def ofRecord : Reading SubEffect := fun d => do
  let r ← Reading.fields d
  let kind ← r.field "effect_type" .statBonus Reading.word
  let value ← r.field "effect_value" 0 Reading.float
  let payload ← r.given "effect_data" .nothing Payload.ofRecord
  let source ← r.field "value_source" .static Reading.word
  let target? ← r.optional "override_target" Reading.word
  let condition? ← r.optional "override_condition" Condition.ofRecord
  pure { kind, value, payload, source, sourceStat := r.label "source_stat", target?, condition? }

end SubEffect

namespace Affix

def toRecord (a : Affix) : Record :=
  a.effect.toRecord ++
    [("name", a.name), ("trigger", ofWord a.trigger), ("category", ofWord a.category),
     ("target_selector", ofWord a.selector),
     ("condition", ofOption Condition.toRecord a.condition?),
     ("sub_effects", .list (a.subEffects.map SubEffect.toRecord)), ("tags", .list a.tags),
     ("stat_name", a.statName),
     ("value_range", ofOption (fun (x, y) => .list [.float x, .float y]) a.range?),
     ("id", a.id), ("description", a.description)]

/-- Two bounds. -/
def rangeOf : Reading (Float × Float)
  | .list [low, high] => do pure (← Reading.float low, ← Reading.float high)
  | _ => .error .notIterable

def ofRecord (r : Record) : Except Failure Affix := do
  let trigger ← r.field "trigger" .passive Reading.word
  let category ← r.field "category" .misc Reading.word
  let kind ← r.field "effect_type" .statBonus Reading.word
  let source ← r.field "value_source" .static Reading.word
  let selector ← r.field "target_selector" .self Reading.word
  let value ← r.field "effect_value" 0 Reading.float
  let payload ← r.given "effect_data" .nothing Payload.ofRecord
  let condition? ← r.optional "condition" Condition.ofRecord
  let subEffects ← r.field "sub_effects" [] (Reading.list SubEffect.ofRecord)
  let tags ← r.field "tags" [] parts
  let range? ← r.optional "value_range" rangeOf
  match r.value? "name" with
  | none => .error .unnamed
  | some name =>
    let effect := { kind, value, payload, source, sourceStat := r.label "source_stat" }
    pure { name, trigger, category, effect, selector, condition?, subEffects, tags, range?
           statName := r.label "stat_name", id := r.label "id"
           description := r.label "description" }

end Affix

namespace Library

variable (l : Library)

/-- An affix by the id of a template, as authored content, or field by field; none for an unknown
template. -/
def affix? : Reading (Option Affix) := fun d => do
  let r ← Reading.fields d
  match r.value? "template", r.value? "content" with
  | some id, _ => .ok (l.template? id)
  | none, some content => (Affix.ofDocument content).map some
  | none, none => (Affix.ofRecord r).map some

/-- As above, where an affix is needed. -/
def affix : Reading Affix := fun d => do
  match ← l.affix? d with
  | some a => pure a
  | none => .error .unknownAffix

/-- Affixes, with none in the place of an unknown template. -/
def affixList : Reading (List (Option Affix)) := Reading.list l.affix?

end Library

end AffixRules
