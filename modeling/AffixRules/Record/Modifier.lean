import AffixRules.Modifier.Basic
import AffixRules.Record.Field

/-! The record form of modifiers. -/
namespace AffixRules.Modifier

open Document

def toRecord (m : Modifier) : Record :=
  [("mod_type", ofWord m.modType), ("value", .float m.value), ("duration", ofWord m.duration),
   ("turns_remaining", .int m.turnsLeft), ("target_filter", ofWord m.filter),
   ("source_slot_index", .int m.sourceSlot), ("source_name", m.sourceName),
   ("target_slot_index", m.target)]

/-- Fields are read in order; the first that cannot be read is the failure. -/
def ofRecord (r : Record) : Except Failure Modifier := do
  let modType ← r.field "mod_type" .flat Reading.word
  let value ← r.field "value" 0 Reading.float
  let duration ← r.field "duration" .combat Reading.word
  let turnsLeft ← r.field "turns_remaining" 0 Reading.int
  let filter ← r.field "target_filter" .all Reading.word
  let sourceSlot ← r.field "source_slot_index" (-1) Reading.int
  let target ← r.field "target_slot_index" .null .ok
  pure { modType, value, duration, turnsLeft, filter, sourceSlot, target
         sourceName := r.label "source_name" }

def ofDocument : Reading Modifier := fun d => do ofRecord (← Reading.fields d)

end AffixRules.Modifier
