import AffixRules.Die
import AffixRules.Dispatch.Report
import AffixRules.Record.Affix
import AffixRules.Record.Modifier

/-! The record form of dice and of what a dispatch reports. -/
namespace AffixRules

open Document

/-- Labels that are told apart by look-up, each once. -/
def labelSet : Reading (List Label) := fun d => do
  let labels ← Reading.items Reading.name (← d.parts)
  pure labels.eraseDups

/-- The affixes before the first that could not be found. -/
def found (affixes : List (Option Affix)) : List Affix :=
  (affixes.takeWhile Option.isSome).filterMap id

namespace Die

def toRecord (d : Die) : Document :=
  .object [("slot", .int d.slot), ("sides", .int d.sides), ("current", .int d.face),
    ("modified", .int d.value), ("consumed", .bool d.consumed),
    ("tags", .list (sortedLabels d.tags)), ("element", ofWord d.element)]

/-- Without a face of its own, and a working value of its own, a die shows the given value. -/
def ofRecord (l : Library) : Reading Die := fun d => do
  let r ← Reading.fields d
  let type ← r.field "sides" .d6 DieType.read
  let inherent ← r.field "inherent" [] l.affixList
  let granted ← r.field "rolled" [] l.affixList
  let shown ← r.given "value" 0 Reading.int
  let slot ← r.field "slot" (-1) Reading.int
  let face ← r.field "current" shown Reading.int
  let value ← r.field "modified" shown Reading.int
  let consumed ← r.field "consumed" false Reading.truth
  let tags ← r.field "tags" [] labelSet
  let element ← r.field "element" .none Reading.word
  pure { type, slot, face, value, consumed, tags, element, inherent := found inherent
         granted := found granted, incomplete := (inherent ++ granted).any Option.isNone
         name := r.label "name" }

/-- Writes the fields that a record gives, one after the other. -/
def write (l : Library) (r : Record) (d : Die) : Outcome Die Unit :=
  Outcome.forEach Outcome.change
    [fun d => r.field "modified" d fun x => do d.setValue (← Reading.float x),
     fun d => do pure { d with consumed := ← r.field "consumed" d.consumed Reading.truth },
     fun d => r.field "rolled" d fun x => do pure (d.grant (← l.affix? x))] d

end Die

/-- Pairs in the order of their keys. -/
def sortedPairs (es : Entries Int Int) : Document :=
  .list ((es.mergeSort fun a b => decide (a.1 ≤ b.1)).map fun (k, v) => .list [.int k, .int v])

namespace SpecialData

def toRecord : SpecialData → Document
  | nothing => .object []
  | percent x => .object [("percent", .float x)]
  | elements es => .object [("elements", ofWords es)]
  | modifier m => .object [("modifier", .object m.toRecord)]

end SpecialData

namespace SpecialEffect

def toRecord (e : SpecialEffect) : Document :=
  .object [("type", ofWord e.kind), ("source_slot", .int e.sourceSlot),
    ("target_slot", ofOption .int e.targetSlot?), ("source_name", e.sourceName),
    ("data", e.data.toRecord)]

/-- A kind with a modifier, if it has one. -/
def ofRecord : Reading SpecialEffect := fun d => do
  let r ← Reading.fields d
  let kind ← r.need "type" Reading.word
  let data ← r.given "modifier" .nothing fun m => (Modifier.ofDocument m).map .modifier
  pure { kind, data }

end SpecialEffect

namespace Report

def toRecord (r : Report) : Document :=
  .object [("special", .list (r.special.map SpecialEffect.toRecord)), ("fired", .list r.fired),
    ("changes", sortedPairs r.changes)]

end Report

end AffixRules
