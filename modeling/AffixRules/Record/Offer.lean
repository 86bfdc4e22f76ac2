import AffixRules.Pool.Compound
import AffixRules.Record.Affix

/-! The record form of offers, runs and expanded affixes. -/
namespace AffixRules

open Document

def OfferEntry.toRecord (e : OfferEntry) : Record :=
  [("affix_id", .text e.affixId), ("name", .text e.name), ("description", .text e.description),
   ("rarity", ofWord e.rarity), ("tags", texts e.tags),
   ("mutually_exclusive_tags", texts e.excludes), ("max_stacks", .int e.maxStacks),
   ("offer_weight", .float e.weight)]

def RunState.toRecord (s : RunState) : Record :=
  [("chosen", .object (s.chosen.map fun (id, n) => (id, .int n))),
   ("chosen_order", texts s.order), ("skipped_offers", .int s.skipped)]

def FiredPart.toRecord (p : FiredPart) : Document :=
  .object [("effect_type", ofWord p.kind), ("value", .float p.value),
    ("effect_data", p.payload.toRecord), ("target", ofWord p.target),
    ("sub_effect_index", ofOption (fun (i : Nat) => .int i) p.index?),
    ("is_parent", .bool p.isPrimary)]

end AffixRules
