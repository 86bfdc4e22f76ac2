import AffixRules.Modifier.Basic

/-! What a dispatch reports: the special effects left to the caller, the names of the affixes that
fired, and the net change of each slot's value. -/
namespace AffixRules

/-- What a special effect carries. -/
inductive SpecialData where
  | nothing
  | percent (x : Float)
  | elements (es : List Element)
  | modifier (m : Modifier)
  deriving DecidableEq, Inhabited

structure SpecialEffect where
  kind : SpecialKind
  sourceSlot : Int := -1
  /-- The slot that the effect concerns, if it concerns one. -/
  targetSlot? : Option Int := none
  sourceName : Label := ""
  data : SpecialData := .nothing
  deriving DecidableEq, Inhabited

namespace SpecialEffect

/-- The modifier that a creating effect carries. -/
def modifier? (e : SpecialEffect) : Option Modifier :=
  match e.kind, e.data with
  | .createCombatModifier, .modifier m => some m
  | _, _ => none

/-- The modifiers that effects carry, in order. -/
def modifiers (es : List SpecialEffect) : List Modifier := es.filterMap modifier?

end SpecialEffect

structure Report where
  special : List SpecialEffect := []
  fired : List Label := []
  changes : Entries Int Int := []
  deriving DecidableEq, Inhabited

namespace Report

/-- The net change of a slot, zero when none was recorded. -/
def change (r : Report) (slot : Int) : Int := (r.changes.value? slot).getD 0

/-- A change of zero leaves no record. -/
def record (r : Report) (slot delta : Int) : Report :=
  if delta = 0 then r else { r with changes := r.changes.put slot (r.change slot + delta) }

def emit (r : Report) (e : SpecialEffect) : Report := { r with special := r.special ++ [e] }

def name (r : Report) (fired : Label) : Report := { r with fired := r.fired ++ [fired] }

/-- The second report after the first. -/
def extend (r s : Report) : Report :=
  s.changes.foldl (fun t (slot, delta) => t.record slot delta)
    { r with special := r.special ++ s.special, fired := r.fired ++ s.fired }

theorem change_record (r : Report) (slot delta other : Int) :
    (r.record slot delta).change other = r.change other + if slot = other then delta else 0 := by
  unfold record
  split
  next h => simp [h]
  next =>
    by_cases ho : slot = other
    · subst ho
      simp [change]
    · simp [change, ho]

end Report

end AffixRules
