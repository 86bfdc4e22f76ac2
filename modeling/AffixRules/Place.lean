import AffixRules.Failure

/-! Places in a list. -/
namespace AffixRules

/-- The item at a place; negative places count from the end. -/
def placeIn {α : Type} (as : List α) (place : Int) : Except Failure α :=
  let k := if place < 0 then place + as.length else place
  match if k < 0 then none else as[k.toNat]? with
  | some a => .ok a
  | none => .error (.noSuchPlace place)

end AffixRules
