import AffixRules.Failure

/-! Passing between integers and doubles, with the failures of what has no counterpart. -/
namespace AffixRules

/-- Truncation toward zero. -/
def truncate (x : Float) : Except Failure Int :=
  match Parts.ofFloat x with
  | .notANumber => .error .notANumber
  | .infinite _ => .error .infinite
  | p => .ok (p.truncate?.getD 0)

/-- The double nearest to an integer. -/
def toDouble (n : Int) : Except Failure Float :=
  let x := Float.ofInt n
  if x.isInf then .error .tooLarge else .ok x

end AffixRules
