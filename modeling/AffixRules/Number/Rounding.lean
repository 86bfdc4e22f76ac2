import AffixRules.Number.Parts

/-! Rounding to the nearest, halves to the even neighbour. -/
namespace AffixRules

/-- The integer nearest to `num / den`; a half goes to the even neighbour. -/
def nearestEven (num den : Nat) : Nat :=
  let q := num / den
  let twice := 2 * (num % den)
  if twice < den then q
  else if den < twice then q + 1
  else q + q % 2

/-- The double nearest to `n / 10 ^ places`. -/
def ofDecimal (negative : Bool) (n places : Nat) : Float :=
  let x := Float.ofScientific n true places
  if negative then -x else x

/-- The exact value rounded to two decimals and read back; what is not finite stays. -/
def toHundredths (x : Float) : Float :=
  match Parts.ofFloat x with
  | .finite negative m e =>
    if 0 ≤ e then x else ofDecimal negative (nearestEven (m * 100) (twoTo (-e).toNat)) 2
  | _ => x

end AffixRules
