import AffixRules.Affix.Basic
import AffixRules.Draw
import AffixRules.Number.Rounding

/-! Rerolling the value of an affix within its authored range. -/
namespace AffixRules

variable {σ : Type} [Generator σ]

/-- Between whole bounds a whole number, else a point of the range rounded to two decimals. -/
def rollBetween (low high : Float) (g : σ) : Outcome σ Float :=
  if isWhole low && isWhole high then
    match truncate low, truncate high with
    | .ok a, .ok b => (Generator.between a b g).andThen fun n h => .ofExcept (toDouble n) h
    | .error e, _ => .failed e g
    | _, .error e => .failed e g
  else
    let (d, h) := Generator.fraction g
    .done (toHundredths (low + (high - low) * d)) h

/-- A new value; without a range the value stays and nothing is drawn. -/
def Affix.rollValue (a : Affix) (g : σ) : Outcome σ Float :=
  match a.range? with
  | some (low, high) => rollBetween low high g
  | none => .done a.effect.value g

/-- The affix with a new value. -/
def Affix.rerolled (a : Affix) (g : σ) : Outcome σ Affix :=
  (a.rollValue g).andThen fun value h => .done (a.withValue value) h

end AffixRules
