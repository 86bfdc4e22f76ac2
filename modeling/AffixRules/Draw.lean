import AffixRules.Outcome
import AffixRules.Number.Conversion

/-! Sources of chance. All randomness of the library comes through a generator. -/
namespace AffixRules

/-- A state from which fractions and whole numbers between two bounds are drawn. -/
class Generator (σ : Type) where
  fraction : σ → Float × σ
  between : Int → Int → σ → Outcome σ Int

/-- Draws that repeat from the start when they are used up. -/
structure Script where
  draws : List Float
  used : Nat := 0
  deriving DecidableEq, Inhabited

namespace Script

/-- No draws stand for one of a half. -/
def current (s : Script) : Float :=
  if s.draws.isEmpty then 0.5 else s.draws.getD (s.used % s.draws.length) 0.5

def fraction (s : Script) : Float × Script := (s.current, { s with used := s.used + 1 })

/-- A draw picks one of the integers from `low` to `high`; draws of one or more pick the last. -/
def between (low high : Int) (s : Script) : Outcome Script Int :=
  let n := high - low + 1
  if n ≤ 0 then .failed (.emptyRange low high) s
  else
    let (d, t) := s.fraction
    .ofExcept (do
      let width ← toDouble n
      let offset ← truncate (d * width)
      pure (low + min (n - 1) offset)) t

instance : Generator Script where
  fraction := fraction
  between := between

end Script

end AffixRules
