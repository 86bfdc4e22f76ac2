import AffixRules.Affix.Basic

/-! Combat modifiers: adjustments to die values that last for a combat or a number of turns. -/
namespace AffixRules

structure Modifier where
  modType : ModifierType := .flat
  value : Float := 0
  duration : ModifierDuration := .combat
  turnsLeft : Int := 0
  filter : TargetFilter := .all
  sourceSlot : Int := -1
  sourceName : Label := ""
  /-- The slot of a single target; null stands for the source's. -/
  target : Label := .null
  deriving DecidableEq, Inhabited

namespace Modifier

/-- The stat under which modifiers act on a die. -/
def dieValueStat : String := "die_value"

def defaultName : String := "combat_modifier"

def isExpired (m : Modifier) : Bool := m.duration = .turns ∧ m.turnsLeft ≤ 0

/-- A target that is no whole number is no slot. -/
def appliesTo (m : Modifier) (slot : Int) : Bool :=
  match m.filter with
  | .all => true
  | .allExceptSource => slot ≠ m.sourceSlot
  | .single => if m.target = .null then slot = m.sourceSlot else m.target.whole? = some slot

/-- One turn later. -/
def ticked (m : Modifier) : Modifier :=
  if m.duration = .turns ∧ 0 < m.turnsLeft then { m with turnsLeft := m.turnsLeft - 1 } else m

/-- The modifier as a member of a pool: a flat term, or a factor of one plus the value. -/
def toAffix (m : Modifier) : Affix :=
  let (category, value) : Category × Float := match m.modType with
    | .percent => (.statMultiplier, 1 + m.value)
    | .flat => (.statFlat, m.value)
  { name := if m.sourceName.isAbsent then defaultName else m.sourceName
    category, statName := dieValueStat, effect := { value } }

end Modifier

end AffixRules
