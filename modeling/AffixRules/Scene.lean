import AffixRules.Equipment
import AffixRules.Failure

/-! The scene of an evaluation: the player, the equipment, the dice used in the current action. -/
namespace AffixRules

structure Player where
  className : Label := ""
  /-- A stat recorded without a value counts as unknown. -/
  stats : Entries String (Option Float) := []
  health : Float := 0
  maxHealth : Float := 0
  deriving DecidableEq, Inhabited

namespace Player

def stat? (p : Player) (name : String) : Option Float := (p.stats.value? name).join

/-- The stat of a name, if the player has it; the names of stats are texts. -/
def statNamed (p : Player) (name : Label) : Except Failure (Option Float) :=
  match name with
  | .text s => .ok (p.stat? s)
  | _ => if name.isName then .ok none else .error .notAName

/-- The share of the health that is left; none when the maximum is not positive. -/
def healthShare (p : Player) : Float := if p.maxHealth ≤ 0 then 0 else p.health / p.maxHealth

end Player

structure Scene where
  player : Player := {}
  equipment : Equipment := []
  usedCount : Int := 0
  /-- The slots used in the current action, each once. -/
  used : List Int := []
  inCombat : Bool := false
  turn : Int := 0
  deriving DecidableEq, Inhabited

namespace Scene

def isUsed (s : Scene) (slot : Int) : Bool := s.used.contains slot

/-- A slot counts once an action. -/
def markUsed (s : Scene) (slot : Int) : Scene :=
  if s.isUsed slot then s else { s with used := s.used ++ [slot], usedCount := s.usedCount + 1 }

/-- Takes back a mark; the count does not fall below zero. -/
def unmarkUsed (s : Scene) (slot : Int) : Scene :=
  if s.isUsed slot then
    { s with used := s.used.filter (· ≠ slot), usedCount := max 0 (s.usedCount - 1) }
  else s

def resetAction (s : Scene) : Scene := { s with used := [], usedCount := 0 }

def equip (s : Scene) (item : Item) (slot? : Option EquipmentSlot) : Scene :=
  { s with equipment := s.equipment.equip item slot? }

end Scene

end AffixRules
