import AffixRules.Die
import AffixRules.Store

/-! The dice that an effect reaches. Dice are told apart by number in a tray. -/
namespace AffixRules

abbrev DieId := Nat

/-- The dice of a game by number. -/
abbrev Tray := Store Die

namespace Tray

def dice (t : Tray) (hand : List DieId) : List Die := hand.map t.get

def ready (t : Tray) (i : DieId) : Bool := !(t.get i).consumed

/-- The last die of a slot. -/
def lastAt? (t : Tray) (hand : List DieId) (slot : Int) : Option DieId :=
  (hand.filter fun i => (t.get i).slot = slot).getLast?

/-- The unconsumed die next to the source, if there is one. -/
def beside (t : Tray) (hand : List DieId) (source : DieId) (offset : Int) : List DieId :=
  ((t.lastAt? hand ((t.get source).slot + offset)).filter t.ready).toList

/-- A selector's dice; all but the source itself are unconsumed. -/
def targets (t : Tray) (hand : List DieId) (source : DieId) : TargetSelector → List DieId
  | .self => [source]
  | .left => t.beside hand source (-1)
  | .right => t.beside hand source 1
  | .neighbors => t.beside hand source (-1) ++ t.beside hand source 1
  | .all => hand.filter t.ready
  | .allExceptSource => hand.filter fun i => t.ready i && i ≠ source

end Tray

end AffixRules
