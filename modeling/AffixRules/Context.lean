import AffixRules.Scene
import AffixRules.Die

/-! What an evaluation looks at: the scene, the dice in hand, and the entity that owns the affix. -/
namespace AffixRules

/-- A scene with the current dice hand, consumed dice included. -/
structure Context extends Scene where
  hand : List Die := []
  deriving DecidableEq, Inhabited

/-- The entity that a condition or a value source calls its own. -/
inductive Subject where
  | none
  | die (d : Die)
  | item (i : Item)
  | number (x : Float)
  | whole (n : Int)
  | stat (name : String)
  /-- An entity without a value, tags and a slot. -/
  | inert
  deriving DecidableEq, Inhabited

namespace Subject

/-- Numbers stand for themselves, texts for the stat of that name. -/
def ofLabel : Label → Subject
  | .null => none
  | .int n => whole n
  | .float x => number x
  | .text name => stat name
  | .bool _ | .list _ | .object _ => inert

/-- Dice have their working value, numbers themselves, stat names the stat of the player, if one is
known. -/
def value (player? : Option Player) : Subject → Except Failure (Option Float)
  | die d => (toDouble d.value).map some
  | number x => .ok (some x)
  | whole n => (toDouble n).map some
  | stat name => .ok (player?.bind fun p => p.stat? name)
  | none | item _ | inert => .ok Option.none

/-- The highest value; only dice have one. -/
def maximum? : Subject → Option Nat
  | die d => some d.sides
  | _ => Option.none

def slot : Subject → Int
  | die d => d.slot
  | _ => -1

def tags : Subject → Option (List Label)
  | die d => some d.tags
  | item i => some i.tags
  | _ => Option.none

end Subject

/-- The first die of a slot. -/
def dieAt? (dice : List Die) (slot : Int) : Option Die := dice.find? fun d => d.slot = slot

/-- What a condition is evaluated on: neighbors are looked up around `index` among `related`. -/
structure View where
  scene : Scene
  subject : Subject
  related : List Die
  index : Int

namespace View

/-- By default the dice in hand are related, and the index is the slot of the subject. -/
def ofContext (c : Context) (subject : Subject) (related? : Option (List Die))
    (index? : Option Int) : View :=
  ⟨c.toScene, subject, related?.getD c.hand, index?.getD subject.slot⟩

def selfValue (v : View) : Except Failure (Option Float) := v.subject.value (some v.scene.player)

def neighbor? (v : View) (offset : Int) : Option Die := dieAt? v.related (v.index + offset)

end View

end AffixRules
