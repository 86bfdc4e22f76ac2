import AffixRules.Affix.Basic
import AffixRules.Draw

/-! Dice: a rolled face, and a working value that affixes adjust. -/
namespace AffixRules

inductive DieType where
  | d4 | d6 | d8 | d10 | d12 | d20
  deriving DecidableEq, Repr, Inhabited

namespace DieType

def sides : DieType → Nat
  | d4 => 4
  | d6 => 6
  | d8 => 8
  | d10 => 10
  | d12 => 12
  | d20 => 20

def all : List DieType := [d4, d6, d8, d10, d12, d20]

def label (t : DieType) : String := "D" ++ toString t.sides

def title : String := "DieType"

/-- The type with a number of sides. -/
def ofDocument? (d : Document) : Option DieType :=
  all.find? fun t => d.whole? = some (t.sides : Int)

def read (d : Document) : Except Failure DieType :=
  match ofDocument? d with
  | some t => .ok t
  | none => .error (.unknownWord title d)

end DieType

structure Die where
  type : DieType := .d6
  /-- The place in a hand; -1 for a die that has none. -/
  slot : Int := -1
  face : Int := 0
  /-- The face after affixes. -/
  value : Int := 0
  consumed : Bool := false
  /-- Each tag once. -/
  tags : List Label := []
  element : Element := .none
  /-- The affixes that come with the die. -/
  inherent : List Affix := []
  /-- The affixes granted on top. -/
  granted : List Affix := []
  /-- One of its affixes could not be found. -/
  incomplete : Bool := false
  name : Label := ""
  deriving DecidableEq, Inhabited

namespace Die

/-- The lowest face of every die. -/
def lowestFace : Int := 1

variable {σ : Type} [Generator σ]

def sides (d : Die) : Nat := d.type.sides

/-- The affixes of the die, inherent ones first. -/
def affixes (d : Die) : Except Failure (List Affix) :=
  if d.incomplete then .error .unknownAffix else .ok (d.inherent ++ d.granted)

def affixesOn (d : Die) (trigger : Trigger) : Except Failure (List Affix) :=
  d.affixes.map fun as => as.filter fun a => a.trigger = trigger

def withFace (d : Die) (n : Int) : Die := { d with face := n, value := n }

def withValue (d : Die) (n : Int) : Die := { d with value := n }

/-- Sets the face and the working value, truncated. -/
def setFace (d : Die) (x : Float) : Except Failure Die := (truncate x).map d.withFace

/-- Sets the working value, truncated. -/
def setValue (d : Die) (x : Float) : Except Failure Die := (truncate x).map d.withValue

/-- Adds to the working value as a double and truncates the sum. -/
def add (d : Die) (delta : Float) : Except Failure Die := do
  let before ← toDouble d.value
  d.setValue (before + delta)

/-- Grants an affix on top; where none could be found the die is incomplete. -/
def grant (d : Die) (a? : Option Affix) : Die :=
  { d with granted := d.granted ++ a?.toList, incomplete := d.incomplete || a?.isNone }

/-- A new face between one and the number of sides. -/
def roll (d : Die) (g : σ) : Outcome σ Die :=
  (Generator.between lowestFace d.sides g).andThen fun n h => .done (d.withFace n) h

def addTag (d : Die) (tag : Label) : Die :=
  if d.tags.contains tag then d else { d with tags := d.tags ++ [tag] }

def removeTag (d : Die) (tag : Label) : Die := { d with tags := d.tags.filter (· ≠ tag) }

def shown (d : Die) : String :=
  "Die(#" ++ toString d.slot ++ " " ++ d.type.label ++ "=" ++ toString d.value ++ " " ++
    (if d.consumed then "used" else "ready") ++ ")"

/-- The number of dice in a new loadout unless told otherwise. -/
def startingCount : Int := 5

/-- Plain dice of one type. -/
def starting (type : DieType) (count : Int) : Except Failure (List Die) :=
  if count < 0 then .error .negativeCount else .ok (List.replicate count.toNat { type })

end Die

end AffixRules
