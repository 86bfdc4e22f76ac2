import AffixRules.Context
import AffixRules.Text.Lowercase

/-! Evaluating conditions. A quantity that cannot be resolved passes its gate; scaling kinds never
block, and what they cannot resolve counts as zero. -/
namespace AffixRules

namespace Condition

/-- The stat that the parameter names, if the player has it. -/
def statValue (c : Condition) (player : Player) : Except Failure (Option Float) :=
  match c.parameter? "stat" with
  | some name => player.statNamed name
  | none => .ok none

def gateOn (quantity : Except Failure (Option Float)) (pass : Float → Bool) :
    Except Failure Verdict :=
  quantity.map fun
    | some x => .gate (pass x)
    | none => .passed

def selfVerdict (v : View) (pass : Float → Bool) : Except Failure Verdict :=
  gateOn v.selfValue pass

/-- A gate on the subject's value and its maximum; without either it passes. -/
def maximumVerdict (v : View) (pass : Float → Float → Bool) : Except Failure Verdict :=
  gateOn v.selfValue fun x =>
    match v.subject.maximum? with
    | some top => pass x (Float.ofNat top)
    | none => true

def healthVerdict (player : Player) (pass : Float → Bool) : Verdict :=
  if player.maxHealth ≤ 0 then .passed else .gate (pass player.healthShare)

/-- Classes are compared in lower case; the player's is a text. -/
def classVerdict (c : Condition) (player : Player) : Except Failure Verdict :=
  match c.parameter? "class_name", player.className with
  | none, _ => .ok .passed
  | some d, .text name => .ok (.gate (lowercase name = lowercase d.asText))
  | some _, _ => .error .notAnObject

/-- Whether the tag is among those of the subject; looking a list or an object up fails. -/
def tagVerdict (c : Condition) (subject : Subject) : Except Failure Verdict :=
  match c.parameter? "tag", subject.tags with
  | none, _ => .ok .passed
  | some tag, some tags => if tag.isName then .ok (.gate (tags.contains tag)) else .error .notAName
  | some _, none => .ok (.gate false)

/-- A die counts as used when it is consumed or its slot is marked. -/
def countsAsUsed (scene : Scene) (d : Die) : Bool := d.consumed || scene.isUsed d.slot

def neighborsVerdict (v : View) : Verdict :=
  match v.neighbor? (-1), v.neighbor? 1 with
  | some left, some right => .gate (countsAsUsed v.scene left && countsAsUsed v.scene right)
  | _, _ => .gate false

def dualWield (e : Equipment) : Bool :=
  match e.at? .mainHand, e.at? .offHand with
  | some main, some off => main.serial ≠ off.serial
  | _, _ => false

def qualifies (c : Condition) : Option Die → Except Failure Bool
  | some d => (toDouble d.value).map fun x => decide (c.threshold ≤ x)
  | none => .ok false

/-- How many of the two neighbors reach the threshold. -/
def qualifyingNeighbors (c : Condition) (v : View) : Except Failure Nat := do
  let left ← c.qualifies (v.neighbor? (-1))
  let right ← c.qualifies (v.neighbor? 1)
  pure (left.toNat + right.toNat)

/-- The verdict before inversion. -/
def verdict (c : Condition) (v : View) : Except Failure Verdict :=
  let scene := v.scene
  match c.kind with
  | .none => .ok .passed
  | .selfValueAbove => selfVerdict v fun x => c.threshold ≤ x
  | .selfValueBelow => selfVerdict v fun x => x ≤ c.threshold
  | .selfValueIsMin => selfVerdict v fun x => x ≤ Float.ofInt Die.lowestFace
  | .selfValueIsMax => maximumVerdict v fun x top => top ≤ x
  | .selfValueBelowHalfMax => maximumVerdict v fun x top => x < top / 2
  | .healthAbovePercent => .ok (healthVerdict scene.player fun share => c.threshold ≤ share)
  | .healthBelowPercent => .ok (healthVerdict scene.player fun share => share ≤ c.threshold)
  | .statAbove => gateOn (c.statValue scene.player) fun x => c.threshold ≤ x
  | .minDiceUsed => .ok (.gate (atLeast scene.usedCount c.threshold))
  | .minEquipmentSlotsFilled => .ok (.gate (atLeast scene.equipment.filledCount c.threshold))
  | .hasHeavyWeapon => .ok (.gate ((scene.equipment.at? .mainHand).any Item.isHeavy))
  | .hasDualWield => .ok (.gate (dualWield scene.equipment))
  | .allSlotsFilled => .ok (.gate scene.equipment.allFilled)
  | .classIs => c.classVerdict scene.player
  | .neighborsUsed => .ok (neighborsVerdict v)
  | .hasTag => c.tagVerdict v.subject
  | .inCombat => .ok (.gate scene.inCombat)
  | .perUsedDie => (toDouble scene.usedCount).map .scaled
  | .perQualifyingNeighbor => (c.qualifyingNeighbors v).map fun n => .scaled (Float.ofNat n)
  | .perEquippedItem => .ok (.scaled (Float.ofNat scene.equipment.filledCount))
  | .perStatPoint => (c.statValue scene.player).map fun x => .scaled (x.getD 0)
  | .perEquipmentRarity => .ok (.scaled (Float.ofNat scene.equipment.raritySum))

def evaluate (c : Condition) (v : View) : Except Failure Verdict :=
  (c.verdict v).map fun r => if c.invert then r.flipped else r

/-- A missing condition passes. -/
def evaluate? (c? : Option Condition) (v : View) : Except Failure Verdict :=
  match c? with
  | some c => c.evaluate v
  | none => .ok .passed

/-- In a context, with the dice in hand as neighbors. -/
def evaluateIn (c? : Option Condition) (context : Context) (subject : Subject) :
    Except Failure Verdict :=
  evaluate? c? (.ofContext context subject none none)

end Condition

end AffixRules
