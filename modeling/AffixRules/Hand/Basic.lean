import AffixRules.Dispatch.Fire
import AffixRules.Place

/-! The hand of a turn. Using a die marks it consumed in its place, so slots never shift. -/
namespace AffixRules

/-- The dice of a hand in slot order. -/
structure Hand where
  maxSize : Int := 12
  dice : List DieId := []
  /-- The slots whose use has already been dispatched. -/
  fired : List Int := []
  deriving DecidableEq, Inhabited

/-- A die by its slot or by itself. -/
inductive DieRef where
  | slot (k : Int)
  | die (i : DieId)
  deriving DecidableEq, Repr

/-- A hand being played: all dice of the game, the hand, the scene with the dice that it shows, and
the source of chance. -/
structure Play (σ : Type) where
  tray : Tray
  hand : Hand
  scene : Scene
  shownHand : List DieId := []
  chance : σ

/-- A step of play. -/
abbrev Play.Step (σ α : Type) := Play σ → Outcome (Play σ) α

namespace Play

variable {σ : Type}

def dieOf (p : Play σ) (i : DieId) : Die := p.tray.get i

/-- The dice of the hand in slot order. -/
def dice (p : Play σ) : List Die := p.tray.dice p.hand.dice

def modifyDie (p : Play σ) (i : DieId) (f : Die → Die) : Play σ :=
  { p with tray := p.tray.modify i f }

/-- The number of a die of the hand. -/
def locate (p : Play σ) : DieRef → Except Failure DieId
  | .die i => if i ∈ p.hand.dice then .ok i else .error (.foreignDie (p.dieOf i).shown)
  | .slot k =>
    match if k < 0 then none else p.hand.dice[k.toNat]? with
    | some i => .ok i
    | none => .error (.slotOutOfRange k p.hand.dice.length)

/-- The dice at the places before and after a die's slot, where the hand has such places. A slot
that is not one of the hand's may have none to look at. -/
def neighbors (p : Play σ) (ref : DieRef) : Except Failure (Option Die × Option Die) := do
  let k := (p.dieOf (← p.locate ref)).slot
  let left ← if 0 < k then (placeIn p.dice (k - 1)).map some else pure none
  let right ← if k + 1 < p.dice.length then (placeIn p.dice (k + 1)).map some else pure none
  pure (left, right)

def readyDice (p : Play σ) : List Die := p.dice.filter fun d => !d.consumed

def consumedDice (p : Play σ) : List Die := p.dice.filter fun d => d.consumed

/-- The sum of the unconsumed values. -/
def readyTotal (p : Play σ) : Int := p.readyDice.foldr (fun d n => d.value + n) 0

/-- The scene with the hand's dice shown. -/
def reveal (p : Play σ) : Play σ := { p with shownHand := p.hand.dice }

/-- Fires a trigger over the hand, for one die or for all. -/
def fire (trigger : Trigger) (source? : Option DieId) (p : Play σ) : Outcome (Play σ) Report :=
  let q := p.reveal
  let o := (Stage.mk q.scene q.hand.dice).fire trigger source? q.tray
  ⟨o.answer, { q with tray := o.state }⟩

end Play

end AffixRules
