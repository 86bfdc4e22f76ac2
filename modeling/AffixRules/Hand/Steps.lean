import AffixRules.Hand.Basic

/-! The steps of play: rolling, using and restoring dice. -/
namespace AffixRules.Play

variable {σ : Type} [Generator σ]

/-- Places a die in a slot, unconsumed, and rolls it. -/
def rollInto (placed : DieId × Nat) (p : Play σ) : Outcome (Play σ) Unit :=
  let (i, k) := placed
  let q := p.modifyDie i fun d => { d with slot := k, consumed := false }
  let o := (q.dieOf i).roll q.chance
  match o.answer with
  | .ok d => .done () { q with tray := q.tray.set i d, chance := o.state }
  | .error e => .failed e { q with chance := o.state }

def checkSize (p : Play σ) (size : Nat) : Except Failure Unit :=
  if p.hand.maxSize < size then .error (.oversizedHand size p.hand.maxSize) else .ok ()

/-- Rolls copies of dice as the new hand and fires their roll affixes. -/
def rollHand (dice : List DieId) (p : Play σ) : Outcome (Play σ) Report :=
  if dice.isEmpty then .failed .emptyHand p
  else match p.checkSize dice.length with
    | .error e => .failed e p
    | .ok () =>
      let (copies, tray) := p.tray.allocAll (p.tray.dice dice)
      let q := { p with tray, hand := { p.hand with dice := copies } }
      (Outcome.forEach rollInto copies.zipIdx q).andThen fun _ r =>
        fire .onRoll none
          { r with hand := { r.hand with fired := [] }, scene := r.scene.resetAction }

/-- Rerolls an unconsumed die in place and fires its roll affixes; a consumed one stays. -/
def reroll (ref : DieRef) (p : Play σ) : Outcome (Play σ) Report :=
  match p.locate ref with
  | .error e => .failed e p
  | .ok i =>
    if (p.dieOf i).consumed then .done {} p
    else
      let o := (p.dieOf i).roll p.chance
      match o.answer with
      | .error e => .failed e { p with chance := o.state }
      | .ok d => fire .onRoll (some i) { p with tray := p.tray.set i d, chance := o.state }

omit [Generator σ]

/-- Puts each die into the slot of its place; of two places the later one counts. -/
def placeAll (tray : Tray) (dice : List DieId) : Tray :=
  dice.zipIdx.foldl (fun t (i, k) => t.modify i fun d => { d with slot := k }) tray

/-- The slots of consumed dice, each once. -/
def consumedSlots (dice : List Die) : List Int :=
  ((dice.filter fun d => d.consumed).map fun d => d.slot).eraseDups

/-- Takes dice as they are for the hand; nothing fires. -/
def setHand (dice : List DieId) (inScene : Bool) (p : Play σ) : Outcome (Play σ) Unit :=
  match p.checkSize dice.length with
  | .error e => .failed e p
  | .ok () =>
    let tray := placeAll p.tray dice
    let hand := { p.hand with dice, fired := consumedSlots (tray.dice dice) }
    let q := { p with tray, hand }
    .done () (if inScene then q.reveal else q)

def markFired (p : Play σ) (slot : Int) : Play σ :=
  if p.hand.fired.contains slot then p
  else { p with hand := { p.hand with fired := p.hand.fired ++ [slot] } }

def unmarkFired (p : Play σ) (slot : Int) : Play σ :=
  { p with hand := { p.hand with fired := p.hand.fired.filter (· ≠ slot) } }

/-- Uses a die: it is consumed in its place and its use affixes fire over the whole hand. A die that
is consumed already, or whose use was dispatched, does nothing. -/
def consume (ref : DieRef) (p : Play σ) : Outcome (Play σ) Report :=
  match p.locate ref with
  | .error e => .failed e p
  | .ok i =>
    let d := p.dieOf i
    if d.consumed || p.hand.fired.contains d.slot then .done {} p
    else
      let q := (p.modifyDie i fun d => { d with consumed := true }).markFired d.slot
      fire .onUse (some i) { q with scene := q.scene.markUsed d.slot }

/-- Makes a consumed die usable again and takes its mark off the scene; says whether it was
consumed. -/
def restore (ref : DieRef) (inScene : Bool) (p : Play σ) : Outcome (Play σ) Bool :=
  match p.locate ref with
  | .error e => .failed e p
  | .ok i =>
    let d := p.dieOf i
    if d.consumed then
      let q := (p.modifyDie i fun d => { d with consumed := false }).unmarkFired d.slot
      .done true (if inScene then { q with scene := q.scene.unmarkUsed d.slot } else q)
    else .done false p

/-- Restores every die. -/
def resetTurn (inScene : Bool) (p : Play σ) : Play σ :=
  let tray := p.hand.dice.foldl (fun t i => t.modify i fun d => { d with consumed := false }) p.tray
  let q := { p with tray, hand := { p.hand with fired := [] } }
  if inScene then { q with scene := q.scene.resetAction } else q

end AffixRules.Play
