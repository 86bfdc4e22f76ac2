import AffixRules.Hand.Steps
import AffixRules.Proofs.Dispatch.Change

/-! Runs of play. A move keeps its books first and dispatches afterwards, if it dispatches at all; a
run goes on after a move that fails, with what the move had changed. -/
namespace AffixRules

/-- A move of play. By `supply` the caller goes on with another scene and source of chance. -/
inductive Move (σ : Type) where
  | rollHand (dice : List DieId)
  | setHand (dice : List DieId) (inScene : Bool)
  | reroll (ref : DieRef)
  | consume (ref : DieRef)
  | restore (ref : DieRef) (inScene : Bool)
  | resetTurn (inScene : Bool)
  | trigger (on : Trigger) (source? : Option DieId)
  | supply (scene : Scene) (chance : σ)

/-- What a move tells its caller; a move that has nothing to tell reports nothing. -/
inductive Answer where
  | report (r : Report)
  | restored (was : Bool)

def Answer.change (slot : Int) : Answer → Int
  | .report r => r.change slot
  | _ => 0

variable {σ : Type} [Generator σ]

def Move.play (m : Move σ) (p : Play σ) : Outcome (Play σ) Answer :=
  match m with
  | .rollHand dice => (p.rollHand dice).map .report
  | .setHand dice inScene => (p.setHand dice inScene).map fun _ => .report {}
  | .reroll ref => (p.reroll ref).map .report
  | .consume ref => (p.consume ref).map .report
  | .restore ref inScene => (p.restore ref inScene).map .restored
  | .resetTurn inScene => .done (.report {}) (p.resetTurn inScene)
  | .trigger on source? => (p.fire on source?).map .report
  | .supply scene chance => .done (.report {}) { p with scene, chance }

namespace Play

/-- Copies of dice become the hand and are rolled, one after the other. -/
def deal (dice : List DieId) (p : Play σ) : Outcome (Play σ) Unit :=
  let (copies, tray) := p.tray.allocAll (p.tray.dice dice)
  Outcome.forEach rollInto copies.zipIdx { p with tray, hand := { p.hand with dice := copies } }

omit [Generator σ]

/-- The books after a roll of the whole hand: nothing is used. -/
def freshBooks (p : Play σ) : Play σ :=
  { p with hand := { p.hand with fired := [] }, scene := p.scene.resetAction }

/-- The books after a use: the die is consumed, its slot has fired and counts as used. -/
def spend (p : Play σ) (i : DieId) : Play σ :=
  let slot := (p.dieOf i).slot
  let q := (p.modifyDie i fun d => { d with consumed := true }).markFired slot
  { q with scene := q.scene.markUsed slot }

/-- The books after a restoration. -/
def regain (p : Play σ) (i : DieId) (inScene : Bool) : Play σ :=
  let slot := (p.dieOf i).slot
  let q := (p.modifyDie i fun d => { d with consumed := false }).unmarkFired slot
  if inScene then { q with scene := q.scene.unmarkUsed slot } else q

/-- The books after dice were taken as the hand as they are. -/
def take (p : Play σ) (dice : List DieId) (inScene : Bool) : Play σ :=
  let tray := placeAll p.tray dice
  let q := { p with tray, hand := { p.hand with dice, fired := consumedSlots (tray.dice dice) } }
  if inScene then q.reveal else q

end Play

/-- What follows the books of a move. -/
inductive Due where
  | nothing
  | restored (was : Bool)
  | dispatch (on : Trigger) (source? : Option DieId)

namespace Move

/-- The books of a move, and what is due after them. -/
def books (m : Move σ) (p : Play σ) : Outcome (Play σ) Due :=
  match m with
  | .rollHand dice =>
    if dice.isEmpty then .failed .emptyHand p
    else match p.checkSize dice.length with
      | .error e => .failed e p
      | .ok () => (p.deal dice).andThen fun _ q => .done (.dispatch .onRoll none) q.freshBooks
  | .setHand dice inScene =>
    match p.checkSize dice.length with
    | .error e => .failed e p
    | .ok () => .done .nothing (p.take dice inScene)
  | .reroll ref =>
    match p.locate ref with
    | .error e => .failed e p
    | .ok i =>
      if (p.dieOf i).consumed then .done .nothing p
      else
        let o := (p.dieOf i).roll p.chance
        match o.answer with
        | .error e => .failed e { p with chance := o.state }
        | .ok d =>
          .done (.dispatch .onRoll (some i)) { p with tray := p.tray.set i d, chance := o.state }
  | .consume ref =>
    match p.locate ref with
    | .error e => .failed e p
    | .ok i =>
      if (p.dieOf i).consumed || p.hand.fired.contains (p.dieOf i).slot then
        .done .nothing p
      else .done (.dispatch .onUse (some i)) (p.spend i)
  | .restore ref inScene =>
    match p.locate ref with
    | .error e => .failed e p
    | .ok i =>
      if (p.dieOf i).consumed then .done (.restored true) (p.regain i inScene)
      else .done (.restored false) p
  | .resetTurn inScene => .done .nothing (p.resetTurn inScene)
  | .trigger on source? => .done (.dispatch on source?) p
  | .supply scene chance => .done .nothing { p with scene, chance }

end Move

/-- What is due after the books, on the play that they left. -/
def Due.settle (due : Due) (p : Play σ) : Outcome (Play σ) Answer :=
  match due with
  | .nothing => .done (.report {}) p
  | .restored was => .done (.restored was) p
  | .dispatch on source? => (p.fire on source?).map .report

/-- A move is its books and then what is due. -/
theorem Move.play_eq (m : Move σ) (p : Play σ) :
    m.play p = (m.books p).andThen Due.settle := by
  cases m with
  | rollHand dice =>
    simp only [play, books, Play.rollHand]
    by_cases hd : dice.isEmpty
    · simp only [hd]
      rfl
    · cases hc : p.checkSize dice.length with
      | error e =>
        simp only [hd]
        rfl
      | ok _ =>
        simp only [hd, Play.deal]
        generalize Outcome.forEach (Play.rollInto (σ := σ)) _ _ = o
        rcases o with ⟨answer, q⟩
        cases answer <;> rfl
  | setHand dice inScene =>
    simp only [play, books, Play.setHand]
    cases hc : p.checkSize dice.length <;> rfl
  | reroll ref =>
    simp only [play, books, Play.reroll]
    cases hl : p.locate ref with
    | error e => rfl
    | ok i =>
      by_cases hd : (p.dieOf i).consumed
      · simp only [hd]
        rfl
      · simp only [hd]
        generalize (p.dieOf i).roll p.chance = o
        rcases o with ⟨answer, h⟩
        cases answer <;> rfl
  | consume ref =>
    simp only [play, books, Play.consume]
    cases hl : p.locate ref with
    | error e => rfl
    | ok i =>
      by_cases hd : (p.dieOf i).consumed || p.hand.fired.contains (p.dieOf i).slot
      · simp only [hd]
        rfl
      · simp only [hd]
        rfl
  | restore ref inScene =>
    simp only [play, books, Play.restore]
    cases hl : p.locate ref with
    | error e => rfl
    | ok i =>
      by_cases hd : (p.dieOf i).consumed
      · simp only [hd]
        rfl
      · simp only [hd]
        rfl
  | resetTurn inScene => rfl
  | trigger on source? => rfl
  | supply scene chance => rfl

/-- One move of a run, with the play that it was made in. -/
structure Event (σ : Type) where
  before : Play σ
  move : Move σ

namespace Event

def outcome (e : Event σ) : Outcome (Play σ) Answer := e.move.play e.before

end Event

namespace Play

/-- The play after moves, failing ones included. -/
def after (p : Play σ) (ms : List (Move σ)) : Play σ := ms.foldl (fun q m => (m.play q).state) p

def history (p : Play σ) : List (Move σ) → List (Event σ)
  | [] => []
  | m :: ms => ⟨p, m⟩ :: history (m.play p).state ms

@[simp] theorem after_append (p : Play σ) (ms : List (Move σ)) (m : Move σ) :
    p.after (ms ++ [m]) = (m.play (p.after ms)).state := by
  simp [after]

@[simp] theorem history_append (p : Play σ) (ms : List (Move σ)) (m : Move σ) :
    p.history (ms ++ [m]) = p.history ms ++ [⟨p.after ms, m⟩] := by
  induction ms generalizing p with
  | nil => rfl
  | cons n ms ih =>
    change ⟨p, n⟩ :: history (n.play p).state (ms ++ [m]) = _
    rw [ih]
    rfl

omit [Generator σ]

@[simp] theorem dieOf_modifyDie (p : Play σ) (i j : DieId) (f : Die → Die) :
    (p.modifyDie i f).dieOf j = if i = j then f (p.dieOf i) else p.dieOf j := by
  simp [dieOf, modifyDie]

/-- A dispatch over the hand writes neither the books nor the outline of a die. -/
theorem fire_keeps (p : Play σ) (on : Trigger) (source? : Option DieId) :
    (p.fire on source?).state.hand = p.hand ∧
      (p.fire on source?).state.scene = p.scene ∧
      (p.fire on source?).state.chance = p.chance ∧
      ∀ i, ((p.fire on source?).state.dieOf i).outline = (p.dieOf i).outline := by
  refine ⟨rfl, rfl, rfl, fun i => ?_⟩
  obtain ⟨report, hb, -⟩ := Stage.fire_becomes ⟨p.scene, p.hand.dice⟩ on source? p.tray
    fun _ _ _ _ => trivial
  exact hb.outline_eq i

end Play

omit [Generator σ] in
theorem Due.settle_keeps (due : Due) (p : Play σ) :
    (due.settle p).state.hand = p.hand ∧
      ∀ i, ((due.settle p).state.dieOf i).outline = (p.dieOf i).outline := by
  cases due with
  | nothing => exact ⟨rfl, fun _ => rfl⟩
  | restored was => exact ⟨rfl, fun _ => rfl⟩
  | dispatch on source? =>
    obtain ⟨hh, -, -, ho⟩ := p.fire_keeps on source?
    exact ⟨hh, ho⟩

end AffixRules
