import AffixRules.Context
import AffixRules.Record.Die

/-! The record form of scenes and of the entities in them. -/
namespace AffixRules

open Document

/-- Integers in order. -/
def sortedInts (ns : List Int) : Document :=
  .list ((ns.mergeSort fun a b => decide (a ≤ b)).map .int)

namespace Scene

/-- What there is to know about a scene. -/
def toRecord (s : Scene) : Document :=
  let e := s.equipment
  let filled := e.filterMap fun (slot, held) => held.map fun i => (Vocabulary.word slot, i.id)
  .object [("equipment", .object filled), ("items", texts (e.items.map Item.shown)),
    ("filled", .int e.filledCount), ("all_filled", .bool e.allFilled),
    ("rarity_sum", .int e.raritySum), ("health_percent", .float s.player.healthShare),
    ("used_count", .int s.usedCount), ("used", sortedInts s.used),
    ("class_name", s.player.className), ("health", .float s.player.health),
    ("max_health", .float s.player.maxHealth), ("in_combat", .bool s.inCombat),
    ("turn_number", .int s.turn)]

end Scene

namespace Item

def ofRecord (l : Library) (serial : Nat) : Reading Item := fun d => do
  let r ← Reading.fields d
  let id ← r.need "id" .ok
  let name ← r.field "name" id .ok
  let slot ← r.field "slot" .mainHand Reading.word
  let rarity ← r.field "rarity" .common Reading.word
  let tags ← r.field "tags" [] labelSet
  let twoHanded ← r.field "is_two_handed" false Reading.truth
  let affixes ← r.field "affixes" [] l.affixList
  pure { serial, id, name, slot, rarity, tags, twoHanded, affixes := found affixes
         incomplete := affixes.any Option.isNone }

end Item

namespace Player

/-- Stats by name; null is an unknown stat. -/
def statsOf : Reading (Entries String (Option Float)) := fun d => do
  Reading.entries (Reading.orNull Reading.float) (← Reading.fields d)

/-- The player with the class name and the healths that a record gives. -/
def withFields (p : Player) (r : Record) : Except Failure Player := do
  let className ← r.field "class_name" p.className .ok
  let health ← r.field "health" p.health Reading.float
  let maxHealth ← r.field "max_health" p.maxHealth Reading.float
  pure { p with className, health, maxHealth }

def ofRecord : Reading Player := fun d => do
  let r ← Reading.fields d
  withFields { stats := ← r.field "stats" [] statsOf } r

def withStat (entry : String × Document) (p : Player) : Except Failure Player := do
  pure { p with stats := p.stats.put entry.1 (← Reading.orNull Reading.float entry.2) }

/-- Takes over what a record gives: the plain fields together, then the stats one by one. -/
def update (r : Record) (p : Player) : Outcome Player Unit :=
  (Outcome.change (·.withFields r) p).andThen fun _ q =>
    (Outcome.ofExcept (r.field "stats" [] Reading.fields) q).andThen fun stats t =>
      Outcome.forEach (fun entry => Outcome.change (withStat entry)) stats t

end Player

namespace Scene

def updatePlayer (r : Record) (s : Scene) : Outcome Scene Unit :=
  let o := s.player.update r
  ⟨o.answer, { s with player := o.state }⟩

/-- Takes over whether there is a combat, then its turn. -/
def updateCombat (r : Record) (s : Scene) : Outcome Scene Unit :=
  Outcome.forEach Outcome.change
    [fun s => do pure { s with inCombat := ← r.need "value" Reading.truth },
     fun s => do pure { s with turn := ← r.given "turn_number" s.turn Reading.int }] s

/-- Equips the item of an entry to the slots that it lists, or to its own. -/
def equipFrom (l : Library) (s : Scene) (entry : Document × Nat) : Except Failure Scene := do
  let r ← Reading.fields entry.1
  let item ← r.need "item" (Item.ofRecord l entry.2)
  match r.given? "slots" with
  | none => pure (s.equip item none)
  | some slots =>
    pure ((← Reading.list Reading.word slots).foldl (fun t slot => t.equip item (some slot)) s)

/-- The scene of a record, and how many items it has; they are numbered in order. -/
def ofRecord (l : Library) (r : Record) : Except Failure (Scene × Nat) := do
  let player ← r.field "player" {} Player.ofRecord
  let entries ← r.field "equip" [] (Reading.list .ok)
  let scene ← entries.zipIdx.foldlM (equipFrom l) { player }
  let used ← r.field "used" [] (Reading.list Reading.int)
  let marked := used.foldl markUsed scene
  let usedCount ← r.given "used_count" marked.usedCount Reading.int
  let inCombat ← r.field "in_combat" false Reading.truth
  let turn ← r.field "turn_number" 0 Reading.int
  pure ({ marked with usedCount, inCombat, turn }, entries.length)

end Scene

namespace Context

/-- A scene with the dice in hand, and how many items it has. -/
def ofRecord (l : Library) (r : Record) : Except Failure (Context × Nat) := do
  let (scene, items) ← Scene.ofRecord l r
  let hand ← r.field "hand" [] (Reading.list (Die.ofRecord l))
  pure ({ scene with hand }, items)

end Context

namespace Subject

/-- A number, or its text. -/
def numberOf : Reading Subject
  | .text s => (Reading.float (.text s)).map number
  | .list _ | .object _ => .error .notNumeric
  | d => .ok (ofLabel d)

/-- An entity by its kind; a die of the hand by its place. -/
def ofRecord (l : Library) (context : Context) : Reading Subject
  | .null => .ok none
  | d => do
    match ← Reading.fields d with
    | ("die", x) :: _ => (Die.ofRecord l x).map die
    | ("item", x) :: _ => (Item.ofRecord l 0 x).map item
    | ("hand", x) :: _ => do pure (die (← placeIn context.hand (← Reading.int x)))
    | ("number", x) :: _ => numberOf x
    | ("bool", _) :: _ => .ok inert
    | ("stat", x) :: _ => .ok (ofLabel x)
    | _ => .ok none

end Subject

end AffixRules
