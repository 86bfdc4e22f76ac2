import AffixRules.Affix.Magnitude
import AffixRules.Dispatch.Report
import AffixRules.Dispatch.Targets

/-! Applying one effect. Numbers, tags and elements change dice in place; the rest is reported. -/
namespace AffixRules

/-- The dice and the report that a dispatch writes. -/
structure Board where
  tray : Tray
  report : Report := {}
  deriving DecidableEq, Inhabited

/-- An effect that fires from a die: its affix's name, its verdict and where it acts. -/
structure Firing where
  scene : Scene
  source : DieId
  name : Label
  effect : Effect
  verdict : Verdict

namespace Board

def emit (b : Board) (e : SpecialEffect) : Board := { b with report := b.report.emit e }

def modifyDie (b : Board) (i : DieId) (f : Die → Die) : Board :=
  { b with tray := b.tray.modify i f }

/-- Writes a die's value and records by how much it changed. -/
def writeValue (b : Board) (i : DieId) (n : Int) : Board :=
  let d := b.tray.get i
  { tray := b.tray.set i (d.withValue n), report := b.report.record d.slot (n - d.value) }

end Board

namespace Firing

variable (f : Firing)

def sourceDie (b : Board) : Die := b.tray.get f.source

/-- The magnitude as the dice stand now. -/
def magnitude (b : Board) (target? : Option DieId) : Except Failure Float :=
  f.effect.magnitude f.scene (.die (f.sourceDie b))
    ((target?.map fun i => Subject.die (b.tray.get i)).getD .none) f.verdict

def special (b : Board) (kind : SpecialKind) (target? : Option Int) (data : SpecialData) :
    SpecialEffect :=
  { kind, sourceSlot := (f.sourceDie b).slot, targetSlot? := target?, sourceName := f.name, data }

/-- Reports an effect on the source itself. -/
def emitSelf (b : Board) (kind : SpecialKind) (data : SpecialData) : Board :=
  b.emit (f.special b kind (some (f.sourceDie b).slot) data)

/-- The modifier made from a template; its value is the magnitude. -/
def modifier (b : Board) (t : ModifierTemplate) (value : Float) (target? : Option Int) : Modifier :=
  { modType := t.modType, value, duration := t.duration, turnsLeft := t.turns, filter := t.filter
    sourceSlot := (f.sourceDie b).slot, sourceName := f.name, target := target?.elim .null .int }

/-- Reports a modifier, bound to a die or to none. -/
def emitModifier (t : ModifierTemplate) (target? : Option DieId) (b : Board) : Outcome Board Unit :=
  match f.magnitude b target? with
  | .error e => .failed e b
  | .ok value =>
    let slot? := target?.map fun i => (b.tray.get i).slot
    .done () (b.emit (f.special b .createCombatModifier slot?
      (.modifier (f.modifier b t value slot?))))

def flatBonus (i : DieId) (b : Board) : Outcome Board Unit :=
  match (do (b.tray.get i).add (← f.magnitude b (some i))) with
  | .error e => .failed e b
  | .ok d => .done () (b.writeValue i d.value)

def setMinimum (i : DieId) (b : Board) : Outcome Board Unit :=
  match (do truncate (← f.magnitude b (some i))) with
  | .error e => .failed e b
  | .ok least => .done () (if (b.tray.get i).value < least then b.writeValue i least else b)

/-- Changes the tags of a die; a list or an object cannot be a tag. -/
def retag (tag : Label) (change : Die → Die) (i : DieId) (b : Board) : Outcome Board Unit :=
  if tag.isName then .done () (b.modifyDie i change) else .failed .notAName b

/-- What an effect does to one target; a payload of another form does nothing. -/
def hit (i : DieId) (b : Board) : Outcome Board Unit :=
  match f.effect.kind, f.effect.payload with
  | .flatBonus, _ => f.flatBonus i b
  | .setMinimum, _ => f.setMinimum i b
  | .addTag, .tag tag => retag tag (·.addTag tag) i b
  | .removeTag, .tag tag => retag tag (·.removeTag tag) i b
  | .setElement, .element element => .done () (b.modifyDie i fun d => { d with element })
  | .randomizeElement, payload =>
    let pool := match payload with
      | .randomize pool => pool
      | _ => []
    .done () (b.emit (f.special b .randomizeElement (some (b.tray.get i).slot)
      (.elements (Payload.elements pool))))
  | _, _ => .done () b

/-- The effect on its targets. A modifier for single dice is made once for each target, any other
once. -/
def apply (targets : List DieId) (b : Board) : Outcome Board Unit :=
  match f.effect.kind with
  | .leechHeal =>
    match f.effect.payload with
    | .leech percent => .done () (f.emitSelf b .leechHeal (.percent percent))
    | _ => .done () b
  | .destroySelf => .done () (f.emitSelf b .destroyFromPool .nothing)
  | .createCombatModifier =>
    let t := match f.effect.payload with
      | .modifier t => t
      | _ => {}
    if t.filter = .single then Outcome.forEach (fun i => f.emitModifier t (some i)) targets b
    else f.emitModifier t none b
  | _ => Outcome.forEach f.hit targets b

end Firing

end AffixRules
