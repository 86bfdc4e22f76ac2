import AffixRules.Dispatch.Effects

/-! Firing affixes over a hand: the primary effect, then the sub-effects in order, all on the dice
as the earlier ones left them. -/
namespace AffixRules

/-- Where a dispatch happens: the scene and the dice in hand order. -/
structure Stage where
  scene : Scene
  hand : List DieId

namespace Stage

variable (g : Stage)

/-- What a condition of the source sees. -/
def view (source : DieId) (b : Board) : View :=
  ⟨g.scene, .die (b.tray.get source), b.tray.dice g.hand, (b.tray.get source).slot⟩

/-- Applies an effect unless it is blocked, and says whether it fired. -/
def applyEffect (source : DieId) (name : Label) (e : Effect) (v : Verdict)
    (targets : List DieId) (b : Board) : Outcome Board Bool :=
  if v.blocked then .done false b
  else ((⟨g.scene, source, name, e, v⟩ : Firing).apply targets b).andThen fun _ c => .done true c

/-- A sub-effect under its own gate and on its own targets where it has them. -/
def applySubEffect (source : DieId) (name : Label) (parent : Verdict) (targets : List DieId)
    (s : SubEffect) (b : Board) : Outcome Board Bool :=
  let verdict := match s.condition? with
    | some c => c.evaluate (g.view source b)
    | none => .ok parent
  match verdict with
  | .error e => .failed e b
  | .ok v =>
    let own := match s.target? with
      | some selector => b.tray.targets g.hand source selector
      | none => targets
    g.applyEffect source name s.toEffect v own b

/-- The sub-effects in order; tells whether one of them fired. -/
def applySubEffects (source : DieId) (name : Label) (parent : Verdict) (targets : List DieId) :
    List SubEffect → Board → Outcome Board Bool
  | [], b => .done false b
  | s :: rest, b =>
    (g.applySubEffect source name parent targets s b).andThen fun fired c =>
      (applySubEffects source name parent targets rest c).andThen fun more d =>
        .done (fired || more) d

/-- One affix of a die. Its name is recorded once if any part of it fired. -/
def applyAffix (source : DieId) (a : Affix) (b : Board) : Outcome Board Unit :=
  match Condition.evaluate? a.condition? (g.view source b) with
  | .error e => .failed e b
  | .ok v =>
    let targets := b.tray.targets g.hand source a.selector
    (g.applyEffect source a.name a.effect v targets b).andThen fun fired c =>
      (g.applySubEffects source a.name v targets a.subEffects c).andThen fun more d =>
        .done () (if fired || more then { d with report := d.report.name a.name } else d)

/-- All affixes of a die with a trigger, inherent ones first. -/
def fireDie (trigger : Trigger) (source : DieId) (b : Board) : Outcome Board Unit :=
  match (b.tray.get source).affixesOn trigger with
  | .ok as => Outcome.forEach (g.applyAffix source) as b
  | .error e => .failed e b

/-- The dice whose affixes fire: the given one, or all that are unconsumed at the start. -/
def sources (source? : Option DieId) (t : Tray) : List DieId :=
  match source? with
  | some i => [i]
  | none => g.hand.filter t.ready

/-- Fires a trigger; the report of a failed dispatch is lost, its changes to dice are not. -/
def fire (trigger : Trigger) (source? : Option DieId) (t : Tray) : Outcome Tray Report :=
  let o := Outcome.forEach (g.fireDie trigger) (g.sources source? t) { tray := t }
  ⟨o.answer.map fun _ => o.state.report, o.state.tray⟩

end Stage

end AffixRules
