import AffixRules.Condition.Evaluation

/-! The magnitude that an effect has in a scene: its value source, gated and scaled by a verdict. -/
namespace AffixRules.Effect

/-- A resolved quantity times the effect value; zero where nothing was resolved. -/
def share (e : Effect) (quantity : Except Failure (Option Float)) : Except Failure Float :=
  quantity.map fun
    | some x => x * e.value
    | none => 0

/-- The ungated magnitude. -/
def base (e : Effect) (scene : Scene) (self target : Subject) : Except Failure Float :=
  match e.source with
  | .static => .ok e.value
  | .selfValue => (self.value (some scene.player)).map fun x => x.getD 0
  | .selfValueFraction => e.share (self.value (some scene.player))
  | .neighborPercent => e.share (target.value (some scene.player))
  | .contextUsedCount => (toDouble scene.usedCount).map fun n => n * e.value
  | .playerStat =>
    e.share (if e.sourceStat.isAbsent then .ok none else scene.player.statNamed e.sourceStat)
  | .equippedItemCount => .ok (Float.ofNat scene.equipment.filledCount * e.value)
  | .equipmentRaritySum => .ok (Float.ofNat scene.equipment.raritySum * e.value)

/-- Exactly zero when blocked, without a look at the source; else the base times the multiplier. -/
def magnitude (e : Effect) (scene : Scene) (self target : Subject) (v : Verdict) :
    Except Failure Float :=
  if v.blocked then .ok 0 else (e.base scene self target).map fun x => x * v.multiplier

end AffixRules.Effect
