import AffixRules.Pool.Aggregate

/-! Expanding an affix into the effects that fire, the primary one first. -/
namespace AffixRules

/-- An effect that fires, with its resolved value. -/
structure FiredPart where
  kind : EffectKind
  value : Float
  payload : Payload
  target : TargetSelector
  /-- The place of the sub-effect; none for the primary effect. -/
  index? : Option Nat := none
  deriving DecidableEq, Inhabited

namespace FiredPart

def isPrimary (p : FiredPart) : Bool := p.index?.isNone

end FiredPart

/-- One part as a list, empty when the verdict blocks it. -/
def Effect.fired (e : Effect) (scene : Scene) (self : Subject) (v : Verdict)
    (target : TargetSelector) (index? : Option Nat) : Except Failure (List FiredPart) :=
  if v.blocked then .ok []
  else (e.magnitude scene self .none v).map fun value =>
    [⟨e.kind, value, e.payload, target, index?⟩]

/-- The gate of a sub-effect: its own condition alone, or the affix's verdict. -/
def SubEffect.verdict (s : SubEffect) (parent : Verdict) (view : View) : Except Failure Verdict :=
  match s.condition? with
  | some c => c.evaluate view
  | none => .ok parent

/-- The parts of the sub-effects from place `i` on. -/
def subEffectParts (context : Context) (self : Subject) (parent : Verdict)
    (selector : TargetSelector) : Nat → List SubEffect → Except Failure (List FiredPart)
  | _, [] => .ok []
  | i, s :: rest => do
    let v ← s.verdict parent (.ofContext context self none none)
    let part ← s.toEffect.fired context.toScene self v (s.target?.getD selector) (some i)
    let parts ← subEffectParts context self parent selector (i + 1) rest
    pure (part ++ parts)

def Affix.firedParts (a : Affix) (context : Context) (given : Subject) :
    Except Failure (List FiredPart) := do
  let self := a.subject given
  let parent ← a.verdictIn context given
  let primary ← a.effect.fired context.toScene self parent a.selector none
  let parts ← subEffectParts context self parent a.selector 0 a.subEffects
  pure (primary ++ parts)

end AffixRules
