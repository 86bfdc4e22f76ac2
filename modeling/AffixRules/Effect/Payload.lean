import AffixRules.Document.Label
import AffixRules.Effect.Basic

/-! Typed payloads of effects. An effect may carry a payload of another effect's form; `mismatch?`
reports it and firing falls back. -/
namespace AffixRules

/-- What a created modifier looks like; its value is the resolved effect value. -/
structure ModifierTemplate where
  modType : ModifierType := .flat
  duration : ModifierDuration := .combat
  turns : Int := 0
  filter : TargetFilter := .all
  deriving DecidableEq, Repr, Inhabited

inductive Payload where
  | nothing
  | tag (tag : Label)
  | element (element : Element)
  | randomize (pool : List Element)
  | leech (percent : Float)
  | modifier (template : ModifierTemplate)
  | action (id : Label)
  deriving DecidableEq, Inhabited

/-- The forms that a payload can have. -/
inductive PayloadForm where
  | nothing | tag | element | randomize | leech | modifier | action
  deriving DecidableEq, Repr, Inhabited

namespace PayloadForm

/-- The name of the form in warnings. -/
def title : PayloadForm → String
  | nothing => "NoEffectData"
  | tag => "TagData"
  | element => "ElementData"
  | randomize => "RandomizeElementData"
  | leech => "LeechHealData"
  | modifier => "CombatModifierData"
  | action => "GrantActionData"

end PayloadForm

namespace Payload

def form : Payload → PayloadForm
  | nothing => .nothing
  | tag _ => .tag
  | element _ => .element
  | randomize _ => .randomize
  | leech _ => .leech
  | modifier _ => .modifier
  | action _ => .action

/-- The elements to draw from; an empty pool stands for every element but none. -/
def elements (pool : List Element) : List Element :=
  if pool.isEmpty then (Vocabulary.all : List Element).filter (· ≠ .none) else pool

end Payload

namespace EffectKind

/-- The form of payload that an effect expects. -/
def expects : EffectKind → PayloadForm
  | statBonus | flatBonus | setMinimum | destroySelf => .nothing
  | grantAction => .action
  | addTag | removeTag => .tag
  | setElement => .element
  | randomizeElement => .randomize
  | leechHeal => .leech
  | createCombatModifier => .modifier

/-- The payload of an effect for which none was authored. -/
def defaultPayload (kind : EffectKind) : Payload :=
  match kind.expects with
  | .randomize => .randomize []
  | .modifier => .modifier {}
  | _ => .nothing

end EffectKind

/-- Why a payload does not suit its effect. -/
inductive PayloadFault where
  | wrongForm (kind : EffectKind) (form : PayloadForm)
  | expiresImmediately (turns : Int)
  deriving DecidableEq, Repr

namespace PayloadFault

def warning : PayloadFault → String
  | wrongForm kind form =>
    Vocabulary.label kind ++ " expects " ++ kind.expects.title ++ ", got " ++ form.title
  | expiresImmediately turns =>
    "TURNS combat modifier with " ++ toString turns ++ " turns expires immediately"

end PayloadFault

namespace Payload

/-- The payload's fault for an effect, if it has one. -/
def fault? (kind : EffectKind) (payload : Payload) : Option PayloadFault :=
  if payload.form = kind.expects then
    match payload with
    | modifier t =>
      if t.duration = .turns ∧ t.turns ≤ 0 then some (.expiresImmediately t.turns) else none
    | _ => none
  else some (.wrongForm kind payload.form)

end Payload

end AffixRules
