import AffixRules.Document.Shown
import AffixRules.Vocabulary

/-! Entries of the offer catalog. -/
namespace AffixRules

inductive OfferRarity where
  | common | uncommon | rare | epic | legendary
  deriving DecidableEq, Repr, Inhabited

instance : Vocabulary OfferRarity where
  title := "RunAffixRarity"
  all := [.common, .uncommon, .rare, .epic, .legendary]
  word
    | .common => "common"
    | .uncommon => "uncommon"
    | .rare => "rare"
    | .epic => "epic"
    | .legendary => "legendary"

/-- What the weight of an offer is divided by. -/
def OfferRarity.divisor : OfferRarity → Nat
  | common => 1
  | uncommon => 2
  | rare => 4
  | epic => 8
  | legendary => 16

/-- An affix that may be offered during a run. -/
structure OfferEntry where
  affixId : String
  name : String := ""
  description : String := ""
  rarity : OfferRarity := .common
  /-- The tags that the entry contributes once it is chosen. -/
  tags : List String := []
  /-- The entry is not offered while a chosen entry has one of these tags. -/
  excludes : List String := []
  maxStacks : Int := 1
  weight : Float := 1
  deriving DecidableEq, Inhabited

/-- A weight over a divisor; what is not positive counts as zero. -/
def weightOver {α : Type} [OfNat α 0] [LE α] [DecidableLE α] [Div α] (weight divisor : α) : α :=
  if weight ≤ 0 then 0 else weight / divisor

namespace OfferEntry

def effectiveWeight (e : OfferEntry) : Float := weightOver e.weight (Float.ofNat e.rarity.divisor)

def shown (e : OfferEntry) : String :=
  "[" ++ Vocabulary.label e.rarity ++ "] " ++ (if e.name = "" then e.affixId else e.name)

/-- Texts in code point order, each once. -/
def sortedTexts (texts : List String) : List String :=
  texts.eraseDups.mergeSort fun a b => decide (a ≤ b)

/-- The tags that the entry both has and excludes. -/
def selfExcluded (e : OfferEntry) : List String :=
  sortedTexts (e.tags.filter fun tag => e.excludes.contains tag)

/-- Warnings for the author. -/
def warnings (e : OfferEntry) : List String :=
  (if e.affixId = "" then ["entry has no affix_id"] else []) ++
  (if e.maxStacks < 1 then
    [e.affixId ++ ": max_stacks " ++ toString e.maxStacks ++ " can never be offered"] else []) ++
  (if e.weight ≤ 0 then
    [e.affixId ++ ": offer_weight " ++ floatText e.weight ++ " can never be offered"] else []) ++
  (if e.selfExcluded.isEmpty then [] else
    [e.affixId ++ ": excludes its own tags " ++
      (Document.list (e.selfExcluded.map .text)).shown ++ " after one pick"])

end OfferEntry

end AffixRules
