import AffixRules.Draw
import AffixRules.Offer.RunState

/-! Offers: entries drawn by weight, without replacement, from those that may be offered. -/
namespace AffixRules

section Pick

variable {α : Type} [OfNat α 0] [Add α] [Mul α] [LT α] [DecidableLT α]

/-- The place of the first weight whose cumulative sum exceeds the roll. -/
def hit? (roll : α) : α → List α → Option Nat
  | _, [] => none
  | sum, w :: ws => if roll < sum + w then some 0 else (hit? roll (sum + w) ws).map (· + 1)

def weightSum (ws : List α) : α := ws.foldl (· + ·) 0

/-- The place that a draw picks; the last one when no sum exceeds the roll. -/
def pickIndex (draw : α) (ws : List α) : Nat :=
  (hit? (draw * weightSum ws) 0 ws).getD (ws.length - 1)

/-- At most `n` candidates, one draw for each, a picked one being taken out. -/
def sampleBy {σ β : Type} (draw : σ → α × σ) (weight : β → α) : Nat → List β → σ → List β × σ
  | 0, _, g => ([], g)
  | _ + 1, [], g => ([], g)
  | n + 1, c :: cs, g =>
    let (d, h) := draw g
    let i := pickIndex d ((c :: cs).map weight)
    let (rest, k) := sampleBy draw weight n ((c :: cs).eraseIdx i) h
    ((c :: cs).getD i c :: rest, k)

end Pick

variable {σ : Type} [Generator σ]

/-- Candidates drawn by the fractions of a generator. -/
def sample {β : Type} (weight : β → Float) : Nat → List β → σ → List β × σ :=
  sampleBy Generator.fraction weight

namespace RunState

/-- Not excluded by a chosen tag, not full, and with a weight that is not zero or less. -/
def mayOffer (s : RunState) (chosenTags : List String) (e : OfferEntry) : Bool :=
  !(e.excludes.any fun tag => chosenTags.contains tag) && !s.isFull e &&
    !decide (e.effectiveWeight ≤ 0)

/-- The entries that may be offered, the first of each affix, in catalog order. -/
def eligible (s : RunState) (catalog : List OfferEntry) : List OfferEntry :=
  let tags := s.chosenTags catalog
  catalog.foldl (fun found e =>
    if found.any fun f => f.affixId = e.affixId then found
    else if s.mayOffer tags e then found ++ [e] else found) []

/-- The number of offers in a batch unless told otherwise. -/
def defaultCount : Int := 3

/-- One batch of offers. -/
def rollOffers (s : RunState) (catalog : List OfferEntry) (count : Int) (g : σ) :
    Outcome σ (List OfferEntry) :=
  if count < 0 then .failed .negativeCount g
  else
    let (offers, h) := sample OfferEntry.effectiveWeight count.toNat (s.eligible catalog) g
    .done offers h

end RunState

end AffixRules
