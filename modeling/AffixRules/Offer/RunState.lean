import AffixRules.Offer.Entry

/-! The picks of a run. -/
namespace AffixRules

structure RunState where
  /-- How often each affix was chosen. -/
  chosen : Entries String Int := []
  /-- The picks in order. -/
  order : List String := []
  skipped : Int := 0
  deriving DecidableEq, Inhabited

namespace RunState

def stackCount (s : RunState) (affixId : String) : Int := (s.chosen.value? affixId).getD 0

def isFull (s : RunState) (e : OfferEntry) : Bool := e.maxStacks ≤ s.stackCount e.affixId

/-- The tags of the catalog entries that were chosen, each once. -/
def chosenTags (s : RunState) (catalog : List OfferEntry) : List String :=
  ((catalog.filter fun e => 0 < s.stackCount e.affixId).flatMap (·.tags)).eraseDups

/-- Records a pick. -/
def track (s : RunState) (e : OfferEntry) : RunState :=
  { s with
    chosen := s.chosen.put e.affixId (s.stackCount e.affixId + 1)
    order := s.order ++ [e.affixId] }

/-- Records an offer declined without a pick. -/
def skip (s : RunState) : RunState := { s with skipped := s.skipped + 1 }

end RunState

end AffixRules
