import AffixRules.Die
import AffixRules.Modifier.Basic
import AffixRules.Pool.Aggregate

/-! The active modifiers of a combat, in the order in which they were added. -/
namespace AffixRules

abbrev Modifiers := List Modifier

namespace Modifiers

/-- The modifiers in force at a slot. -/
def inForce (ms : Modifiers) (slot : Int) : List Modifier :=
  ms.filter fun m => !m.isExpired && m.appliesTo slot

/-- One turn later: those that ended, and those that remain. -/
def tick (ms : Modifiers) : List Modifier × Modifiers :=
  (ms.map Modifier.ticked).partition Modifier.isExpired

def affixesAt (ms : Modifiers) (slot : Int) : List Affix := (ms.inForce slot).map Modifier.toAffix

def poolAt (ms : Modifiers) (slot : Int) : Pool := .ofAffixes (ms.affixesAt slot)

/-- The working value of a die under the modifiers, truncated. -/
def dieValue (ms : Modifiers) (context : Context) (d : Die) : Except Failure Int := do
  let base ← toDouble d.value
  let x ← (ms.poolAt d.slot).stat context Modifier.dieValueStat base
  truncate x

/-- The values of the unconsumed dice by slot. -/
def handValues (ms : Modifiers) (context : Context) (dice : List Die) :
    Except Failure (Entries Int Int) :=
  (dice.filter fun d => !d.consumed).foldlM
    (fun values d => (ms.dieValue context d).map fun n => values.put d.slot n) []

end Modifiers

end AffixRules
