import AffixRules.Document.Basic
import AffixRules.Number.Parts

/-! Labels: names, tags and names of stats. They are carried as they were given and compared, but
never taken apart; nearly all are text. -/
namespace AffixRules

/-- A name, a tag or the name of a stat. -/
abbrev Label := Document

instance : Coe String Document := ⟨.text⟩

namespace Document

/-- Nothing can be looked up under a list or an object. -/
def isName : Document → Bool
  | list _ | object _ => false
  | null | bool _ | int _ | float _ | text _ => true

/-- The whole number that a document stands for; truth values count as zero and one. -/
def whole? : Document → Option Int
  | int n => some n
  | bool b => some (if b then 1 else 0)
  | float x => if isWhole x then (Parts.ofFloat x).truncate? else none
  | null | text _ | list _ | object _ => none

@[simp] theorem whole?_int (n : Int) : (int n).whole? = some n := rfl

/-- Texts are in code point order, whole numbers in theirs. -/
def labelLe : Label → Label → Bool
  | text s, text t => s ≤ t
  | int m, int n => m ≤ n
  | _, _ => true

/-- Labels in order, each once. -/
def sortedLabels (labels : List Label) : List Label := labels.eraseDups.mergeSort labelLe

end Document

end AffixRules
