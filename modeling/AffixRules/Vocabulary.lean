import AffixRules.Document.Basic

/-! Closed vocabularies: finite types whose members are written as words. -/
namespace AffixRules

/-- A type with a title and, in order, all its members and their words. -/
class Vocabulary (α : Type) where
  title : String
  all : List α
  word : α → String

namespace Vocabulary

variable {α : Type} [Vocabulary α]

/-- The member that a word names; case and blanks matter. -/
def ofWord? (s : String) : Option α := (all : List α).find? fun a => word a = s

/-- The member that a document names; only text does. -/
def ofDocument? : Document → Option α
  | .text s => ofWord? s
  | _ => none

/-- The word in capitals, as messages name the member. -/
def label (a : α) : String := (word a).toUpper

end Vocabulary

end AffixRules
