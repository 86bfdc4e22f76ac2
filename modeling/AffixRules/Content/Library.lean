import AffixRules.Content.Sheet
import AffixRules.Document.Reader
import AffixRules.Failure

/-! The content library: affix templates from three sources, and the offer catalog. -/
namespace AffixRules

/-- A reading as a step that may fail. -/
def Checked.orFail {α : Type} (a : Checked α) : Except Failure α := a.mapError .malformed

/-- The parts of a document: items, names of fields, or characters. -/
def Document.parts : Document → Except Failure (List Document)
  | list items => .ok items
  | object fields => .ok (fields.map fun (key, _) => text key)
  | text s => .ok (s.toList.map fun c => text (String.singleton c))
  | _ => .error .notIterable

/-- The offers of a catalog, up to the first that does not fit its sheet. -/
def OfferEntry.allOfDocument (d : Document) : Except Failure (List OfferEntry) := do
  (← d.parts).mapM fun part => (OfferEntry.ofDocument part).orFail

namespace Affix

def ofDocument (d : Document) : Except Failure Affix :=
  (AffixSheet.ofDocument d).orFail.map AffixSheet.toAffix

/-- The affixes of a content file, up to the first that does not fit its sheet. -/
def allOfDocument : Document → Except Failure (List Affix)
  | .object fields => do
    let items ← ((Entries.value? fields "affixes").getD (.list [])).parts
    items.mapM ofDocument
  | _ => .error .notAnObject

def allOfText (text : String) : Except Failure (List Affix) := do
  allOfDocument (← Document.parse text)

end Affix

structure Library where
  dice : List Affix := []
  item : List Affix := []
  run : List Affix := []
  catalog : List OfferEntry := []
  deriving Inhabited

namespace Library

variable (l : Library)

def affixes : List Affix := l.dice ++ l.item ++ l.run

/-- The templates by id. Of several with one id the last stands, in the place of the first. -/
def templates : Entries Label Affix := Entries.ofList (l.affixes.map fun a => (a.id, a))

/-- The first template with an id. -/
def template? (id : Label) : Option Affix := l.affixes.find? fun a => a.id = id

def entry? (id : Label) : Option OfferEntry := l.catalog.find? fun e => id = e.affixId

def entryWarnings (e : OfferEntry) : List String :=
  e.warnings ++
    (if (l.templates.value? e.affixId).isNone then
      [e.affixId ++ ": catalog entry has no affix template"] else [])

/-- The warnings of all templates and catalog entries. -/
def warnings : List String :=
  l.templates.values.flatMap Affix.warnings ++ l.catalog.flatMap l.entryWarnings

end Library

end AffixRules
