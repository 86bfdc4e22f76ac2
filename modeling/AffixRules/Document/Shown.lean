import AffixRules.Document.Basic
import AffixRules.Number.Written
import AffixRules.Text.Quoted

/-! Documents as messages and comparisons show them. -/
namespace AffixRules.Document

def joined (parts : List String) : String := String.intercalate ", " parts

mutual

/-- The form that shows the kind: text stands between quotes. -/
def shown : Document → String
  | null => "None"
  | bool b => if b then "True" else "False"
  | int n => toString n
  | float x => floatText x
  | text s => quoted s
  | list items => "[" ++ joined (shownItems items) ++ "]"
  | object fields => "\x7b" ++ joined (shownFields fields) ++ "\x7d"

def shownItems : List Document → List String
  | [] => []
  | d :: ds => shown d :: shownItems ds

def shownFields : List (String × Document) → List String
  | [] => []
  | (key, d) :: fields => (quoted key ++ ": " ++ shown d) :: shownFields fields

end

/-- As text: a text stands for itself, all else as shown. -/
def asText : Document → String
  | text s => s
  | d => d.shown

end AffixRules.Document
