import AffixRules.Document.Basic
import AffixRules.Number.Written
import AffixRules.Text.Quoted

/-! The compact written form of a document: no blanks, characters beyond ASCII as they are. -/
namespace AffixRules.Document

def escapedChar (c : Char) : List Char :=
  if c = '"' ∨ c = '\\' then ['\\', c]
  else if c = '\n' then ['\\', 'n']
  else if c = '\r' then ['\\', 'r']
  else if c = '\t' then ['\\', 't']
  else if c = '\x08' then ['\\', 'b']
  else if c = '\x0c' then ['\\', 'f']
  else if c.toNat < 0x20 then '\\' :: 'u' :: hexText 4 c.toNat
  else [c]

def writeText (s : String) : String :=
  "\"" ++ String.ofList (s.toList.flatMap escapedChar) ++ "\""

/-- The spellings of the doubles that no numeral denotes. -/
def floatWords : NumberLayout :=
  { NumberLayout.plain with notANumber := "NaN", infinity := "Infinity" }

mutual

def write : Document → String
  | null => "null"
  | bool b => if b then "true" else "false"
  | int n => toString n
  | float x => floatWords.write x
  | text s => writeText s
  | list items => "[" ++ String.intercalate "," (writeItems items) ++ "]"
  | object fields => "\x7b" ++ String.intercalate "," (writeFields fields) ++ "\x7d"

def writeItems : List Document → List String
  | [] => []
  | d :: ds => write d :: writeItems ds

def writeFields : List (String × Document) → List String
  | [] => []
  | (key, d) :: fields => (writeText key ++ ":" ++ write d) :: writeFields fields

end

end AffixRules.Document
