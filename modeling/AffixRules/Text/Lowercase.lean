import AffixRules.Text.CaseTable

/-! Lower case of a text. A capital sigma at the end of a word becomes the final small sigma, and a
dotted capital I keeps its dot as a combining mark. -/
namespace AffixRules

def lowerCode (c : Char) : Char :=
  match lowerRuns.find? fun r => r.first ≤ c.toNat && c.toNat ≤ r.last
      && (c.toNat - r.first) % r.step == 0 with
  | some r => Char.ofNat (c.toNat + r.shift).toNat
  | none => c

/-- The nearest character that case rules do not look through has case. -/
def casedNext (cs : List Char) : Bool :=
  match cs.dropWhile caseIgnorableCodes.has with
  | [] => false
  | c :: _ => casedCodes.has c

/-- Lowers one character between those before it, nearest first, and those after it. -/
def lowerChar (before : List Char) (c : Char) (after : List Char) : List Char :=
  if c = '\u03a3' then
    [if casedNext before && !casedNext after then '\u03c2' else '\u03c3']
  else if c = '\u0130' then ['i', '\u0307']
  else [lowerCode c]

def lowerFrom (before : List Char) : List Char → List Char
  | [] => []
  | c :: after => lowerChar before c after ++ lowerFrom (c :: before) after

def lowercase (s : String) : String := String.ofList (lowerFrom [] s.toList)

end AffixRules
