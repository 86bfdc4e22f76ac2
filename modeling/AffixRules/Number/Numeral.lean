import AffixRules.Number.Parts
import AffixRules.Text.Blank

/-! Reading numerals. One scanner takes a decimal apart; the readers below differ in the blanks,
signs, leading zeros and underscores that they allow. -/
namespace AffixRules

def isDigit (c : Char) : Bool := '0' ≤ c && c ≤ '9'

def natOfDigits (cs : List Char) : Nat := cs.foldl (fun n c => 10 * n + (c.toNat - 48)) 0

/-- The double nearest to `n * 10 ^ power`. -/
def decimalFloat (n : Nat) (power : Int) : Float :=
  let lead := power + (Nat.toDigits 10 n).length
  if n = 0 ∨ lead < -400 then 0
  else if 400 < lead then Float.ofBits 0x7ff0000000000000
  else Float.ofScientific n (power < 0) power.natAbs

/-- A decimal without its sign, and what follows it. -/
structure Scanned where
  whole : List Char
  fraction : Option (List Char)
  exponent : Option Int
  rest : List Char

def scanFraction : List Char → Option (List Char) × List Char
  | '.' :: cs => (some (cs.takeWhile isDigit), cs.dropWhile isDigit)
  | cs => (none, cs)

/-- A sign and whether it was a minus. -/
def scanSign : List Char → Bool × List Char
  | '-' :: cs => (true, cs)
  | '+' :: cs => (false, cs)
  | cs => (false, cs)

/-- An exponent mark without digits is left unread. -/
def scanExponent (cs : List Char) : Option Int × List Char :=
  match cs with
  | [] => (none, [])
  | c :: tail =>
    if c = 'e' ∨ c = 'E' then
      let (negative, unsigned) := scanSign tail
      match unsigned.takeWhile isDigit with
      | [] => (none, cs)
      | digits => (some (signed negative (natOfDigits digits)), unsigned.dropWhile isDigit)
    else (none, cs)

def scanDecimal (cs : List Char) : Scanned :=
  let (fraction, afterFraction) := scanFraction (cs.dropWhile isDigit)
  let (exponent, rest) := scanExponent afterFraction
  ⟨cs.takeWhile isDigit, fraction, exponent, rest⟩

def Scanned.toFloat (s : Scanned) (negative : Bool) : Float :=
  let fraction := s.fraction.getD []
  let x := decimalFloat (natOfDigits (s.whole ++ fraction)) (s.exponent.getD 0 - fraction.length)
  if negative then -x else x

def positiveInfinity : Float := Float.ofBits 0x7ff0000000000000

def someNaN : Float := Float.ofBits 0x7ff8000000000000

/-- Infinity and not-a-number by name, in any case. -/
def namedFloat? (negative : Bool) (cs : List Char) : Option Float :=
  let word := String.ofList (cs.map Char.toLower)
  if word = "inf" ∨ word = "infinity" then
    some (if negative then -positiveInfinity else positiveInfinity)
  else if word = "nan" then some someNaN
  else none

/-- A signed decimal or named value that fills the text; a digit must stand on one side of the
point. -/
def plainFloat? (cs : List Char) : Option Float :=
  let (negative, unsigned) := scanSign cs
  let s := scanDecimal unsigned
  if s.rest.isEmpty ∧ ¬ (s.whole ++ s.fraction.getD []).isEmpty then some (s.toFloat negative)
  else namedFloat? negative unsigned

/-- Underscores stand between digits only. -/
def underscoresInside (afterDigit : Bool) : List Char → Bool
  | [] => true
  | ['_'] => false
  | '_' :: c :: cs => afterDigit && isDigit c && underscoresInside true cs
  | c :: cs => underscoresInside (isDigit c) cs

def dropUnderscores (cs : List Char) : List Char := cs.filter (· ≠ '_')

/-- The reading of a number in a record: blanks around it, digits of any script, underscores
between digits. -/
def looseFloat? (s : String) : Option Float :=
  let cs := (trimCodes whiteSpaceCodes s.toList).map plainDigit
  if underscoresInside false cs then plainFloat? (dropUnderscores cs) else none

/-- Why a text is not read as a whole number. -/
inductive NumeralFault where
  | malformed
  | tooLong (digits : Nat)
  deriving DecidableEq, Repr, Inhabited

/-- The most digits that a written whole number may have. -/
def digitLimit : Nat := 4300

/-- The reading of a whole number in a record. Too many digits are refused before what follows them
is looked at. -/
def looseInt (s : String) : Except NumeralFault Int :=
  let (negative, cs) := scanSign ((trimCodes whiteSpaceCodes s.toList).map plainDigit)
  let run := cs.takeWhile fun c => isDigit c || c = '_'
  let digits := dropUnderscores run
  if digits.isEmpty ∨ ¬ underscoresInside false run then .error .malformed
  else if digitLimit < digits.length then .error (.tooLong digits.length)
  else if run.length < cs.length then .error .malformed
  else .ok (signed negative (natOfDigits digits))

/-- Underscores are neither first nor last nor doubled. -/
def singleUnderscores (cs : List Char) : Bool :=
  cs.contains '_' && cs.head? ≠ some '_' && cs.getLast? ≠ some '_' &&
    !(cs.zip cs.tail).contains ('_', '_')

def tidyUnderscores (cs : List Char) : List Char :=
  if singleUnderscores cs then dropUnderscores cs else cs

/-- The reading of a number in authored content. -/
def strictFloat? (s : String) : Option Float :=
  match plainFloat? (trimCodes whiteSpaceCodes s.toList) with
  | some x => some x
  | none =>
    if singleUnderscores s.toList then plainFloat? (dropUnderscores s.toList) else none

/-- A minus sign, and what it stands before. -/
def scanMinus : List Char → Bool × List Char
  | '-' :: cs => (true, cs)
  | cs => (false, cs)

/-- A whole number in its only written form. Too many digits are refused before what follows them is
looked at. -/
def canonicalInt (cs : List Char) : Except NumeralFault Int :=
  let (negative, digits) := scanMinus cs
  let run := digits.takeWhile isDigit
  match digits with
  | [] => .error .malformed
  | c :: tail =>
    if c ≠ '0' ∧ digitLimit < run.length then .error (.tooLong run.length)
    else if digits.all isDigit ∧ (c ≠ '0' ∨ tail.isEmpty) then
      .ok (signed negative (natOfDigits digits))
    else .error .malformed

/-- Leading zeros off, the last one kept where neither a digit nor a minus sign follows. -/
def dropLeadingZeros : List Char → Option (List Char)
  | '0' :: cs =>
    let filler := fun c => c = '0' || c = '_'
    let last := ('0' :: cs.takeWhile filler).getLastD '0'
    match cs.dropWhile filler with
    | [] => some [last]
    | c :: tail =>
      if c = '.' then some (last :: c :: tail)
      else if isDigit c ∨ c = '-' then some (c :: tail)
      else none
  | c :: cs => if isDigit c ∨ c = '-' then some (c :: cs) else none
  | [] => none

/-- A fraction of zeros off; it has at least one. -/
def dropZeroFraction (cs : List Char) : List Char :=
  match cs.dropWhile (· ≠ '.') with
  | '.' :: zeros =>
    if ¬ zeros.isEmpty ∧ zeros.all (· = '0') then cs.takeWhile (· ≠ '.') else cs
  | _ => cs

/-- The only written form of a number that has a plus sign, leading zeros, a fraction of zeros or
single underscores. -/
def tidied? (cs : List Char) : Option (List Char) :=
  let (negative, unsigned) := match cs with
    | '+' :: tail => (false, if tail.head? = some '-' then [] else tail)
    | _ => scanMinus cs
  (dropLeadingZeros unsigned).map fun trimmed =>
    let whole := tidyUnderscores (dropZeroFraction trimmed)
    if negative then '-' :: whole else whole

/-- The reading of a whole number in authored content: as it stands, or tidied. Only as it stands
can it have too many digits. -/
def strictInt (s : String) : Except NumeralFault Int :=
  match canonicalInt s.toList with
  | .error .malformed =>
    match (tidied? (trimCodes whiteSpaceCodes s.toList)).map canonicalInt with
    | some (.ok n) => .ok n
    | _ => .error .malformed
  | read => read

end AffixRules
