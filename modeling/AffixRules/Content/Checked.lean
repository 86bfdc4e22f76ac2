import AffixRules.Content.Fault
import AffixRules.Document.Basic
import AffixRules.Number.Numeral
import AffixRules.Vocabulary

/-! Reading authored content. A reading either succeeds or lists every fault, in field order. -/
namespace AffixRules

abbrev Checked (α : Type) := Except (List Fault) α

namespace Checked

variable {α β : Type}

def fault (kind : FaultKind) : Checked α := .error [⟨[], kind⟩]

def map (f : α → β) (a : Checked α) : Checked β := Except.map f a

/-- Both readings count: the faults of the second follow those of the first. -/
def and (f : Checked (α → β)) (a : Checked α) : Checked β :=
  match f, a with
  | .ok f, .ok a => .ok (f a)
  | .ok _, .error e => .error e
  | .error e, .ok _ => .error e
  | .error e, .error d => .error (e ++ d)

/-- The reading of a part, its faults placed under the part's name. -/
def under (step : String) (a : Checked α) : Checked α :=
  a.mapError fun faults => faults.map (Fault.under step)

/-- All items, each under its place. -/
def all (read : Document → Checked α) : Nat → List Document → Checked (List α)
  | _, [] => .ok []
  | i, d :: ds => (((read d).under (toString i)).map List.cons).and (all read (i + 1) ds)

/-- All values, each under its key. -/
def allValues (read : Document → Checked α) :
    List (String × Document) → Checked (Entries String α)
  | [] => .ok []
  | (key, d) :: fields =>
    (((read d).under key).map fun a => ((key, a) :: ·)).and (allValues read fields)

def text : Document → Checked String
  | .text s => .ok s
  | _ => fault .stringType

/-- Numbers, truth values and numerals. -/
def float : Document → Checked Float
  | .float x => .ok x
  | .int n => if (Float.ofInt n).isInf then fault .floatType else .ok (Float.ofInt n)
  | .bool b => .ok (if b then 1 else 0)
  | .text s =>
    match strictFloat? s with
    | some x => .ok x
    | none => fault .floatParsing
  | _ => fault .floatType

def intText (s : String) : Checked Int :=
  match strictInt s with
  | .ok n => .ok n
  | .error .malformed => fault .intParsing
  | .error (.tooLong _) => fault .intParsingSize

/-- The bound of signed words of 64 bits. -/
def wordBound : Nat := 0x8000000000000000

/-- A double that is a whole number of 64 bits. -/
def intFloat (x : Float) : Checked Int :=
  match (Parts.ofFloat x).truncate? with
  | none => fault .finiteNumber
  | some n =>
    if !isWhole x then fault .intFromFloat
    else if n.natAbs < wordBound then .ok n
    else fault .intParsingSize

def int : Document → Checked Int
  | .int n => .ok n
  | .bool b => .ok (if b then 1 else 0)
  | .float x => intFloat x
  | .text s => intText s
  | _ => fault .intType

def trueWords : List String := ["true", "yes", "on", "y", "t", "1"]

def falseWords : List String := ["false", "no", "off", "n", "f", "0"]

def boolInt (n : Int) : Checked Bool :=
  if n = 0 then .ok false else if n = 1 then .ok true else fault .boolParsing

/-- Truth values, zero and one, and the usual words in any case. -/
def bool : Document → Checked Bool
  | .bool b => .ok b
  | .int n => if -(wordBound : Int) ≤ n ∧ n < wordBound then boolInt n else fault .boolType
  | .float x =>
    match intFloat x with
    | .ok n => boolInt n
    | .error _ => fault .boolType
  | .text s =>
    let word := String.ofList (s.toList.map Char.toLower)
    if trueWords.contains word then .ok true
    else if falseWords.contains word then .ok false
    else fault .boolParsing
  | _ => fault .boolType

/-- A member of a vocabulary by its exact word. -/
def word [Vocabulary α] (d : Document) : Checked α :=
  match Vocabulary.ofDocument? d with
  | some a => .ok a
  | none => fault .enum

def list (read : Document → Checked α) : Document → Checked (List α)
  | .list items => all read 0 items
  | _ => fault .listType

def dict (read : Document → Checked α) : Document → Checked (Entries String α)
  | .object fields => allValues read fields
  | _ => fault .dictType

/-- Two numbers. -/
def pair : Document → Checked (Float × Float)
  | .list [] => .error [⟨["0"], .missing⟩, ⟨["1"], .missing⟩]
  | .list [low] => (((float low).under "0").map Prod.mk).and ((fault .missing).under "1")
  | .list [low, high] => (((float low).under "0").map Prod.mk).and ((float high).under "1")
  | .list _ => fault .tooLong
  | _ => fault .tupleType

/-- Null stands for nothing. -/
def orNull (read : Document → Checked α) : Document → Checked (Option α)
  | .null => .ok none
  | d => (read d).map some

/-- A model is read from the fields of an object. -/
def model (read : Entries String Document → Checked α) : Document → Checked α
  | .object fields => read fields
  | _ => fault .modelType

def required (fields : Entries String Document) (key : String) (read : Document → Checked α) :
    Checked α :=
  match fields.value? key with
  | some d => (read d).under key
  | none => (fault .missing).under key

def optional (fields : Entries String Document) (key : String) (fallback : α)
    (read : Document → Checked α) : Checked α :=
  match fields.value? key with
  | some d => (read d).under key
  | none => .ok fallback

end Checked

end AffixRules
