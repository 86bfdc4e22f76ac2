import AffixRules.Document.Label
import AffixRules.Number.Conversion
import AffixRules.Number.Numeral
import AffixRules.Place
import AffixRules.Vocabulary

/-! Records: values as documents with named fields, read without the checks of authored content. -/
namespace AffixRules

abbrev Record := Entries String Document

/-- The reading of a document as a value. -/
abbrev Reading (α : Type) := Document → Except Failure α

namespace Reading

/-- Numbers, truth values and numerals. -/
def float : Reading Float
  | .float x => .ok x
  | .int n => toDouble n
  | .bool b => .ok (if b then 1 else 0)
  | .text s =>
    match looseFloat? s with
    | some x => .ok x
    | none => .error (.unreadableFloat s)
  | .null | .list _ | .object _ => .error .notNumeric

/-- Numbers, truth values and whole numerals; a double is truncated. -/
def int : Reading Int
  | .int n => .ok n
  | .float x => truncate x
  | .bool b => .ok (if b then 1 else 0)
  | .text s =>
    match looseInt s with
    | .ok n => .ok n
    | .error .malformed => .error (.unreadableInt s)
    | .error (.tooLong digits) => .error (.tooManyDigits digits)
  | .null | .list _ | .object _ => .error .notNumeric

/-- What counts as absent is false. -/
def truth : Reading Bool := fun d => .ok !d.isAbsent

def text : Reading String
  | .text s => .ok s
  | _ => .error .notAName

/-- A member of a vocabulary by its word. -/
def word {α : Type} [Vocabulary α] : Reading α := fun d =>
  match Vocabulary.ofDocument? d with
  | some a => .ok a
  | none => .error (.unknownWord (Vocabulary.title α) d)

def fields : Reading Record
  | .object fields => .ok fields
  | _ => .error .notAnObject

/-- What something can be looked up under. -/
def name : Reading Label := fun d => if d.isName then .ok d else .error .notAName

variable {α : Type}

def orNull (read : Reading α) : Reading (Option α)
  | .null => .ok none
  | d => (read d).map some

/-- The items in order, up to the first that cannot be read. -/
def items (read : Reading α) : List Document → Except Failure (List α)
  | [] => .ok []
  | d :: ds => do
    let a ← read d
    let as ← items read ds
    pure (a :: as)

def list (read : Reading α) : Reading (List α)
  | .list ds => items read ds
  | _ => .error .notIterable

/-- The values in order under their keys. -/
def entries (read : Reading α) (r : Record) : Except Failure (Entries String α) :=
  (items (fun d => read d) r.values).map r.keys.zip

end Reading

namespace Record

variable {α : Type} (r : Record)

/-- The field's reading; a missing field stands for the fallback. -/
def field (key : String) (fallback : α) (read : Reading α) : Except Failure α :=
  match r.value? key with
  | some d => read d
  | none => .ok fallback

/-- The field as it is; a missing one is the empty text. -/
def label (key : String) : Label := (r.value? key).getD ""

/-- The field's value, unless it is missing or null. -/
def given? (key : String) : Option Document := (r.value? key).filter (· ≠ .null)

/-- The field's reading; a missing field and null stand for the fallback. -/
def given (key : String) (fallback : α) (read : Reading α) : Except Failure α :=
  match r.given? key with
  | some d => read d
  | none => .ok fallback

def optional (key : String) (read : Reading α) : Except Failure (Option α) :=
  r.given key none fun d => (read d).map some

def need (key : String) (read : Reading α) : Except Failure α :=
  match r.value? key with
  | some d => read d
  | none => .error (.missingField key)

end Record

namespace Document

def ofWord {α : Type} [Vocabulary α] (a : α) : Document := .text (Vocabulary.word a)

def ofOption {α : Type} (f : α → Document) : Option α → Document
  | some a => f a
  | none => .null

def texts (ss : List String) : Document := .list (ss.map .text)

def ofWords {α : Type} [Vocabulary α] (as : List α) : Document := .list (as.map ofWord)

end Document

end AffixRules
