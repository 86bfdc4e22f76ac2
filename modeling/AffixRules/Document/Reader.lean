import AffixRules.Failure

/-! Reading documents. Of two fields of one name the later value stands in the earlier place. The
first thing in reading order that cannot be read is the failure. -/
namespace AffixRules.Document.Reader

def isGap (c : Char) : Bool := c = ' ' || c = '\t' || c = '\n' || c = '\r'

def skipGaps (cs : List Char) : List Char := cs.dropWhile isGap

def expect (word : List Char) (cs : List Char) : Option (List Char) :=
  if word.isPrefixOf cs then some (cs.drop word.length) else none

def hexValue? (c : Char) : Option Nat :=
  if '0' ≤ c && c ≤ '9' then some (c.toNat - 48)
  else if 'a' ≤ c && c ≤ 'f' then some (c.toNat - 87)
  else if 'A' ≤ c && c ≤ 'F' then some (c.toNat - 55)
  else none

def hexFour? : List Char → Option (Nat × List Char)
  | a :: b :: c :: d :: cs => do
    some (16 * (16 * (16 * (← hexValue? a) + (← hexValue? b)) + (← hexValue? c)) + (← hexValue? d),
      cs)
  | _ => none

def isHigh (n : Nat) : Bool := 0xd800 ≤ n && n < 0xdc00

def isLow (n : Nat) : Bool := 0xdc00 ≤ n && n < 0xe000

/-- Half a pair that stands alone has no character of its own. -/
def charOfUnit (n : Nat) : Char := if isHigh n || isLow n then '\ufffd' else Char.ofNat n

/-- The character of a numbered escape; two halves of a pair make one. -/
def numberedChar? (cs : List Char) : Option (Char × List Char) := do
  let (high, rest) ← hexFour? cs
  if isHigh high then
    match rest with
    | '\\' :: 'u' :: tail =>
      match hexFour? tail with
      | some (low, beyond) =>
        if isLow low then
          some (Char.ofNat (0x10000 + (high - 0xd800) * 0x400 + (low - 0xdc00)), beyond)
        else some (charOfUnit high, rest)
      | none => none
    | _ => some (charOfUnit high, rest)
  else some (charOfUnit high, rest)

def simpleEscape? (c : Char) : Option Char :=
  if c = '"' ∨ c = '\\' ∨ c = '/' then some c
  else if c = 'b' then some '\x08'
  else if c = 'f' then some '\x0c'
  else if c = 'n' then some '\n'
  else if c = 'r' then some '\r'
  else if c = 't' then some '\t'
  else none

/-- The characters up to the closing quote. -/
def textBody : Nat → List Char → List Char → Option (String × List Char)
  | 0, _, _ => none
  | fuel + 1, done, cs =>
    match cs with
    | [] => none
    | '"' :: rest => some (String.ofList done.reverse, rest)
    | '\\' :: 'u' :: rest =>
      match numberedChar? rest with
      | some (c, rest) => textBody fuel (c :: done) rest
      | none => none
    | '\\' :: c :: rest =>
      match simpleEscape? c with
      | some c => textBody fuel (c :: done) rest
      | none => none
    | c :: rest => if c.toNat < 0x20 ∨ c = '\\' then none else textBody fuel (c :: done) rest

/-- A document, or why there is none, and the rest of the text. -/
abbrev Step := Except Failure (Document × List Char)

def wholeNumber (negative : Bool) (digits rest : List Char) : Step :=
  if digitLimit < digits.length then .error (.tooManyDigits digits.length)
  else .ok (.int (signed negative (natOfDigits digits)), rest)

/-- A numeral is whole when it has neither fraction nor exponent; a point without digits is left
unread. -/
def number (negative : Bool) (cs : List Char) : Step :=
  let s := scanDecimal cs
  match s.whole, s.fraction, s.exponent with
  | [], _, _ | '0' :: _ :: _, _, _ => .error .notJson
  | digits, none, none => wholeNumber negative digits s.rest
  | digits, some [], _ => wholeNumber negative digits (cs.dropWhile isDigit)
  | _, _, _ => .ok (.float (s.toFloat negative), s.rest)

def words : List (String × Document) :=
  [("null", .null), ("true", .bool true), ("false", .bool false), ("NaN", .float someNaN),
   ("Infinity", .float positiveInfinity), ("-Infinity", .float (-positiveInfinity))]

def word? (cs : List Char) : Option (Document × List Char) :=
  words.findSome? fun (word, d) => (expect word.toList cs).map (d, ·)

def scalar (cs : List Char) : Step :=
  match word? cs with
  | some found => .ok found
  | none =>
    match cs with
    | '-' :: tail => number true tail
    | _ => number false cs

/-- The most lists and objects that may stand inside each other. -/
def nestingLimit : Nat := 989

mutual

/-- A document in which `room` lists and objects may still stand inside each other. -/
def value : Nat → Nat → List Char → Step
  | 0, _, _ => .error .notJson
  | fuel + 1, room, cs =>
    match skipGaps cs with
    | '"' :: rest =>
      match textBody (rest.length + 1) [] rest with
      | some (s, rest) => .ok (.text s, rest)
      | none => .error .notJson
    | '[' :: rest =>
      if room = 0 then .error .tooDeep
      else match skipGaps rest with
        | ']' :: rest => .ok (.list [], rest)
        | rest => items fuel (room - 1) [] rest
    | '\x7b' :: rest =>
      if room = 0 then .error .tooDeep
      else match skipGaps rest with
        | '\x7d' :: rest => .ok (.object [], rest)
        | rest => fields fuel (room - 1) [] rest
    | cs => scalar cs

def items : Nat → Nat → List Document → List Char → Step
  | 0, _, _, _ => .error .notJson
  | fuel + 1, room, done, cs =>
    match value fuel room cs with
    | .error e => .error e
    | .ok (d, rest) =>
      match skipGaps rest with
      | ',' :: rest => items fuel room (d :: done) rest
      | ']' :: rest => .ok (.list (d :: done).reverse, rest)
      | _ => .error .notJson

def fields : Nat → Nat → Entries String Document → List Char → Step
  | 0, _, _, _ => .error .notJson
  | fuel + 1, room, done, cs =>
    match skipGaps cs with
    | '"' :: rest =>
      match textBody (rest.length + 1) [] rest with
      | none => .error .notJson
      | some (key, rest) =>
        match skipGaps rest with
        | ':' :: rest =>
          match value fuel room rest with
          | .error e => .error e
          | .ok (d, rest) =>
            match skipGaps rest with
            | ',' :: rest => fields fuel room (done.put key d) rest
            | '\x7d' :: rest => .ok (.object (done.put key d), rest)
            | _ => .error .notJson
        | _ => .error .notJson
    | _ => .error .notJson

end

end Reader

/-- The document that a text writes, blanks around it allowed. -/
def parse (s : String) : Except Failure Document := do
  let cs := s.toList
  let (d, rest) ← Reader.value (2 * cs.length + 2) Reader.nestingLimit cs
  if (Reader.skipGaps rest).isEmpty then pure d else .error .notJson

end AffixRules.Document
