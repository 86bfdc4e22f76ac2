import AffixRules.Content.Fault
import AffixRules.Document.Shown
import AffixRules.Number.Numeral

/-! What can go wrong, by cause, and the wording of the causes that have one. -/
namespace AffixRules

inductive Failure where
  /-- A NaN has no whole part. -/
  | notANumber
  /-- An infinity has no whole part. -/
  | infinite
  /-- An integer beyond the doubles. -/
  | tooLarge
  /-- No integer lies between the bounds. -/
  | emptyRange (low high : Int)
  | unknownWord (vocabulary : String) (given : Document)
  | unreadableFloat (text : String)
  | unreadableInt (text : String)
  /-- More digits than a written integer may have. -/
  | tooManyDigits (digits : Nat)
  /-- No level of logging has this name. -/
  | unknownLevel (name : String)
  /-- Something other than a number or its text stands for a number. -/
  | notNumeric
  /-- A list or an object stands where a name is looked up. -/
  | notAName
  /-- An affix that could not be found is used. -/
  | unknownAffix
  /-- A record without a field that it needs. -/
  | missingField (name : String)
  /-- An affix without a name. -/
  | unnamed
  /-- A place beyond the ends of a list. -/
  | noSuchPlace (place : Int)
  | emptyHand
  | oversizedHand (size : Nat) (limit : Int)
  | slotOutOfRange (slot : Int) (size : Nat)
  /-- The die, as shown, lies elsewhere. -/
  | foreignDie (shown : String)
  | negativeCount
  | malformed (faults : List Fault)
  | notJson
  /-- A document with too many lists and objects inside each other. -/
  | tooDeep
  /-- A document of another kind where fields, or the letters of a name, are needed. -/
  | notAnObject
  /-- A document without parts where parts are needed. -/
  | notIterable
  deriving DecidableEq, Inhabited

namespace Failure

/-- How much of a quoted text the message of an unreadable integer shows. -/
def quoteLimit : Nat := 200

def message : Failure → String
  | notANumber => "cannot convert float NaN to integer"
  | infinite => "cannot convert float infinity to integer"
  | tooLarge => "int too large to convert to float"
  | emptyRange low high =>
    "empty range for randrange() (" ++ toString low ++ ", " ++ toString (high + 1) ++ ", " ++
      toString (high - low + 1) ++ ")"
  | unknownWord vocabulary given => given.shown ++ " is not a valid " ++ vocabulary
  | unreadableFloat text => "could not convert string to float: " ++ quoted text
  | unreadableInt text =>
    "invalid literal for int() with base 10: " ++
      String.ofList ((quoted text).toList.take quoteLimit)
  | tooManyDigits digits =>
    "Exceeds the limit (" ++ toString digitLimit ++
      " digits) for integer string conversion: value has " ++ toString digits ++
      " digits; use sys.set_int_max_str_digits() to increase the limit"
  | unknownLevel name => "Unknown level: " ++ quoted name
  | notNumeric => "a number is needed"
  | notAName => "a name is needed"
  | unknownAffix => "the affix is unknown"
  | missingField name => quoted name
  | unnamed => "an affix needs a name"
  | noSuchPlace _ => "list index out of range"
  | emptyHand => "Cannot roll an empty hand"
  | oversizedHand size limit =>
    "Hand size " ++ toString size ++ " exceeds maximum " ++ toString limit
  | slotOutOfRange slot size =>
    "Slot " ++ toString slot ++ " out of range for hand of " ++ toString size
  | foreignDie shown => shown ++ " is not in this hand"
  | negativeCount => "count must be >= 0"
  | malformed _ => "the content does not fit its model"
  | notJson => "the text is not a document"
  | tooDeep => "the document is nested too deeply"
  | notAnObject => "an object is needed"
  | notIterable => "a collection is needed"

end Failure

end AffixRules
