import AffixRules.Content.Checked
import AffixRules.Die
import AffixRules.Offer.Sample
import AffixRules.Text.Lowercase

/-! Settings from environment variables. -/
namespace AffixRules

structure Settings where
  logLevel : String := "INFO"
  offerCount : Int := RunState.defaultCount
  handSize : Int := Die.startingCount
  deriving DecidableEq, Inhabited

namespace Settings

/-- What the names of the variables start with. -/
def variablePrefix : String := "affix_engine_"

/-- Variables by name in lower case; of several spellings of one name the last counts. -/
def normalized (env : Entries String String) : Entries String String :=
  Entries.ofList (env.map fun (name, value) => (lowercase name, value))

open Checked in
def setting {α : Type} (env : Entries String String) (field : String) (fallback : α)
    (read : Document → Checked α) : Checked α :=
  match env.value? (variablePrefix ++ lowercase field) with
  | some value => (read (.text value)).under field
  | none => .ok fallback

open Checked in
def ofEnvironment (env : Entries String String) : Checked Settings :=
  let known := normalized env
  (setting known "LOG_LEVEL" "INFO" text).map Settings.mk
    |>.and (setting known "DEFAULT_OFFER_COUNT" RunState.defaultCount int)
    |>.and (setting known "DEFAULT_HAND_SIZE" Die.startingCount int)

end Settings

/-- Capitals of a level's name; a dotless i, a long s and its ligatures have plain capitals. -/
def levelCapitals (c : Char) : List Char :=
  if c = '\u0131' then ['I']
  else if c = '\u017f' then ['S']
  else if c = '\ufb05' ∨ c = '\ufb06' then ['S', 'T']
  else [c.toUpper]

def namedLevels : List (String × Nat) :=
  [("NOTSET", 0), ("DEBUG", 10), ("INFO", 20), ("WARN", 30), ("WARNING", 30), ("ERROR", 40),
   ("FATAL", 50), ("CRITICAL", 50)]

/-- The level of a name in capitals, the informational one for an unknown name. Two names stand for
what is no level: the basic format and the table of styles. -/
def levelNamed (name : String) : Except Failure Nat :=
  if name = "BASIC_FORMAT" then .error (.unknownLevel "%(levelname)s:%(name)s:%(message)s")
  else if name = "_STYLES" then .error .notNumeric
  else .ok ((Entries.value? namedLevels name).getD 20)

/-- The level of a name in any case; verbosity stands for the debugging level. -/
def logLevel (name : Label) (verbose : Bool) : Except Failure Nat :=
  if verbose then .ok 10
  else match name with
    | .text s => levelNamed (String.ofList (s.toList.flatMap levelCapitals))
    | _ => .error .notAnObject

end AffixRules
