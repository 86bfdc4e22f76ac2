/-! Faults of authored content: what is wrong, and where. -/
namespace AffixRules

inductive FaultKind where
  | missing | enum | modelType | listType | tupleType | tooLong | dictType | stringType
  | floatType | floatParsing | intType | intParsing | intParsingSize | intFromFloat | finiteNumber
  | boolType | boolParsing
  deriving DecidableEq, Repr, Inhabited

def FaultKind.word : FaultKind → String
  | missing => "missing"
  | enum => "enum"
  | modelType => "model_type"
  | listType => "list_type"
  | tupleType => "tuple_type"
  | tooLong => "too_long"
  | dictType => "dict_type"
  | stringType => "string_type"
  | floatType => "float_type"
  | floatParsing => "float_parsing"
  | intType => "int_type"
  | intParsing => "int_parsing"
  | intParsingSize => "int_parsing_size"
  | intFromFloat => "int_from_float"
  | finiteNumber => "finite_number"
  | boolType => "bool_type"
  | boolParsing => "bool_parsing"

/-- A fault at the end of a path of field names and list positions. -/
structure Fault where
  path : List String
  kind : FaultKind
  deriving DecidableEq, Repr, Inhabited

namespace Fault

def under (step : String) (f : Fault) : Fault := { f with path := step :: f.path }

def location (f : Fault) : String := String.intercalate "." f.path

end Fault

end AffixRules
