import AffixRules.Number.Shortest

/-! The written form of numbers. -/
namespace AffixRules

/-- How a decimal is laid out as text. -/
structure NumberLayout where
  /-- Least leading power written without an exponent. -/
  positionalFrom : Int
  /-- First leading power written with an exponent. -/
  positionalBelow : Int
  point : String
  /-- What follows the point of a whole number. -/
  wholeSuffix : String
  exponentMark : String
  /-- Least number of exponent digits; its sign is always written. -/
  exponentDigits : Nat
  notANumber : String
  infinity : String

/-- Positional from 0.0001 to below 10^16, `.0` kept, else an exponent of two digits or more. -/
def NumberLayout.plain : NumberLayout :=
  { positionalFrom := -4
    positionalBelow := 16
    point := "."
    wholeSuffix := "0"
    exponentMark := "e"
    exponentDigits := 2
    notANumber := "nan"
    infinity := "inf" }

def digitsText (digits : List Nat) : String :=
  String.ofList (digits.map fun d => Char.ofNat (d + 48))

def zeros (n : Nat) : String := String.ofList (List.replicate n '0')

namespace NumberLayout

variable (layout : NumberLayout)

/-- Digits before and after the point of `digits * 10 ^ power`. -/
def positional (d : Decimal) : String :=
  let n : Int := d.digits.length
  if 0 ≤ d.power then
    digitsText d.digits ++ zeros d.power.toNat ++ layout.point ++ layout.wholeSuffix
  else if 0 < n + d.power then
    let cut := (n + d.power).toNat
    digitsText (d.digits.take cut) ++ layout.point ++ digitsText (d.digits.drop cut)
  else "0" ++ layout.point ++ zeros (-(n + d.power)).toNat ++ digitsText d.digits

def exponentText (power : Int) : String :=
  let size := toString power.natAbs
  (if power < 0 then "-" else "+") ++ zeros (layout.exponentDigits - size.length) ++ size

def scientific (d : Decimal) : String :=
  let lead := d.power + d.digits.length - 1
  let rest := d.digits.drop 1
  digitsText (d.digits.take 1) ++ (if rest.isEmpty then "" else layout.point ++ digitsText rest) ++
    layout.exponentMark ++ layout.exponentText lead

def decimal (d : Decimal) : String :=
  let lead := d.power + d.digits.length - 1
  if layout.positionalFrom ≤ lead ∧ lead < layout.positionalBelow then layout.positional d
  else layout.scientific d

def write (x : Float) : String :=
  match Parts.ofFloat x with
  | .notANumber => layout.notANumber
  | .infinite negative => (if negative then "-" else "") ++ layout.infinity
  | .finite negative m e =>
    (if negative then "-" else "") ++
      (if m = 0 then "0" ++ layout.point ++ layout.wholeSuffix
       else layout.decimal (Decimal.shortest m e))

end NumberLayout

/-- A double as text. -/
def floatText (x : Float) : String := NumberLayout.plain.write x

end AffixRules
