/-! Doubles taken apart into sign, whole mantissa and power of two, so that comparison with
integers and truncation are exact. -/
namespace AffixRules

/-- What a double stands for: a finite one is exactly `± mantissa * 2 ^ exponent`. -/
inductive Parts where
  | notANumber
  | infinite (negative : Bool)
  | finite (negative : Bool) (mantissa : Nat) (exponent : Int)
  deriving DecidableEq, Repr, Inhabited

def twoTo (k : Nat) : Nat := Nat.pow 2 k

def tenTo (k : Nat) : Nat := Nat.pow 10 k

namespace Parts

/-- The bit that the mantissa of a normal double has on top of its fraction. -/
def leadingBit : Nat := 0x10000000000000

def ofBits (bits : UInt64) : Parts :=
  let negative := bits >>> 63 == 1
  let field := ((bits >>> 52) &&& 0x7ff).toNat
  let fraction := (bits &&& 0xfffffffffffff).toNat
  if field = 0x7ff then
    if fraction = 0 then .infinite negative else .notANumber
  else if field = 0 then .finite negative fraction (-1074)
  else .finite negative (leadingBit + fraction) (field - 1075)

def ofFloat (x : Float) : Parts := ofBits x.toBits

end Parts

/-- Twice, four times, ... as long as the power is positive. -/
def scaleUp (m : Nat) (power : Int) : Nat := m * twoTo power.toNat

def signed (negative : Bool) (n : Nat) : Int := if negative then -(n : Int) else n

/-- The whole part, toward zero; none for what is not finite. -/
def Parts.truncate? : Parts → Option Int
  | .finite negative m e => some (signed negative (scaleUp m e / twoTo (-e).toNat))
  | _ => none

/-- `n ≥ x` on the exact values; nothing compares with a NaN. -/
def Parts.leInt : Parts → Int → Bool
  | .notANumber, _ => false
  | .infinite negative, _ => negative
  | .finite negative m e, n => decide (signed negative (scaleUp m e) ≤ n * twoTo (-e).toNat)

/-- The integer is at least the double, without rounding the integer. -/
def atLeast (n : Int) (x : Float) : Bool := (Parts.ofFloat x).leInt n

/-- The double is a whole number. -/
def isWhole (x : Float) : Bool :=
  match Parts.ofFloat x with
  | .finite _ m e => m % twoTo (-e).toNat = 0
  | _ => false

end AffixRules
