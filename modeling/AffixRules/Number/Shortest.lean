import AffixRules.Number.Parts

/-! The fewest decimal digits that read back as a given double: of the decimal grids with 1, 2, ...
17 digits the first is taken on which a neighbour of the value lies among the reals that round to
it. -/
namespace AffixRules

/-- `digits * 10 ^ power`, with the first digit not zero. -/
structure Decimal where
  digits : List Nat
  power : Int
  deriving DecidableEq, Repr

namespace Decimal

/-- Decimal digits, most significant first. -/
def digitsOf (n : Nat) : List Nat := (Nat.toDigits 10 n).map fun c => c.toNat - 48

/-- The reals that round to `mantissa * 2 ^ exponent`, as multiples of `unit`, a quarter of the
last binary place; the ends belong to it when the mantissa is even. -/
structure Interval where
  low : Nat
  value : Nat
  high : Nat
  closed : Bool
  exponent : Int

def Interval.ofMantissa (m : Nat) (e : Int) : Interval :=
  { low := if m = Parts.leadingBit ∧ -1074 < e then 4 * m - 1 else 4 * m - 2
    value := 4 * m
    high := 4 * m + 2
    closed := m % 2 = 0
    exponent := e - 2 }

/-- `k * 10 ^ power` against `n * 2 ^ exponent`, both scaled to whole numbers. -/
def scaledPair (k : Nat) (power : Int) (n : Nat) (exponent : Int) : Nat × Nat :=
  (k * tenTo power.toNat * twoTo (-exponent).toNat, n * twoTo exponent.toNat * tenTo (-power).toNat)

def Interval.contains (i : Interval) (k : Nat) (power : Int) : Bool :=
  let (a, low) := scaledPair k power i.low i.exponent
  let (b, high) := scaledPair k power i.high i.exponent
  if i.closed then low ≤ a ∧ b ≤ high else low < a ∧ b < high

/-- The nearer of `k` and `k + 1` on the grid of `10 ^ power`; a tie goes to the even one. -/
def Interval.nearer (i : Interval) (k : Nat) (power : Int) : Nat :=
  let (a, v) := scaledPair k power i.value i.exponent
  let (b, _) := scaledPair (k + 1) power i.value i.exponent
  if v - a < b - v then k
  else if b - v < v - a then k + 1
  else k + k % 2

/-- The neighbour of the value on the grid of `10 ^ power` that reads back, if there is one. -/
def Interval.onGrid? (i : Interval) (power : Int) : Option Nat :=
  let k := i.value * twoTo i.exponent.toNat * tenTo (-power).toNat /
    (tenTo power.toNat * twoTo (-i.exponent).toNat)
  match i.contains k power, i.contains (k + 1) power with
  | true, true => some (i.nearer k power)
  | true, false => some k
  | false, true => some (k + 1)
  | false, false => none

/-- The power of ten of the leading digit of `m * 2 ^ e`. -/
def leadingPower (m : Nat) (e : Int) : Int :=
  if 0 ≤ e then ((digitsOf (m * twoTo e.toNat)).length : Int) - 1
  else
    let whole := m / twoTo (-e).toNat
    if whole ≠ 0 then ((digitsOf whole).length : Int) - 1
    else
      let places := (-e).toNat
      ((digitsOf (m * tenTo places / twoTo places)).length : Int) - 1 - places

/-- Tries grids from `power` downwards, at most `fuel` of them. -/
def Interval.search (i : Interval) (power : Int) : Nat → Option (Nat × Int)
  | 0 => none
  | fuel + 1 =>
    match i.onGrid? power with
    | some k => some (k, power)
    | none => i.search (power - 1) fuel

/-- Trailing zeros moved into the power. -/
def normalize (n : Nat) (power : Int) : Decimal :=
  let digits := digitsOf n
  let kept := (digits.reverse.dropWhile (· = 0)).reverse
  ⟨kept, power + (digits.length - kept.length : Nat)⟩

/-- Seventeen digits always suffice. -/
def shortest (m : Nat) (e : Int) : Decimal :=
  let i := Interval.ofMantissa m e
  let top := leadingPower m e
  match i.search top 18 with
  | some (k, power) => normalize k power
  | none => ⟨[], 0⟩

end Decimal

end AffixRules
