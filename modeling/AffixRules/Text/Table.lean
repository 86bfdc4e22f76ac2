/-! Sets of characters as ranges of code points. -/
namespace AffixRules

/-- Ranges of code points, both ends included. -/
abbrev CodeTable := List (Nat × Nat)

def CodeTable.has (table : CodeTable) (c : Char) : Bool :=
  table.any fun (low, high) => low ≤ c.toNat && c.toNat ≤ high

end AffixRules
