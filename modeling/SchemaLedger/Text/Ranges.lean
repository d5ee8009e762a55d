/-!
# Sets of characters as ranges of code points

A property of characters is kept as a list of closed ranges, ascending and apart.
-/

namespace SchemaLedger.Text

/-- Closed ranges of code points. -/
abbrev CharRanges := List (Nat × Nat)

/-- The character lies in one of the ranges. -/
def CharRanges.contains (ranges : CharRanges) (c : Char) : Bool :=
  ranges.any fun (first, last) => first ≤ c.toNat && c.toNat ≤ last

end SchemaLedger.Text
