/-!
# Sets of characters by code ranges

Properties of the Unicode character database are tables of inclusive ranges of code points,
ascending and disjoint.
-/

namespace Rete.Text

/-- Inclusive ranges of code points. -/
abbrev CodeRanges : Type := Array (Nat × Nat)

/-- Whether a character lies in one of the ranges. -/
def CodeRanges.contains (ranges : CodeRanges) (c : Char) : Bool :=
  ranges.any fun (first, last) => first ≤ c.toNat && c.toNat ≤ last

end Rete.Text
