/-!
# Tables of characters

A Unicode property is kept as a list of ranges of code points.  `inRanges` looks a character up.
-/

namespace IdlTypings.Text

/-- Whether the code point of a character lies in one of the ranges, both ends included. -/
def inRanges (ranges : List (Nat × Nat)) (c : Char) : Bool :=
  ranges.any fun r => r.1 ≤ c.toNat && c.toNat ≤ r.2

end IdlTypings.Text
