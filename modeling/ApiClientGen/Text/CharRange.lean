/-!
Character classes given as a list of ranges of code points.
-/
namespace ApiClientGen.Text

/-- The code points from the first to the second, both included. -/
abbrev CharRange := Nat × Nat

def inRanges (ranges : List CharRange) (c : Char) : Bool :=
  ranges.any fun r => r.1 ≤ c.toNat && c.toNat ≤ r.2

end ApiClientGen.Text
