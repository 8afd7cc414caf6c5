/-!
# Character classes by code point ranges

A character class of the library is a list of inclusive code point ranges. The
tables of white space, word characters, decimal digits and printable characters
are all written this way, so that membership is a plain `Bool` computation that
statements about scanners can evaluate.
-/

namespace Branching.Text

/-- Whether `n` lies in one of the inclusive ranges `rs`. -/
def inRanges (rs : List (Nat × Nat)) (n : Nat) : Bool :=
  rs.any fun r => r.1 ≤ n && n ≤ r.2

theorem inRanges_cons (r : Nat × Nat) (rs : List (Nat × Nat)) (n : Nat) :
    inRanges (r :: rs) n = ((r.1 ≤ n && n ≤ r.2) || inRanges rs n) := by
  simp [inRanges, List.any_cons]

end Branching.Text
