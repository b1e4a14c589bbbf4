/-!
# Ranges of code points

A property of characters is a list of closed ranges of code points, ascending and apart. Looking a
character up means finding a range that holds it.
-/

namespace ApiBindings.Text

/-- Whether `n` lies in one of the closed ranges. -/
def inRanges (ranges : List (Nat × Nat)) (n : Nat) : Bool :=
  ranges.any fun r => r.1 ≤ n && n ≤ r.2

@[simp] theorem inRanges_nil (n : Nat) : inRanges [] n = false := rfl

@[simp] theorem inRanges_cons (r : Nat × Nat) (ranges : List (Nat × Nat)) (n : Nat) :
    inRanges (r :: ranges) n = ((r.1 ≤ n && n ≤ r.2) || inRanges ranges n) := rfl

end ApiBindings.Text
