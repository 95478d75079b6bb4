/-
Handoff.Text.Ranges — sets of characters as ascending boundaries.

A set of numbers is given by the numbers at which membership changes, in ascending order: the first
is the least member, the second the least number above it that is none, and so on. A number is in
the set exactly when the number of boundaries up to it is odd, which a search by halves finds.
-/

namespace Handoff.Text

/-- The number of boundaries, among those at positions from `low` on and below `high`, that are at
most `n`, plus `low`. The boundaries ascend, so each probe settles half of them; `fuel` bounds the
number of probes. -/
def countUpTo (boundaries : Array Nat) (n : Nat) : Nat → Nat → Nat → Nat
  | 0, low, _ => low
  | fuel + 1, low, high =>
    if high ≤ low then low
    else
      let middle := (low + high) / 2
      if boundaries.getD middle 0 ≤ n then countUpTo boundaries n fuel (middle + 1) high
      else countUpTo boundaries n fuel low middle

/-- Whether a number is in the set with these boundaries. -/
def inRanges (boundaries : Array Nat) (n : Nat) : Bool :=
  countUpTo boundaries n (boundaries.size + 1) 0 boundaries.size % 2 == 1

end Handoff.Text
