/-!
# Text/Ranges — sets of characters as sorted ranges

A set of code points is an array of inclusive ranges in increasing order, searched by halving.
-/

namespace Verdict

/-- Inclusive ranges of code points, in increasing order and disjoint. -/
abbrev CharRanges := Array (Nat × Nat)

namespace CharRanges

/-- Look for `c` among the ranges with index in `[low, high)`; `steps` bounds the halvings. -/
def search (ranges : CharRanges) (c : Nat) : Nat → Nat → Nat → Bool
  | 0, _, _ => false
  | steps + 1, low, high =>
    if low < high then
      let middle := (low + high) / 2
      match ranges[middle]? with
      | none => false
      | some (first, last) =>
        if c < first then search ranges c steps low middle
        else if last < c then search ranges c steps (middle + 1) high
        else true
    else false

/-- Whether a code point lies in one of the ranges. -/
def contains (ranges : CharRanges) (c : Nat) : Bool :=
  ranges.search c (ranges.size.log2 + 1) 0 ranges.size

end CharRanges

end Verdict
