/-!
# Tables of code points

A property of characters is given by the ranges of code points that have it, in increasing order.
-/

namespace StepCatalog

/-- Whether a code point lies in one of the ranges, which are given in increasing order. -/
def covers : List (Nat × Nat) → Nat → Bool
  | [], _ => false
  | (first, last) :: rest, n => if n < first then false else n ≤ last || covers rest n

end StepCatalog
