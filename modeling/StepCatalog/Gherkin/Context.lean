import StepCatalog.Gherkin.StepLine

/-!
# The category of a step in its document

A step that goes on with what the steps above it did has their category: the nearest step line above it with a category of its own
decides.
-/

namespace StepCatalog.Gherkin

/-- The first `n` of a list, or, for a negative number, all but the last ones. -/
def leadingSlice {α : Type} (n : Int) (xs : List α) : List α :=
  if n < 0 then xs.take (xs.length - n.natAbs) else xs.take n.toNat

/-- The category of the first step line among lines that has a primary one. -/
def nearestType (ls : List Language) : List Text → StepType
  | [] => .other
  | line :: above =>
    match StepLine.parse? ls line with
    | none => nearestType ls above
    | some s => if (stepTypeOf ls s.keyword).isPrimary then stepTypeOf ls s.keyword else nearestType ls above

/-- The category of a step with a keyword at a line of a document. -/
def resolveType (ls : List Language) (keyword : Text) (lineNumber : Int) (document : List Text) : StepType :=
  match stepTypeOf ls keyword with
  | .conjunction | .contrast => nearestType ls (leadingSlice lineNumber document).reverse
  | t => t

end StepCatalog.Gherkin
