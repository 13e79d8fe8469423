import StepCatalog.Text.Basic

/-!
# The parts of a body

A body is cut into parts at its spaces, except inside parentheses (however nested) and behind a backslash. A closing parenthesis
with nothing to close is an ordinary character.
-/

namespace StepCatalog.Body

/-- The parts of the rest of a text, at a depth of parentheses and perhaps behind a backslash. -/
def splitPartsFrom : Nat → Bool → Text → List Text
  | _, _, [] => [[]]
  | depth, true, c :: s => Text.consFirst c (splitPartsFrom depth false s)
  | depth, false, c :: s =>
    if c = '\\' then Text.consFirst c (splitPartsFrom depth true s)
    else if c = '(' then Text.consFirst c (splitPartsFrom (depth + 1) false s)
    else if c = ')' then Text.consFirst c (splitPartsFrom (depth - 1) false s)
    else if c = ' ' && depth == 0 then [] :: splitPartsFrom 0 false s
    else Text.consFirst c (splitPartsFrom depth false s)

/-- The parts of a text. -/
def splitParts (s : Text) : List Text := splitPartsFrom 0 false s

end StepCatalog.Body
