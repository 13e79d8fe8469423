import StepCatalog.Text.Basic

/-!
# Diagnostics

What an editor is told about a stretch of a document: a range of positions, each a line and a character counted from zero, and a
message. Positions can be reported up to a limit only.
-/

namespace StepCatalog.Editor

/-- A stretch of a document. -/
structure Range where
  startLine : Nat
  startCharacter : Nat
  stopLine : Nat
  stopCharacter : Nat
  deriving DecidableEq, Repr

/-- The beginning of a document. -/
def Range.top : Range := ⟨0, 0, 0, 0⟩

/-- The beginning of a line. -/
def Range.lineStart (line : Nat) : Range := ⟨line, 0, line, 0⟩

/-- A stretch within a line. -/
def Range.within (line start stop : Nat) : Range := ⟨line, start, line, stop⟩

/-- The greatest line or character that can be reported. -/
def maxPosition : Nat := 2147483647

/-- A warning about a stretch of a document. -/
structure Diagnostic where
  range : Range
  message : Text
  deriving DecidableEq, Repr

/-- The name under which diagnostics are reported. -/
def Diagnostic.source : String := "gherkin-steps"

/-- The severity of a warning. -/
def Diagnostic.severity : Nat := 2

end StepCatalog.Editor
