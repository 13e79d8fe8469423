import StepCatalog.Regex.Reader

/-!
# Stacks

Regular expressions and modules are read by recursion, and what is nested too deep outgrows the stack. The definitions of this
library read on a stack without a limit. An operation on a limited one gives the same, if the stack holds everything that the
operation reads, and ends without a value otherwise; those operations are called `..On`.

How much a stack holds depends on more than the depth of nesting, and is left open: a stack is any that holds what is nested little
enough.
-/

namespace StepCatalog

/-- A stack: the regular expressions and the modules that can be read on it. -/
structure Stack where
  holds : Text → Bool
  holdsModule : Text → Bool
  /-- How deep a regular expression may be nested, and how long a module may be, that can be read in any case. -/
  room : Nat
  moduleRoom : Nat
  holds_of_nesting_le : ∀ s, Regex.nesting s ≤ room → holds s = true
  holdsModule_of_length_le : ∀ s, s.length ≤ moduleRoom → holdsModule s = true

namespace Stack

/-- The stack without a limit. -/
def unbounded : Stack where
  holds _ := true
  holdsModule _ := true
  room := 0
  moduleRoom := 0
  holds_of_nesting_le _ _ := rfl
  holdsModule_of_length_le _ _ := rfl

end Stack
end StepCatalog
