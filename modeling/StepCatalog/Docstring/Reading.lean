import StepCatalog.Docstring.Token

/-!
# Reading tokens

A reading takes tokens from the front of a list and either gives a value with the tokens it left, or fails. A failure says why the
module cannot be read and how many tokens were left, so that of two ways that both fail the one that came further can be told.
-/

namespace StepCatalog.Docstring

open Text (of)

/-- Why a module cannot be read. -/
inductive Error where
  | malformed
  /-- A line stands too far in or too far out, or a block is missing. -/
  | indentation
  | mixedTabs
  /-- The text holds the character zero. -/
  | zeroCharacter
  deriving DecidableEq, Repr

/-- What a fault in the text makes of the module. -/
def Fault.error : Fault → Error
  | .malformed | .unfinished => .malformed
  | .unindent | .tooDeep => .indentation
  | .mixedTabs => .mixedTabs

/-- A failure: why, and how many tokens were left. -/
structure Failure where
  error : Error
  left : Nat
  deriving DecidableEq, Repr

/-- The words that are no names. -/
def keywords : List Text :=
  ["False", "None", "True", "and", "as", "assert", "async", "await", "break", "class", "continue", "def", "del", "elif", "else",
    "except", "finally", "for", "from", "global", "if", "import", "in", "is", "lambda", "nonlocal", "not", "or", "pass", "raise",
    "return", "try", "while", "with", "yield"].map of

/-- Whether a token is a name. -/
def Kind.isName : Kind → Bool
  | .word name => !keywords.contains name
  | _ => false

/-- A reading of tokens. -/
abbrev Reading : Type → Type := StateT (List Token) (Except Failure)

namespace Reading

/-- The error of a module in which no reading goes on from the given tokens. -/
def errorAt : List Token → Error
  | ⟨.fault f, _⟩ :: _ => f.error
  | ⟨.indent, _⟩ :: _ | ⟨.dedent, _⟩ :: _ => .indentation
  | _ => .malformed

/-- The reading that fails because of the next token. -/
def unexpected {α : Type} : Reading α := fun ts => .error ⟨errorAt ts, ts.length⟩

/-- The reading that fails because a block is missing; a fault further down in the text counts more. -/
def missingBlock {α : Type} : Reading α := fun ts =>
  let error := match ts with
    | ⟨.fault f, _⟩ :: _ => f.error
    | ts => if ts.any (fun t => t.kind = .fault .malformed) then .malformed else .indentation
  .error ⟨error, ts.length⟩

/-- The reading that fails because a clause is missing, whatever the indentation of the next token. -/
def missingClause {α : Type} : Reading α := fun ts =>
  let error := match ts with
    | ⟨.fault f, _⟩ :: _ => f.error
    | _ => .malformed
  .error ⟨error, ts.length⟩

/-- The kind of the next token, which is left where it is. -/
def peek : Reading Kind := fun ts => .ok ((ts.head?.map (·.kind)).getD .stop, ts)

/-- The kind of the token behind the next one. -/
def peekSecond : Reading Kind := fun ts => .ok (((ts.drop 1).head?.map (·.kind)).getD .stop, ts)

/-- The line of the next token. -/
def currentLine : Reading Nat := fun ts => .ok ((ts.head?.map (·.line)).getD 0, ts)

/-- The number of tokens left. -/
def left : Reading Nat := fun ts => .ok (ts.length, ts)

/-- Passes over the next token. -/
def skip : Reading Unit := fun ts => .ok ((), ts.drop 1)

/-- Takes the next token if it is of a kind, and says whether it did. -/
def accept (kind : Kind) : Reading Bool := do
  if (← peek) = kind then
    skip
    return true
  else return false

/-- Takes the next token, which must be of a kind. -/
def expect (kind : Kind) : Reading Unit := do
  unless ← accept kind do unexpected

/-- The mark with a sign. -/
def mark (sign : String) : Kind := .mark (of sign)

/-- The word with a name. -/
def word (name : String) : Kind := .word (of name)

/-- Takes the next token, which must be a name. -/
def expectName : Reading Unit := do
  if (← peek).isName then skip else unexpected

/-- The first reading, or the second one from the same place if the first fails. Of two failures the further one counts. -/
def orElse {α : Type} (p q : Reading α) : Reading α := fun ts =>
  match p ts with
  | .ok r => .ok r
  | .error e =>
    match q ts with
    | .ok r => .ok r
    | .error f => .error (if e.left < f.left then e else f)

/-- The value of a reading, or none from the same place if it fails. -/
def optional {α : Type} (p : Reading α) : Reading (Option α) := fun ts =>
  match p ts with
  | .ok (a, rest) => .ok (some a, rest)
  | .error _ => .ok (none, ts)

/-- Up to a number of rounds of a reading, as long as it gives values. -/
def upTo {α : Type} (p : Reading (Option α)) : Nat → Reading (List α)
  | 0 => return []
  | n + 1 => do
    match ← p with
    | none => return []
    | some a => return a :: (← upTo p n)

/-- Rounds of a reading that takes a token in every round, as long as it gives values. -/
def rounds {α : Type} (p : Reading (Option α)) : Reading (List α) := do upTo p ((← left) + 1)

/-- The values of one or more readings with commas between them; a comma counts only if `more` follows it. -/
def separated {α : Type} (more : Kind → Bool) (p : Reading α) : Reading (List α) := do
  let first ← p
  let rest ← rounds do
    if (← peek) = mark "," && more (← peekSecond) then
      skip
      return some (← p)
    else return none
  return first :: rest

/-- The values of one or more readings with commas between them and perhaps one at the end, and whether there was a comma. -/
def commaList {α : Type} (more : Kind → Bool) (p : Reading α) : Reading (List α × Bool) := do
  let items ← separated more p
  let trailing ← accept (mark ",")
  return (items, trailing || 1 < items.length)

end Reading
end StepCatalog.Docstring
