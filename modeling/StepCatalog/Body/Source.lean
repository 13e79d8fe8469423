import StepCatalog.Body.Parts
import StepCatalog.Body.Rules

/-!
# The regular expression of a step body

The pieces of regular expression that stand for parameters must not be escaped together with the text around them. So each one
found is put aside and a slot, its number between two NUL characters, takes its place (`Parked`); then the text is escaped; then
the slots are filled again (`restore`).

A body is either pure text, in which every character outside parameters stands for itself, or a regular expression already, in
which only bare slashes are escaped. The leading source of a body accepts every leading run of its parts, for use while the line
is being typed.
-/

namespace StepCatalog.Body

open Text (of)

/-- Why no regular expression can be written for a body. -/
inductive SourceError where
  /-- The body itself holds a slot, and nothing was put aside under its number. -/
  | missingFragment
  /-- The body itself holds a slot whose number has too many digits to be read. -/
  | numeralTooLong
  deriving DecidableEq, Repr

/-! ## Escaping -/

/-- The characters that pure text escapes. -/
def isSpecial (c : Char) : Bool := (of "-[]/\x7b\x7d()*+?.\\^$|").contains c

/-- Pure text as a regular expression: every special character with a backslash in front. -/
def escapePure (s : Text) : Text := s.flatMap fun c => if isSpecial c then ['\\', c] else [c]

/-- A slash that no backslash precedes. -/
def bareSlash : Finder Unit
  | back, '/' :: _ => if back == some '\\' then none else some ((), 1)
  | _, _ => none

/-- A regular expression with a backslash in front of every bare slash. -/
def escapeSlashes (s : Text) : Text := substitute bareSlash (fun _ => of "\\/") s

/-- Whether a body is pure text or a regular expression. -/
inductive Kind where
  | pureText | pattern
  deriving DecidableEq, Repr

/-- The escaping that a kind of body needs. -/
def Kind.escape : Kind → Text → Text
  | .pureText => escapePure
  | .pattern => escapeSlashes

/-! ## Slots -/

/-- The character that encloses the number of a slot. -/
def nul : Char := Char.ofNat 0

/-- The slot with a number. -/
def slot (n : Nat) : Text := nul :: decimal n ++ [nul]

/-- A body with slots, and what was put aside, in the order of the slots' numbers. -/
structure Parked where
  text : Text
  fragments : List Text := []
  deriving DecidableEq, Repr

/-- The text of pieces with a slot for every find, numbered from `n` on. -/
def slotted : Nat → List (Piece Text) → Text
  | _, [] => []
  | n, .char c :: ps => c :: slotted n ps
  | n, .hit _ :: ps => slot n ++ slotted (n + 1) ps

/-- One rule applied to the whole body. -/
def Parked.apply (p : Parked) (rule : Rule) : Parked :=
  let ps := pieces rule p.text
  ⟨slotted p.fragments.length ps, p.fragments ++ Piece.hits ps⟩

/-- All rules applied in order. -/
def park (body : Text) : Parked := parameterRules.foldl Parked.apply ⟨body, []⟩

/-- The digits of a slot. -/
def slotDigits : Finder Text := fun _ s =>
  match s with
  | [] => none
  | c :: s =>
    let digits := s.takeWhile isDecimalDigit
    match digits, s.drop digits.length with
    | _ :: _, stop :: _ => if c = nul && stop = nul then some (digits, digits.length + 2) else none
    | _, _ => none

/-- The most digits that the numeral in a slot may have: those any numeral may have, which the numbers in use never exceed. -/
def slotNumeralDigits (fragments : List Text) : Nat := max maxNumeralDigits (decimal fragments.length).length

/-- What was put aside under the number that digits write. -/
def fragmentAt (fragments : List Text) (digits : Text) : Except SourceError Text :=
  if slotNumeralDigits fragments < digits.length then .error .numeralTooLong
  else
    match fragments[numeralValue digits]? with
    | some fragment => .ok fragment
    | none => .error .missingFragment

/-- The text with every slot filled. -/
def restore (fragments : List Text) (s : Text) : Except SourceError Text := do
  let parts ← (pieces slotDigits s).mapM fun
    | .char c => .ok [c]
    | .hit digits => fragmentAt fragments digits
  return parts.flatten

/-! ## Sources -/

/-- The regular expression of a body before anchors. -/
def unanchored (kind : Kind) (body : Text) : Except SourceError Text :=
  restore (park body).fragments (kind.escape (park body).text)

/-- The regular expression of a body. Pure text starts at the beginning of the step text and, if anchored, ends at its end; other
bodies have the anchors they were written with. -/
def source (kind : Kind) (anchored : Bool) (body : Text) : Except SourceError Text := do
  let s ← unanchored kind body
  return match kind with
    | .pureText => '^' :: s ++ (if anchored then ['$'] else [])
    | .pattern => s

/-- The regular expression that accepts the leading runs of the parts. -/
def leadingOf (parts : List Text) : Text :=
  '^' :: Text.join (of "( |$)") (parts.map fun part => '(' :: part ++ of "|$)")

/-- The regular expression that accepts the leading runs of a body's parts, the empty one included. -/
def leadingSource (kind : Kind) (body : Text) : Except SourceError Text := do
  let s ← source kind true body
  return leadingOf (splitParts s)

end StepCatalog.Body
