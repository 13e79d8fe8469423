import StepCatalog.Text.Basic

/-!
# Texts cut into pieces

A left-to-right search cuts a text into the stretches that a rule recognises and the single characters between them. The rule
sees the character in front (if any) and the text from a position on, and says what it found there and how many characters it
took. Recognised stretches do not overlap: the search goes on behind each.
-/

namespace StepCatalog

/-- A piece of a text: a character that belongs to no find, or a find. -/
inductive Piece (α : Type) where
  | char (c : Char)
  | hit (found : α)
  deriving DecidableEq, Repr

/-- What a rule finds at a position: a value, and the number of characters it takes (at least one). -/
abbrev Finder (α : Type) : Type := Option Char → Text → Option (α × Nat)

/-- The pieces of the rest of a text, of whose last find `skip` characters are still to be passed over. -/
def piecesFrom {α : Type} (find : Finder α) : Option Char → Nat → Text → List (Piece α)
  | _, _, [] => []
  | _, skip + 1, c :: s => piecesFrom find (some c) skip s
  | back, 0, c :: s =>
    match find back (c :: s) with
    | some (found, size) => .hit found :: piecesFrom find (some c) (size - 1) s
    | none => .char c :: piecesFrom find (some c) 0 s

/-- The pieces of a text under a rule. -/
def pieces {α : Type} (find : Finder α) (s : Text) : List (Piece α) := piecesFrom find none 0 s

namespace Piece

/-- The finds among pieces, in order. -/
def hits {α : Type} (ps : List (Piece α)) : List α :=
  ps.filterMap fun
    | .hit a => some a
    | .char _ => none

/-- The text the pieces write when every find is written by `write`. -/
def render {α : Type} (write : α → Text) (ps : List (Piece α)) : Text :=
  ps.flatMap fun
    | .hit a => write a
    | .char c => [c]

end Piece

/-- The text with every find written anew. -/
def substitute {α : Type} (find : Finder α) (write : α → Text) (s : Text) : Text := Piece.render write (pieces find s)

/-- What stands in front of the first character that satisfies `stop`, on the same line, with what follows that character. -/
def untilOnLine (stop : Char) : Text → Option (Text × Text)
  | [] => none
  | c :: s =>
    if c = stop then some ([], s)
    else if c = '\n' then none
    else (untilOnLine stop s).map fun (inner, rest) => (c :: inner, rest)

end StepCatalog
