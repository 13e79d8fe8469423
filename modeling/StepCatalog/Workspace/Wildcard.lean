import StepCatalog.Text.Basic

/-!
# Wildcards

A wildcard matches whole names: `*` stands for any characters, `?` for one, and brackets for one out of a set, or for one that is
not in it if the set begins with `!`. In brackets a dash between two characters is a range; a range that goes backwards is taken
out together with its ends. A bracket that is not closed stands for itself.
-/

namespace StepCatalog

/-- A part of a wildcard. -/
inductive Wildcard.Part where
  /-- Any characters. -/
  | many
  /-- One character. -/
  | one
  | char (c : Char)
  /-- One character within, or outside, some ranges. -/
  | set (negated : Bool) (ranges : List (Char × Char))
  deriving DecidableEq, Repr

/-- A wildcard. -/
abbrev Wildcard : Type := List Wildcard.Part

namespace Wildcard

/-! ## Sets -/

/-- What stands in brackets, cut at the dashes that make ranges, together with the last piece so far, latest character first. The
number says how many characters are still to come before a dash can make a range. -/
def cutRanges : Nat → Text → Text → List Text
  | _, piece, [] => [piece.reverse]
  | 0, piece, '-' :: s => piece.reverse :: cutRanges 2 [] s
  | n, piece, c :: s => cutRanges (n - 1) (c :: piece) s

/-- The pieces with a dash put back at the end, if the last one is empty. -/
def closePieces : List Text → List Text
  | [piece, []] => [piece ++ ['-']]
  | piece :: pieces => piece :: closePieces pieces
  | [] => []

/-- A piece put in front of pieces: where the range between them goes backwards, both ends are taken out. -/
def joinPiece (piece : Text) : List Text → List Text
  | [] => [piece]
  | next :: pieces =>
    match piece.getLast?, next.head? with
    | some a, some b => if b.toNat < a.toNat then (piece.dropLast ++ next.drop 1) :: pieces else piece :: next :: pieces
    | _, _ => piece :: next :: pieces

/-- A character of a set, or a dash that makes a range. -/
inductive SetToken where
  | char (c : Char)
  | dash
  deriving DecidableEq, Repr

/-- The character of a token that makes no range. -/
def SetToken.literal : SetToken → Char
  | .char c => c
  | .dash => '-'

/-- The tokens of pieces, with a dash between every two. -/
def setTokens (pieces : List Text) : List SetToken :=
  [.dash].intercalate (pieces.map fun p => p.map .char)

/-- The ranges that tokens write. -/
def rangesOf : List SetToken → List (Char × Char)
  | [] => []
  | a :: .dash :: b :: rest => (a.literal, b.literal) :: rangesOf rest
  | a :: rest => (a.literal, a.literal) :: rangesOf rest

/-- The set that brackets around a text write. -/
def setOf (inner : Text) : Part :=
  let free := if Text.startsWith inner ['!'] then 2 else 1
  match setTokens ((closePieces (cutRanges free [] inner)).foldr joinPiece []) with
  | .char '!' :: tokens => .set true (rangesOf tokens)
  | tokens => .set false (rangesOf tokens)

/-- What stands in brackets, behind the opening one, and what follows them. A closing bracket right at the beginning is a
member. -/
def bracketed? (s : Text) : Option (Text × Text) :=
  let lead := if Text.startsWith s ['!'] then 1 else 0
  let lead := if Text.startsWith (s.drop lead) [']'] then lead + 1 else lead
  let inner := s.take lead ++ (s.drop lead).takeWhile (· != ']')
  match (s.drop lead).dropWhile (· != ']') with
  | _ :: rest => some (inner, rest)
  | [] => none

/-! ## Reading and matching -/

/-- The wildcard that a text writes, of whose last brackets `skip` characters are still to be passed over. -/
def ofTextFrom : Nat → Text → Wildcard
  | _, [] => []
  | skip + 1, _ :: s => ofTextFrom skip s
  | 0, '*' :: s => .many :: ofTextFrom 0 s
  | 0, '?' :: s => .one :: ofTextFrom 0 s
  | 0, '[' :: s =>
    match bracketed? s with
    | some (inner, _) => setOf inner :: ofTextFrom (inner.length + 1) s
    | none => .char '[' :: ofTextFrom 0 s
  | 0, c :: s => .char c :: ofTextFrom 0 s

/-- The wildcard that a text writes. -/
def ofText (s : Text) : Wildcard := ofTextFrom 0 s

/-- Whether a text holds anything that stands for more than itself. -/
def isWild (s : Text) : Bool := s.any fun c => c == '*' || c == '?' || c == '['

/-- Whether a part matches one character. -/
def Part.holds : Part → Char → Bool
  | .many, _ => false
  | .one, _ => true
  | .char c, d => c == d
  | .set negated ranges, d => ranges.any (fun (lo, hi) => lo.toNat ≤ d.toNat && d.toNat ≤ hi.toNat) != negated

/-- Whether some end of a text satisfies a condition. -/
def someEnd (p : Text → Bool) : Text → Bool
  | [] => p []
  | c :: s => p (c :: s) || someEnd p s

/-- Whether the wildcard matches a name. -/
def holds : Wildcard → Text → Bool
  | [], s => s.isEmpty
  | .many :: parts, s => someEnd (holds parts) s
  | part :: parts, s =>
    match s with
    | [] => false
    | c :: rest => part.holds c && holds parts rest

end Wildcard
end StepCatalog
