/-!
# Texts

A text is a list of characters (code points), and positions in it are counted in characters. Here are the operations that the
rest of the library shares: what follows a given beginning, replacement, division at a character, and the search for a part.
-/

namespace StepCatalog

/-- A text: its characters in order. -/
abbrev Text : Type := List Char

namespace Text

/-- The text of a string. -/
def of (s : String) : Text := s.toList

/-- What follows `lead` in a text that begins with it. -/
def after? : Text → Text → Option Text
  | [], s => some s
  | _ :: _, [] => none
  | a :: lead, c :: s => if a = c then after? lead s else none

/-- Whether the text begins with `lead`. -/
def startsWith (s lead : Text) : Bool := (after? lead s).isSome

/-- The text without its longest end of characters that satisfy `p`. -/
def dropEndWhile (p : Char → Bool) (s : Text) : Text := (s.reverse.dropWhile p).reverse

/-- The place of the first occurrence of `part`, if there is one. -/
def indexOf? (part : Text) : Text → Option Nat
  | [] => if part.isEmpty then some 0 else none
  | c :: s => if startsWith (c :: s) part then some 0 else (indexOf? part s).map (· + 1)

/-- Whether `part` occurs in the text. -/
def hasPart (s part : Text) : Bool := (indexOf? part s).isSome

/-- Replacement with `skip` characters of the last occurrence still to be passed over. -/
def replaceFrom (old new : Text) : Nat → Text → Text
  | _, [] => []
  | skip + 1, _ :: s => replaceFrom old new skip s
  | 0, c :: s =>
    if startsWith (c :: s) old then new ++ replaceFrom old new (old.length - 1) s else c :: replaceFrom old new 0 s

/-- The text with every occurrence of the non-empty text `old`, taken from the left and without overlap, replaced by `new`. -/
def replace (s old new : Text) : Text := replaceFrom old new 0 s

/-- The text with the first occurrence of `old` replaced by `new`. -/
def replaceFirst (old new : Text) : Text → Text
  | [] => if old.isEmpty then new else []
  | c :: s =>
    match after? old (c :: s) with
    | some rest => new ++ rest
    | none => c :: replaceFirst old new s

/-- The parts with a character put in front of the first one. -/
def consFirst (c : Char) : List Text → List Text
  | [] => [[c]]
  | part :: parts => (c :: part) :: parts

/-- The parts of the text between the occurrences of `sep`; a text without any is its only part. -/
def splitOn (sep : Char) : Text → List Text
  | [] => [[]]
  | c :: s => if c = sep then [] :: splitOn sep s else consFirst c (splitOn sep s)

/-- The parts put end to end with `sep` between them. -/
def join (sep : Text) (parts : List Text) : Text := sep.intercalate parts

/-- The characters in front of the first one that satisfies `p`, and the text from there on. -/
def spanUntil (p : Char → Bool) (s : Text) : Text × Text := s.span (fun c => !p c)

/-- The order of texts by code points, character by character. -/
def le : Text → Text → Bool
  | [], _ => true
  | _ :: _, [] => false
  | a :: s, b :: t => if a = b then le s t else a.toNat < b.toNat

end Text

/-- A natural number written in decimal. -/
def decimal (n : Nat) : Text := Nat.toDigits 10 n

end StepCatalog
