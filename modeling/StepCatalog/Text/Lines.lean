import StepCatalog.Text.Basic

/-!
# Lines

Two divisions of a text into lines. Documents and step files are cut at line feeds, each with the carriage return in front of it
if there is one. Comments are cut at every line boundary of Unicode, and a boundary at the end opens no further line.
-/

namespace StepCatalog

/-- The lines of a document: the parts between line feeds, each without the carriage return that the line feed follows. -/
def splitLines : Text → List Text
  | [] => [[]]
  | '\n' :: s => [] :: splitLines s
  | '\r' :: '\n' :: s => [] :: splitLines s
  | c :: s => Text.consFirst c (splitLines s)

/-- The characters that end a line in prose, the carriage return and line feed apart. -/
def isLineBoundary (c : Char) : Bool :=
  c == '\n' || c == '\r' || c == Char.ofNat 0xB || c == Char.ofNat 0xC || (0x1C ≤ c.toNat && c.toNat ≤ 0x1E) ||
    c.toNat == 0x85 || c.toNat == 0x2028 || c.toNat == 0x2029

/-- The lines of prose: a boundary ends a line, a carriage return and a line feed together are one boundary. -/
def proseLines : Text → List Text
  | [] => []
  | '\r' :: '\n' :: s => [] :: proseLines s
  | c :: s => if isLineBoundary c then [] :: proseLines s else Text.consFirst c (proseLines s)

/-- The text with every carriage return, alone or with its line feed, turned into a line feed. -/
def unifyLineEnds : Text → Text
  | [] => []
  | '\r' :: '\n' :: s => '\n' :: unifyLineEnds s
  | c :: s => (if c = '\r' then '\n' else c) :: unifyLineEnds s

end StepCatalog
