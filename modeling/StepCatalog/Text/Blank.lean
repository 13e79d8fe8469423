import StepCatalog.Text.Ranges
import StepCatalog.Text.Basic

/-!
# Blanks

The white space of Unicode together with the four information separators. Indentation, the gap after a keyword, the padding of
table cells and the class of blanks in patterns are all made of these characters. Trimming takes them off the ends of a text.
-/

namespace StepCatalog

/-- The code points of blanks. -/
def blankRanges : List (Nat × Nat) := [
  (0x9, 0xD), (0x1C, 0x20), (0x85, 0x85), (0xA0, 0xA0), (0x1680, 0x1680), (0x2000, 0x200A), (0x2028, 0x2029),
  (0x202F, 0x202F), (0x205F, 0x205F), (0x3000, 0x3000)]

/-- A blank character. -/
def isBlank (c : Char) : Bool := covers blankRanges c.toNat

/-- A blank among the first 128 code points, the separators apart. -/
def isAsciiBlank (c : Char) : Bool := c == ' ' || (9 ≤ c.toNat && c.toNat ≤ 13)

namespace Text

/-- The text without its leading blanks. -/
def trimStart (s : Text) : Text := s.dropWhile isBlank

/-- The text without its trailing blanks. -/
def trimEnd (s : Text) : Text := dropEndWhile isBlank s

/-- The text without the blanks at both ends. -/
def trim (s : Text) : Text := trimEnd (trimStart s)

/-- A text of blanks only. -/
def isBlankText (s : Text) : Bool := s.all isBlank

end Text
end StepCatalog
