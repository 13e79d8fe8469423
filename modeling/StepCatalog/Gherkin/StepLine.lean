import StepCatalog.Gherkin.Keyword

/-!
# Step lines

A step line consists of indentation, a keyword, a gap of blanks, and the step's text. Where several keywords begin the line the
longest one that a blank follows is taken.
-/

namespace StepCatalog.Gherkin

/-- A step line, cut into its parts. -/
structure StepLine where
  indent : Text
  keyword : Text
  gap : Text
  text : Text
  deriving DecidableEq, Repr

/-- The text up to the first line feed. -/
def untilNewline (s : Text) : Text := s.takeWhile (· != '\n')

/-- The step line with an indentation and a keyword, if a gap follows the keyword. -/
def StepLine.ofRest? (indent keyword rest : Text) : Option StepLine :=
  match rest.takeWhile isBlank with
  | [] => none
  | gap => some ⟨indent, keyword, gap, untilNewline (rest.dropWhile isBlank)⟩

/-- The parts of a line that begins with one of the keywords. Where there are no keywords at all, every indented line is a step
line: its last leading blank is the gap. -/
def StepLine.withKeywords? (keywords : List Text) (line : Text) : Option StepLine :=
  let indent := line.takeWhile isBlank
  let rest := line.dropWhile isBlank
  match keywords, indent.getLast? with
  | [], none => none
  | [], some last => some ⟨indent.dropLast, [], [last], untilNewline rest⟩
  | keywords, _ => keywords.findSome? fun k => (Text.after? k rest).bind (StepLine.ofRest? indent k)

/-- The parts of a step line, if the line is one. -/
def StepLine.parse? (ls : List Language) (line : Text) : Option StepLine := StepLine.withKeywords? (stepKeywords ls) line

end StepCatalog.Gherkin
