import StepCatalog.Text.Digit
import StepCatalog.Text.Pieces

/-!
# The parameters of a step body

A step body may hold parameters, optional text and alternatives. Each is recognised by a rule, which says which piece of a
regular expression stands for it. The rules are applied one after the other, each to the whole body (`parameterRules`):

- `#{..}`, an interpolation, and `{}` stand for anything on the line;
- `{float}`, `{int}`, `{word}`, `{string}` and `{stringInDoubleQuotes}` stand for what their names say;
- `(s)` stands for the lower-case letters between the parentheses, or for nothing;
- `a/b/c` stands for one of the words;
- any other `{name}` stands for anything on the line, unless a backslash precedes it or a digit or comma follows the brace.
-/

namespace StepCatalog.Body

open Text (of)

/-- A rule for a kind of parameter: what it finds is the regular expression that stands for the parameter. -/
abbrev Rule : Type := Finder Text

/-- Anything on the line. -/
def anything : Text := of ".*"

/-- The name between braces. -/
def braced (name : Text) : Text := '\x7b' :: name ++ ['\x7d']

/-- `#{..}`, up to the next closing brace of the line. -/
def interpolation : Rule
  | _, '#' :: '\x7b' :: s => (untilOnLine '\x7d' s).map fun (inner, _) => (anything, inner.length + 3)
  | _, _ => none

/-- A parameter with a fixed name. -/
def fixedParameter (name fragment : Text) : Rule := fun _ s =>
  if s.startsWith (braced name) then some (fragment, name.length + 2) else none

/-- The lower-case letters of the alphabet. -/
def isLowerLetter (c : Char) : Bool := 'a' ≤ c && c ≤ 'z'

/-- The letters of the alphabet. -/
def isLetter (c : Char) : Bool := isLowerLetter c || ('A' ≤ c && c ≤ 'Z')

/-- Lower-case letters in parentheses: the letters may be left out. -/
def optionalText : Rule
  | _, '(' :: s =>
    let letters := s.takeWhile isLowerLetter
    match letters, s.drop letters.length with
    | _ :: _, ')' :: _ => some ('(' :: letters ++ of ")?", letters.length + 2)
    | _, _ => none
  | _, _ => none

/-- Words of letters with slashes between them, at least two: any one of them. -/
def alternativeText : Rule := fun _ s =>
  let words := (Text.splitOn '/' (s.takeWhile fun c => isLetter c || c == '/')).takeWhile (!·.isEmpty)
  if 2 ≤ words.length then some ('(' :: Text.join ['|'] words ++ [')'], (Text.join ['/'] words).length) else none

/-- Whether a quantifier, and no name, may begin with the text. -/
def beginsCount : Text → Bool
  | c :: _ => isDecimalDigit c || c == ','
  | [] => false

/-- Any name in braces on one line, if no backslash precedes it. -/
def customParameter : Rule
  | back, '\x7b' :: s =>
    if back == some '\\' || beginsCount s then none
    else (untilOnLine '\x7d' s).map fun (inner, _) => (anything, inner.length + 2)
  | _, _ => none

/-- The rules in the order in which they are applied. -/
def parameterRules : List Rule := [
  interpolation,
  fixedParameter (of "float") (of "-?\\d*\\.?\\d+"),
  fixedParameter (of "int") (of "-?\\d+"),
  fixedParameter (of "stringInDoubleQuotes") (of "\"[^\"]+\""),
  fixedParameter (of "word") (of "[^\\s]+"),
  fixedParameter (of "string") (of "(?:\"[^\"]*\"|'[^']*')"),
  fixedParameter [] anything,
  optionalText,
  alternativeText,
  customParameter]

end StepCatalog.Body
