import StepCatalog.Text.Blank

/-!
# How a definition is shown

A body that is a regular expression is shown without backslashes and without the anchors at its ends; the line of a definition is
shown without the function body that it opens.
-/

namespace StepCatalog.Body

/-- The text without the dollar sign at its end, or in front of its final line feed. -/
def dropFinalDollar : Text → Text
  | [] => []
  | ['$'] => []
  | ['$', '\n'] => ['\n']
  | c :: s => c :: dropFinalDollar s

/-- The text without an anchor at its beginning and one at its end. -/
def dropAnchors : Text → Text
  | '^' :: s => dropFinalDollar s
  | s => dropFinalDollar s

/-- The text shown for a body that is a regular expression. -/
def display (body : Text) : Text := dropAnchors (body.filter (· != '\\'))

/-- The three quotation marks of program text. -/
def isQuote (c : Char) : Bool := c == '\x27' || c == '"' || c == '\x60'

/-- Whether the text opens a function body: after blanks and perhaps an arrow comes a brace, and no quotation mark follows. -/
def opensFunction (s : Text) : Bool :=
  let s := s.trimStart
  let s := match Text.after? ['=', '>'] s with
    | some rest => Text.trimStart rest
    | none => s
  match s with
  | '\x7b' :: rest => !rest.any isQuote
  | _ => false

/-- The text up to where it opens a function body. -/
def dropFunction : Text → Text
  | [] => []
  | c :: s => if opensFunction (c :: s) then [] else c :: dropFunction s

/-- The line of a definition without its function body. -/
def detail (line : Text) : Text := Text.trim (dropFunction line)

end StepCatalog.Body
