import StepCatalog.Entries
import StepCatalog.Gherkin.StepLine
import StepCatalog.Text.Pieces

/-!
# Scenario outlines

The steps of an outline hold placeholders `<name>`, and a table of examples behind them gives the names their values. A step line
is read with the values of the first row filled in. Whether the author meant a value to be quoted cannot be told from the line, so
both are tried: the quoted line counts if a definition is known for it.
-/

namespace StepCatalog.Gherkin

/-- Whether a text stays on one line, up to a final line feed. -/
def staysOnLine (s : Text) : Bool :=
  match s.dropWhile (· != '\n') with
  | [] | [_] => true
  | _ => false

/-- Whether a line heads a table of examples: a title and a colon. -/
def isExamplesHeader (ls : List Language) (line : Text) : Bool :=
  let titles := match exampleTitles ls with
    | [] => [[]]
    | titles => titles
  titles.any fun title => ((Text.after? (title ++ [':']) (Text.trimStart line)).map staysOnLine).getD false

/-- The cells of a table row: what stands between bars, without the blanks around it. -/
def rowCells (row : Text) : List Text := (((Text.splitOn '|' row).drop 1).dropLast).map Text.trim

/-- Values by name. -/
abbrev Bindings : Type := List (Text × Text)

/-- The bindings of names to the values under them; an empty value binds nothing, and of a repeated name the last value counts. -/
def bindRow (names values : List Text) : Bindings :=
  (names.zip values).foldl (fun b (name, value) => if value.isEmpty then b else Entries.put name value b) []

/-- The bindings of the first table of examples among lines. -/
def bindingsIn (ls : List Language) : List Text → Bindings
  | header :: names :: values :: rest =>
    if isExamplesHeader ls header then bindRow (rowCells names) (rowCells values)
    else bindingsIn ls (names :: values :: rest)
  | _ => []

/-- The bindings for the outline at a line: those of the first table of examples from there on. -/
def outlineBindings (ls : List Language) (document : List Text) (lineNumber : Int) : Bindings :=
  bindingsIn ls (document.drop lineNumber.toNat)

/-- A placeholder, up to the next closing bracket of the line. -/
def placeholder : Finder Text
  | _, '<' :: s => (untilOnLine '>' s).map fun (name, _) => (name, name.length + 2)
  | _, _ => none

/-- The names of the placeholders of a line, in order. -/
def placeholderNames (line : Text) : List Text := Piece.hits (pieces placeholder line)

/-- The line with the first placeholder of every bound name, once for each time it is named, replaced as `write` says. -/
def fillPlaceholders (b : Bindings) (write : Text → Text) (names : List Text) (line : Text) : Text :=
  names.foldl
    (fun line name =>
      match Entries.get? name b with
      | some value => if value.isEmpty then line else Text.replaceFirst ('<' :: name ++ ['>']) (write value) line
      | none => line)
    line

/-- A value in double quotation marks. -/
def quoted (value : Text) : Text := '"' :: value ++ ['"']

/-- A line of a document as a step line, placeholders filled in: with quoted values if that is a step line with a text that is
`known`, and with bare values otherwise. -/
def stepLineIn? (ls : List Language) (known : Text → Bool) (line : Text) (document : List Text) (lineNumber : Int) :
    Option StepLine :=
  match placeholderNames line with
  | [] => StepLine.parse? ls line
  | names =>
    let b := outlineBindings ls document lineNumber
    match StepLine.parse? ls (fillPlaceholders b quoted names line) with
    | some s =>
      if !s.text.isEmpty && known s.text then some s else StepLine.parse? ls (fillPlaceholders b id names line)
    | none => StepLine.parse? ls (fillPlaceholders b id names line)

end StepCatalog.Gherkin
