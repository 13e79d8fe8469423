import StepCatalog.Text.Blank
import StepCatalog.Text.Lines
import StepCatalog.Text.Pieces
import StepCatalog.Text.Word

/-!
# Comments of step files

Comments are blanked out before definitions are looked for (`clearComments`): a block comment leaves its line feeds behind, a line
comment (`//` or `#`) nothing. A line comment begins with the blanks in front of it, empty lines above it included.

A block comment that begins a line documents the definition on the line below it (`blockComments`). Its documentation is the free
text in it or, without any, the text of its description tag (`documentation`).
-/

namespace StepCatalog.Source

open Text (of)

/-- A block comment: the number of its line feeds. -/
def blockComment : Finder Nat
  | _, '/' :: '*' :: s => (Text.indexOf? ['*', '/'] s).map fun n => ((s.take n).count '\n', n + 4)
  | _, _ => none

/-- A line comment with the blanks in front of it, from the beginning of a line on. -/
def lineComment : Finder Unit := fun back s =>
  if back == none || back == some '\n' then
    let rest := s.dropWhile isBlank
    if Text.startsWith rest ['/', '/'] || Text.startsWith rest ['#'] then
      some ((), (s.takeWhile isBlank).length + (rest.takeWhile (· != '\n')).length)
    else none
  else none

/-- The text without its comments, block comments first. -/
def clearComments (s : Text) : Text :=
  substitute lineComment (fun _ => []) (substitute blockComment (fun n => List.replicate n '\n') s)

/-- Whether a line begins a block comment. -/
def opensComment (line : Text) : Bool := (Text.trimStart line).startsWith ['/', '*']

/-- The block comments of lines, the first of which has number `i`, behind the given lines of an open comment. -/
def blockCommentsFrom : Nat → List Text → List Text → List (Nat × Text)
  | _, _, [] => []
  | i, opened, line :: rest =>
    if opened.isEmpty && !opensComment line then blockCommentsFrom (i + 1) [] rest
    else if line.hasPart ['*', '/'] then
      (i + 1, Text.join ['\n'] (opened ++ [line]) ++ ['\n']) :: blockCommentsFrom (i + 1) [] rest
    else blockCommentsFrom (i + 1) (opened ++ [line]) rest

/-- The block comments of a text, each with the number of the line below it. -/
def blockComments (s : Text) : List (Nat × Text) := blockCommentsFrom 0 [] (splitLines s)

/-! ## Documentation -/

/-- A comment without its opening mark. -/
def dropOpening : Text → Text
  | '/' :: '*' :: s => s.dropWhile (· == '*')
  | s => s

/-- A comment without its closing mark. -/
def dropClosing (s : Text) : Text :=
  match s.reverse with
  | '/' :: '*' :: back => (back.dropWhile (· == '*')).reverse
  | _ => s

/-- A text without one blank in front. -/
def dropBlank : Text → Text
  | c :: s => if isBlank c then s else c :: s
  | [] => []

/-- A line of a comment without the star that marks it, the blanks in front of the star and one behind it. -/
def dropMargin (line : Text) : Text :=
  Text.trimEnd <| match Text.trimStart line with
    | '*' :: s => dropBlank s
    | s => s

/-- The free lines of a comment and its tags, each in order. -/
structure Parts where
  free : List Text := []
  tags : List Text := []
  deriving DecidableEq, Repr

/-- The last of a list of texts with more text behind it. -/
def extendLast (more : Text) : List Text → List Text
  | [] => []
  | [t] => [t ++ more]
  | t :: ts => t :: extendLast more ts

/-- The parts with a further line: a tag, more of the last tag, or free text. -/
def Parts.add (p : Parts) (line : Text) : Parts :=
  if line.startsWith ['@'] then { p with tags := p.tags ++ [line] }
  else if p.tags.isEmpty then { p with free := p.free ++ [line] }
  else { p with tags := extendLast (' ' :: Text.trim line) p.tags }

/-- Whether the text goes on with a character of a word. -/
def continuesWord : Text → Bool
  | c :: _ => isWordChar c
  | [] => false

/-- The text of a description tag, if it is one and has a text. -/
def descriptionOf? (tag : Text) : Option Text :=
  [of "@description", of "@desc"].findSome? fun name =>
    (Text.after? name tag).bind fun rest =>
      if continuesWord rest || Text.isBlankText rest then none else some (Text.trim rest)

/-- The documentation of a comment: its free text, or else its description, or else the comment as it stands. -/
def documentation (raw : Text) : Text :=
  let body := dropClosing (dropOpening (Text.trim raw))
  let parts := (proseLines body).foldl (fun p line => p.add (dropMargin line)) ({} : Parts)
  let description := Text.trim (Text.join ['\n'] parts.free)
  if !description.isEmpty then description else (parts.tags.findSome? descriptionOf?).getD raw

end StepCatalog.Source
