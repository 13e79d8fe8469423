import StepCatalog.Text.Blank

/-!
# Documentation texts without their indentation

A documentation text is written inside a module with the indentation of its surroundings. Cleaning it expands tabs, takes the
leading blanks off the first line and the margin that the other lines share off those, and drops empty lines at both ends.
-/

namespace StepCatalog.Docstring

/-- The width of a tab. -/
def tabWidth : Nat := 8

/-- The text with every tab, from a column on, filled up to the next multiple of the width of a tab. -/
def expandTabsFrom : Nat → Text → Text
  | _, [] => []
  | column, c :: s =>
    if c = '\t' then
      List.replicate (tabWidth - column % tabWidth) ' ' ++ expandTabsFrom (column + (tabWidth - column % tabWidth)) s
    else if c = '\n' || c = '\r' then c :: expandTabsFrom 0 s
    else c :: expandTabsFrom (column + 1) s

/-- The text with tabs expanded. -/
def expandTabs (s : Text) : Text := expandTabsFrom 0 s

/-- The number of blanks in front of a line, unless it is blank. -/
def lineMargin? (line : Text) : Option Nat := if line.isBlankText then none else some (line.takeWhile isBlank).length

/-- The margin that lines share, blank ones apart. -/
def sharedMargin? (lines : List Text) : Option Nat := (lines.filterMap lineMargin?).min?

/-- The lines without the margin that those behind the first one share. -/
def dropMargin : List Text → List Text
  | [] => []
  | first :: lines =>
    match sharedMargin? lines with
    | some n => Text.trimStart first :: lines.map (·.drop n)
    | none => Text.trimStart first :: lines

/-- The lines without the empty ones at both ends. -/
def dropEmptyEnds (lines : List Text) : List Text :=
  ((lines.reverse.dropWhile List.isEmpty).reverse).dropWhile List.isEmpty

/-- A documentation text without its indentation. -/
def clean (s : Text) : Text :=
  Text.join ['\n'] (dropEmptyEnds (dropMargin (Text.splitOn '\n' (expandTabs s))))

end StepCatalog.Docstring
