import StepCatalog.Catalog.Outcome
import StepCatalog.Editor.Diagnostic
import StepCatalog.Json.Reader
import StepCatalog.Settings

/-!
# The settings file

Settings are loaded from a file that holds a JSON object (`loadSettings`). A glob for step files that finds none is reported at the
place in the file where it is written (`unmatchedGlobs`).
-/

namespace StepCatalog

open Text (of)

/-- Why settings cannot be loaded. -/
inductive Settings.LoadError where
  | unreadable (why : Workspace.Unreadable)
  /-- The path of the file holds the character zero. -/
  | zeroInPath
  | notJson (e : Json.Error)
  /-- The file holds something else than an object; the path is the one that was given. -/
  | notObject (file : Text)
  | refused (e : Settings.Error)
  deriving DecidableEq, Repr

/-- The wording of an error, if it has one. -/
def Settings.LoadError.message? : Settings.LoadError → Option Text
  | .notObject file => some (file ++ of ": settings must be a JSON object")
  | .refused e => e.message?
  | _ => none

namespace Catalog

/-- The settings in a file that is named as `shown`. -/
def loadSettings (w : Workspace) (file : Path) (shown : Text) : Except Settings.LoadError Settings :=
  if file.holdsZero then .error .zeroInPath
  else
    match w.read file with
    | .error why => .error (.unreadable why)
    | .ok content =>
      match Json.ofText? content with
      | .error e => .error (.notJson e)
      | .ok (.object fields) =>
        match Settings.ofFields? fields with
        | .ok s => .ok s
        | .error e => .error (.refused e)
      | .ok _ => .error (.notObject shown)

/-- The place of a text in lines, the first of which has a number. -/
def placeIn (text : Text) : Nat → List Text → Option Editor.Range
  | _, [] => none
  | i, line :: rest =>
    match Text.indexOf? text line with
    | some start => some (.within i start (start + text.length))
    | none => placeIn text (i + 1) rest

/-- The place of a text in a file: the beginning of the file, if the text is not in it or the file cannot be read. -/
def placeInFile (w : Workspace) (file : Path) (text : Text) : Outcome Editor.Range := do
  if w.isFile file then
    match ← contentOf w file with
    | some (c :: content) => return (placeIn text 0 (splitLines (c :: content))).getD .top
    | _ => return .top
  else return .top

/-- A glob as a settings file writes it, between quotation marks: without the root, if it begins with it. -/
def writtenGlob (root : Path) (pattern : Text) : Text :=
  '"' :: (Text.after? (root.toText ++ ['/']) pattern).getD pattern ++ ['"']

/-- What is wrong with a glob that finds no file. -/
def noFilesMessage : Text := of "No steps files found"

/-- A diagnostic for every glob that finds no file, at its place in the settings file. -/
def unmatchedGlobs (w : Workspace) (file root : Path) (globs : List Text) : Outcome (List Editor.Diagnostic) :=
  Outcome.flatMap
    (fun pattern => do
      let files ← findFiles w root pattern
      if files.isEmpty then return [⟨← placeInFile w file (writtenGlob root pattern), noFilesMessage⟩] else return [])
    globs

end Catalog
end StepCatalog
