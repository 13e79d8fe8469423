import StepCatalog.Catalog.Configuration
import StepCatalog.Catalog.Usage
import StepCatalog.CommandLine.Options
import StepCatalog.Editor.Query

/-!
# Running a command line

A run loads the settings, reports globs that find nothing, builds the registry of the root directory and counts the uses of its
steps. Then it answers one question: the index of all steps, the definition of a line, the completions of a line, or the lines
whose step is unknown; without a question it gives help.
-/

namespace StepCatalog.CommandLine

open Catalog
open Text (of)

/-- Why a run ends without an answer. -/
inductive Failure where
  | settings (e : Settings.LoadError)
  /-- The patterns of the settings give no rule for definitions. -/
  | rule (e : Regex.Error)
  | catalog (f : Catalog.Fault)
  deriving DecidableEq, Repr

/-- What a run gives: the events that are logged, and an answer, a text or a failure. -/
inductive Answer where
  | json (value : Json)
  | text (s : Text)

/-- A run: what is logged, and how it ends. -/
structure Result where
  events : List Event
  answer : Except Failure Answer

/-! ## Answers -/

/-- An object with named fields. -/
def fields (fs : List (String × Json)) : Json := .object (fs.map fun (name, value) => (of name, value))

/-- A whole number. -/
def number (n : Nat) : Json := .int n

/-- A position. -/
def position (line character : Nat) : Json := fields [("line", number line), ("character", number character)]

/-- A range of positions. -/
def range (r : Editor.Range) : Json :=
  fields [("start", position r.startLine r.startCharacter), ("end", position r.stopLine r.stopCharacter)]

/-- A place in a file. -/
def location (l : Editor.Location) : Json := fields [("uri", .string l.uri), ("range", range l.range)]

/-- A completion. -/
def completion (c : Editor.Completion) : Json :=
  fields [("label", .string c.label), ("kind", number Editor.Completion.kind), ("detail", .string c.detail),
    ("documentation", .string c.documentation), ("sortText", .string c.sortText), ("insertText", .string c.insertText),
    ("insertTextFormat", number Editor.Completion.insertFormat), ("data", .string c.data)]

/-- A step of the index. -/
def indexed (s : Step) : Json :=
  fields [("id", .string s.id), ("text", .string s.text), ("file", .string s.file.toText), ("line", number (s.line + 1)),
    ("keyword", .string (of s.stepType.name)), ("count", number s.count)]

/-- A line of a feature file whose step is unknown. -/
def unknownLine (file : Path) (number' : Nat) (line : Text) (d : Editor.Diagnostic) : Json :=
  fields [("feature_file", .string file.toText), ("line", number (number' + 1)), ("text", .string (Text.trim line)),
    ("message", .string d.message)]

/-- The lines of a feature file whose steps are unknown. -/
def unknownLines (r : Registry) (w : Workspace) (file : Path) : Outcome (List Json) := do
  match ← contentOf w file with
  | none => return []
  | some text =>
    let checked ← Outcome.ofExcept id (Editor.validateLines r (splitLines text))
    return checked.filterMap fun (i, line, d) => d.map (unknownLine file i line)

/-- The lines of all feature files whose steps are unknown; all feature files are looked at, if none are counted. -/
def unknownSteps (r : Registry) (w : Workspace) (root : Path) : Outcome (List Json) := do
  let files ← findFiles w root (r.settings.featuresGlob?.getD (of "**/*.feature"))
  Outcome.flatMap (unknownLines r w) files

/-- A text that is given and not empty. -/
def asked? : Option Text → Option Text
  | some [] => none
  | t => t

/-- The answer to the question that options ask. -/
def answer (o : Options) (r : Registry) (w : Workspace) (root : Path) : Outcome Answer :=
  if o.index then return .json (.array (r.steps.map indexed))
  else
    match asked? o.line, asked? o.complete with
    | some line, _ =>
      return .json (((Editor.findDefinition r line [line] 0).map location).getD .null)
    | none, some line => do
      let items ← Outcome.ofExcept id (Editor.complete r line 0 [line])
      return .json (.array ((items.getD []).map completion))
    | none, none =>
      if o.undefined then do return .json (.array (← unknownSteps r w root))
      else return .text helpText

/-! ## Runs -/

/-- The path of the settings file below the root, if none is given. -/
def defaultSettings : Path := [of ".vscode", of "settings.json"]

/-- A path as it is shown when it was given as a text: without needless parts. -/
def shownPath (s : Text) : Text :=
  if Path.isAbsolute s then Path.toText (Path.names s)
  else
    match Path.names s with
    | [] => of "."
    | names => Text.join ['/'] names

/-- A settings file: where it is loaded from, where its globs are looked for, and how it is shown. -/
structure SettingsFile where
  loaded : Path
  searched : Path
  shown : Text
  deriving DecidableEq, Repr

/-- The settings file of a run, if there is one. A relative path is loaded as seen from the working directory, and its globs are
looked for as seen from the root. -/
def settingsFile? (o : Options) (w : Workspace) (cwd root : Path) : Option SettingsFile :=
  match o.settings with
  | some s => some ⟨cwd.below s, root.below s, shownPath s⟩
  | none =>
    let file := root ++ defaultSettings
    if w.isFile file then some ⟨file, file, file.toText⟩ else none

/-- The events of globs that find nothing. -/
def misconfigured (f : SettingsFile) (ds : List Editor.Diagnostic) : List Event :=
  ds.map fun d => .misconfigured f.shown (d.range.startLine + 1) d.message

/-- The check of a settings file: its globs that find nothing are reported. -/
def checkSettings (f : Option SettingsFile) (s : Settings) (w : Workspace) (root : Path) : Outcome Unit :=
  match f with
  | none => return ()
  | some f => do
    let ds ← unmatchedGlobs w f.searched root s.steps
    ⟨misconfigured f ds, .ok ()⟩

/-- The registry of a directory, with uses counted. -/
def catalogOf (r : Registry) (w : Workspace) (root : Path) : Outcome Registry := do
  let r ← r.build w root r.settings.steps
  let (r, counted) := r.recount w root r.settings.featuresGlob?
  counted.andThen fun () => return r

/-- The outcome of a run with settings, from the check of the settings on. -/
def runWith (o : Options) (f : Option SettingsFile) (s : Settings) (w : Workspace) (root : Path) : Result :=
  let checked := checkSettings f s w root
  match checked.result with
  | .error e => ⟨checked.events, .error (.catalog e)⟩
  | .ok () =>
    match Registry.ofSettings? s with
    | .error e => ⟨checked.events, .error (.rule e)⟩
    | .ok r =>
      let outcome := (catalogOf r w root).andThen fun r => answer o r w root
      ⟨checked.events ++ outcome.events, outcome.result.mapError .catalog⟩

/-- The settings of a run. -/
def settingsOf (f : Option SettingsFile) (w : Workspace) : Except Settings.LoadError Settings :=
  match f with
  | none => .ok {}
  | some f => loadSettings w f.loaded f.shown

/-- A run with options in a working directory, at a root that a file system takes. -/
def runAt (o : Options) (w : Workspace) (cwd root : Path) : Result :=
  let f := settingsFile? o w cwd root
  match settingsOf f w with
  | .error e => ⟨[], .error (.settings e)⟩
  | .ok s => runWith o f s w root

/-- A run with options in a working directory. Only warnings are logged, unless more is asked for. -/
def run (o : Options) (w : Workspace) (cwd : Path) : Result :=
  let root := cwd.below (o.root.getD [])
  if root.holdsZero then ⟨[], .error (.catalog .zeroInPath)⟩
  else
    let result := runAt o w cwd root.resolve
    { result with events := result.events.filter fun e => o.verbose || e.isWarning }

end StepCatalog.CommandLine
