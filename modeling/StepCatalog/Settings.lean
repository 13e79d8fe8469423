import StepCatalog.Gherkin.Languages
import StepCatalog.Json.Reader

/-!
# Settings

Settings come as the fields of a JSON object, each under its own name or with `gherkinSteps.` in front; of two writings of one
setting the later counts, and other fields are left alone. Values are first converted in the order of the fields, then checked in
the order of the settings. The five switches are not checked: they are kept as they were given and are on when they are set
(`Json.isSet`).
-/

namespace StepCatalog

open Text (of)

/-- A text that is replaced, wherever it stands in a step file, before anything else. -/
structure CustomParameter where
  parameter : Text
  value : Text
  deriving DecidableEq, Repr

/-- Which feature files are counted: all of them or none, or those that match a glob. -/
inductive Sync where
  | all (on : Bool)
  | glob (pattern : Text)
  deriving DecidableEq, Repr

/-- The settings of a catalog. -/
structure Settings where
  /-- The globs of the step files. -/
  steps : List Text := [of "features/steps/**/*.py"]
  sync : Sync := .all true
  /-- Whether completion and validation keep to the category of the step. -/
  strictCompletion : Json := .bool false
  strictValidation : Json := .bool false
  /-- Whether completion turns parameters into tab stops. -/
  smartSnippets : Json := .bool false
  /-- Whether every alternative of a group is a step of its own. -/
  expandAlternatives : Json := .bool false
  /-- Whether bodies are pure text. -/
  pureText : Json := .bool false
  customParameters : List CustomParameter := []
  /-- Patterns that take the place of the keyword and of the opening mark of a definition. -/
  definitionKeyword : Option Text := none
  openingSymbol : Option Text := none
  languages : List Gherkin.Language := Gherkin.languages.filter (·.code == "en")

namespace Settings

/-- Why settings are refused. -/
inductive Error where
  /-- A list was expected, and the value has no elements. -/
  | noElements
  /-- A list or object stands where the code of a language was expected. -/
  | codeNotScalar
  /-- A custom parameter is no object. -/
  | parameterNoObject
  | parameterNotText
  | parameterEmpty
  | emptyGlob
  | syncNeither
  | syncEmpty
  | keywordNotText
  | symbolNotText
  | unknownLanguage (shown : Text)
  deriving DecidableEq, Repr

/-- The wording of an error, if it has one. -/
def Error.message? : Error → Option Text
  | .noElements | .codeNotScalar | .parameterNoObject => none
  | .parameterNotText => some (of "custom parameters must map a string to a string")
  | .parameterEmpty => some (of "custom parameter must not be empty")
  | .emptyGlob => some (of "steps must not contain empty globs")
  | .syncNeither => some (of "syncfeatures must be a boolean or a glob")
  | .syncEmpty => some (of "syncfeatures glob must not be empty")
  | .keywordNotText => some (of "gherkin_definition_part must be a string")
  | .symbolNotText => some (of "step_regex_symbol must be a string")
  | .unknownLanguage shown => some (of "unknown gherkin language: " ++ shown)

/-- The glob of the feature files that are counted, if any are. -/
def featuresGlob? (s : Settings) : Option Text :=
  match s.sync with
  | .all true => some (of "**/*.feature")
  | .all false => none
  | .glob pattern => some pattern

/-! ## Conversion -/

/-- The elements of a value: the items of an array, the keys of an object, the characters of a string. -/
def elements? : Json → Option (List Json)
  | .array items => some items
  | .object fields => some (fields.map fun (k, _) => .string k)
  | .string s => some (s.map fun c => .string [c])
  | _ => none

/-- A custom parameter. -/
def readParameter : Json → Except Error CustomParameter
  | .object fields =>
    match Entries.get? (of "parameter") fields, Entries.get? (of "value") fields with
    | some (.string parameter), some (.string value) =>
      if parameter.isEmpty then .error .parameterEmpty else .ok ⟨parameter, value⟩
    | _, _ => .error .parameterNotText
  | _ => .error .parameterNoObject

/-- The custom parameters of a value. -/
def readParameters (value : Json) : Except Error (List CustomParameter) :=
  match elements? value with
  | none => .error .noElements
  | some items => items.mapM readParameter

/-- The settings that fields give, before they are checked. -/
structure Given where
  steps : Option Json := none
  sync : Option Json := none
  strictCompletion : Option Json := none
  strictValidation : Option Json := none
  smartSnippets : Option Json := none
  expandAlternatives : Option Json := none
  pureText : Option Json := none
  customParameters : Option (List CustomParameter) := none
  definitionKeyword : Option Json := none
  openingSymbol : Option Json := none
  languages : Option Json := none

/-- The text in front of the name of a setting, which may be left out. -/
def keyLead : Text := of "gherkinSteps."

/-- The name of a setting as its field is called. -/
def settingName (key : Text) : Text := (Text.after? keyLead key).getD key

/-- What is given, with a further field. -/
def Given.add (g : Given) (field : Text × Json) : Except Error Given :=
  let (key, value) := field
  let name := settingName key
  if name = of "steps" then .ok { g with steps := some value }
  else if name = of "syncfeatures" then .ok { g with sync := some value }
  else if name = of "strictGherkinCompletion" then .ok { g with strictCompletion := some value }
  else if name = of "strictGherkinValidation" then .ok { g with strictValidation := some value }
  else if name = of "smartSnippets" then .ok { g with smartSnippets := some value }
  else if name = of "stepsInvariants" then .ok { g with expandAlternatives := some value }
  else if name = of "pureTextSteps" then .ok { g with pureText := some value }
  else if name = of "customParameters" then
    (readParameters value).map fun ps => { g with customParameters := some ps }
  else if name = of "gherkinDefinitionPart" then .ok { g with definitionKeyword := some value }
  else if name = of "stepRegExSymbol" then .ok { g with openingSymbol := some value }
  else if name = of "gherkinLanguages" then .ok { g with languages := some value }
  else .ok g

/-! ## Checks -/

/-- A glob of step files. -/
def readGlob : Json → Except Error Text
  | .string s => if s.isBlankText then .error .emptyGlob else .ok s
  | _ => .error .emptyGlob

/-- The elements of a value, of which a string counts as one. -/
def listed (value : Json) : Except Error (List Json) :=
  match value with
  | .string s => .ok [.string s]
  | value =>
    match elements? value with
    | some items => .ok items
    | none => .error .noElements

/-- The globs of step files. -/
def readSteps (value : Json) : Except Error (List Text) := listed value >>= fun items => items.mapM readGlob

/-- Which feature files are counted. -/
def readSync : Json → Except Error Sync
  | .bool b => .ok (.all b)
  | .string s => if s.isBlankText then .error .syncEmpty else .ok (.glob s)
  | _ => .error .syncNeither

/-- A text that may be left out. -/
def readOverride (e : Error) : Json → Except Error (Option Text)
  | .null => .ok none
  | .string s => .ok (some s)
  | _ => .error e

/-- How a number with a fraction or an exponent, or one beyond all numbers, is shown in a message. -/
def showDecimal (written : Text) : Text :=
  if written = of "NaN" then of "nan"
  else if written = of "Infinity" then of "inf"
  else if written = of "-Infinity" then of "-inf"
  else written

/-- How a scalar is shown in a message. -/
def showScalar : Json → Text
  | .null => of "None"
  | .bool true => of "True"
  | .bool false => of "False"
  | .int n => if n < 0 then '-' :: decimal n.natAbs else decimal n.natAbs
  | .decimal written => showDecimal written
  | .string s => s
  | .array _ | .object _ => []

/-- The language with a code. -/
def readLanguage (table : List Gherkin.Language) : Json → Except Error Gherkin.Language
  | .array _ | .object _ => .error .codeNotScalar
  | .string code =>
    match table.find? (fun l => l.code.toList = code) with
    | some l => .ok l
    | none => .error (.unknownLanguage code)
  | value => .error (.unknownLanguage (showScalar value))

/-- The languages in use. -/
def readLanguages (table : List Gherkin.Language) (value : Json) : Except Error (List Gherkin.Language) :=
  listed value >>= fun items => items.mapM (readLanguage table)

/-- The value that stands for the languages, if none is given. -/
def defaultLanguages : Json := .array [.string (of "en")]

/-- A setting that was given, read, or its default. -/
def orDefault {α : Type} (default : α) (read : Json → Except Error α) : Option Json → Except Error α
  | none => .ok default
  | some value => read value

/-- The settings that are given, checked. -/
def Given.check (table : List Gherkin.Language) (g : Given) : Except Error Settings := do
  let base : Settings := {}
  let steps ← orDefault base.steps readSteps g.steps
  let sync ← orDefault base.sync readSync g.sync
  let definitionKeyword ← orDefault none (readOverride .keywordNotText) g.definitionKeyword
  let openingSymbol ← orDefault none (readOverride .symbolNotText) g.openingSymbol
  let languages ← readLanguages table (g.languages.getD defaultLanguages)
  return {
    steps, sync, definitionKeyword, openingSymbol, languages
    strictCompletion := g.strictCompletion.getD base.strictCompletion
    strictValidation := g.strictValidation.getD base.strictValidation
    smartSnippets := g.smartSnippets.getD base.smartSnippets
    expandAlternatives := g.expandAlternatives.getD base.expandAlternatives
    pureText := g.pureText.getD base.pureText
    customParameters := g.customParameters.getD base.customParameters }

/-- The settings that the fields of an object write, with languages from a table. -/
def ofFields? (fields : List (Text × Json)) (table : List Gherkin.Language := Gherkin.languages) : Except Error Settings := do
  let given ← fields.foldlM Given.add {}
  given.check table

end Settings
end StepCatalog
