import StepCatalog.Text.Blank
import StepCatalog.Text.Case

/-!
# Step keywords

A step of a scenario begins with a keyword, and the keyword says what the step does: it sets the scene, acts, observes the outcome,
or goes on with what the steps above it did. Every language has its own keywords (`Language`), and several languages can be in use
at once; a word that several categories list belongs to the first one.
-/

namespace StepCatalog.Gherkin

/-- The category of a step. -/
inductive StepType where
  | given
  /-- "When": something is done. -/
  | action
  /-- "Then": something is observed. -/
  | outcome
  /-- "And": more of the same. -/
  | conjunction
  /-- "But": more of the same, in contrast. -/
  | contrast
  /-- No category. -/
  | other
  deriving DecidableEq, Repr

namespace StepType

/-- The name of a category. -/
def name : StepType → String
  | .given => "Given"
  | .action => "When"
  | .outcome => "Then"
  | .conjunction => "And"
  | .contrast => "But"
  | .other => "Other"

/-- The categories that a step definition can be tied to. -/
def isPrimary : StepType → Bool
  | .given | .action | .outcome => true
  | _ => false

/-- The categories that keywords have, in order of precedence. -/
def ofKeywords : List StepType := [.given, .action, .outcome, .conjunction, .contrast]

end StepType

/-- A language: its code, and its words as they are listed, with blanks around them and the generic `*` among them. -/
structure Language where
  code : String
  given : List String
  action : List String
  outcome : List String
  conjunction : List String
  contrast : List String
  examples : List String
  deriving DecidableEq, Repr

/-- A code under which no language is known. -/
structure UnknownLanguage where
  code : Text
  deriving DecidableEq, Repr

/-- The languages with the given codes, in the order of the codes. -/
def resolveLanguages (table : List Language) (codes : List Text) : Except UnknownLanguage (List Language) :=
  codes.mapM fun code =>
    match table.find? (fun l => l.code.toList = code) with
    | some l => .ok l
    | none => .error ⟨code⟩

/-- The words of a list, without the blanks around them and without the generic one. -/
def cleanWords (listed : List String) : List Text :=
  (listed.map fun w => Text.trim w.toList).filter fun w => !w.isEmpty && w != ['*']

namespace Language

/-- The words as listed for a category. -/
def listed (l : Language) : StepType → List String
  | .given => l.given
  | .action => l.action
  | .outcome => l.outcome
  | .conjunction => l.conjunction
  | .contrast => l.contrast
  | .other => []

/-- The keywords of a category. -/
def words (l : Language) (t : StepType) : List Text := cleanWords (l.listed t)

/-- The keywords with their categories, in order of precedence. -/
def keywords (l : Language) : List (Text × StepType) :=
  StepType.ofKeywords.flatMap fun t => (l.words t).map fun w => (w, t)

/-- The titles of example tables. -/
def exampleWords (l : Language) : List Text := cleanWords l.examples

end Language

/-- Longer words first, and words of one length by code points. -/
def longestFirst (a b : Text) : Bool := b.length < a.length || (a.length == b.length && Text.le a b)

/-- The different words of a list, longest first. -/
def alternatives (words : List Text) : List Text := words.eraseDups.mergeSort longestFirst

/-- The keywords of languages, longest first. -/
def stepKeywords (ls : List Language) : List Text := alternatives (ls.flatMap fun l => l.keywords.map (·.1))

/-- The titles of example tables in languages, longest first. -/
def exampleTitles (ls : List Language) : List Text := alternatives (ls.flatMap Language.exampleWords)

/-- The keywords of languages in lower case with their categories; of a repeated word the first entry counts. -/
def keywordTable (ls : List Language) : List (Text × StepType) :=
  ls.flatMap fun l => l.keywords.map fun (w, t) => (Text.lower w, t)

/-- The category of a word, whatever its case and the blanks around it. -/
def stepTypeOf (ls : List Language) (word : Text) : StepType :=
  ((keywordTable ls).lookup (Text.lower (Text.trim word))).getD .other

/-- The category of a definition declared with a word: continuations and generic words tie it to none. -/
def definitionTypeOf (ls : List Language) (word : Text) : StepType :=
  if (stepTypeOf ls word).isPrimary then stepTypeOf ls word else .other

/-! ## Keywords in patterns -/

/-- The characters that are escaped when a word is put into a pattern. -/
def needsEscape (c : Char) : Bool :=
  (Text.of " #$&()*+-.?[\\]^\x7b|\x7d~").contains c || (9 ≤ c.toNat && c.toNat ≤ 13)

/-- A word as a pattern that matches exactly it. -/
def escapeWord (w : Text) : Text := w.flatMap fun c => if needsEscape c then ['\\', c] else [c]

/-- The pattern of any one of the words. -/
def alternation (words : List Text) : Text := Text.join ['|'] (words.map escapeWord)

/-- The pattern of the line that heads an example table. -/
def examplesPattern (ls : List Language) : Text :=
  Text.of "^\\s*(" ++ alternation (exampleTitles ls) ++ Text.of "):.*$"

end StepCatalog.Gherkin
