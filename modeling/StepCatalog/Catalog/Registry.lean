import StepCatalog.Catalog.Step
import StepCatalog.Gherkin.Outline

/-!
# The registry

A registry holds the steps of a workspace in the order in which they were found, each text once, with their places by identifier,
and how often steps are used. Uses are counted by identifier, and every registered step shows the count of its own identifier;
counts of other identifiers are kept too, and a step that is registered later takes its count up.
-/

namespace StepCatalog.Catalog

/-- A registry. -/
structure Registry where
  settings : Settings
  rule : Definition.Rule
  steps : List Step := []
  /-- Where the step with an identifier stands among the steps. -/
  places : List (Text × Nat) := []
  /-- How often steps are used, by identifier. -/
  counts : List (Text × Nat) := []

namespace Registry

/-- The empty registry of settings. -/
def ofSettings? (s : Settings) : Except Regex.Error Registry := do
  let rule ← Definition.Rule.ofSettings? s
  return { settings := s, rule }

/-! ## Counts -/

/-- How often the step with an identifier is used. -/
def count (r : Registry) (id : Text) : Nat := (Entries.get? id r.counts).getD 0

/-- The step with the count that the registry has for it. -/
def recounted (r : Registry) (s : Step) : Step := { s with count := r.count s.id }

/-- The registry with one more use of an identifier, which the registered step shows. -/
def increment (r : Registry) (id : Text) : Registry :=
  let n := r.count id + 1
  { r with
    counts := Entries.put id n r.counts
    steps :=
      match Entries.get? id r.places with
      | some i => r.steps.modify i fun s => { s with count := n }
      | none => r.steps }

/-- The registry with no uses counted; what steps show stays. -/
def resetCounts (r : Registry) : Registry := { r with counts := [] }

/-- The registry in which every step shows its count. -/
def refreshCounts (r : Registry) : Registry := { r with steps := r.steps.map r.recounted }

/-! ## Building -/

/-- The first step of every identifier, identifiers seen before apart. -/
def firstsFrom (seen : List Text) : List Step → List Step
  | [] => []
  | s :: rest => if seen.contains s.id then firstsFrom seen rest else s :: firstsFrom (s.id :: seen) rest

/-- The first step of every identifier. -/
def firsts (steps : List Step) : List Step := firstsFrom [] steps

/-- The steps of the files that a glob finds. -/
def globSteps (r : Registry) (w : Workspace) (root : Path) (pattern : Text) : Outcome (List Step) := do
  let files ← findFiles w root pattern
  if files.isEmpty then Outcome.report (.noStepFiles pattern root)
  Outcome.flatMap (fileSteps r.settings r.rule w) files

/-- Where steps stand, by identifier. -/
def placesOf (steps : List Step) : List (Text × Nat) :=
  steps.zipIdx.foldl (fun places (s, i) => Entries.put s.id i places) []

/-- The registry with the steps that globs find in place of its own. -/
def build (r : Registry) (w : Workspace) (root : Path) (globs : List Text) : Outcome Registry := do
  let found ← Outcome.flatMap (r.globSteps w root) globs
  let steps := (firsts found).map r.recounted
  Outcome.report (.registered steps.length root)
  return { r with steps, places := placesOf steps }

/-- The registry that a build on a stack gives, if the build completes and the stack holds everything that it reads. -/
def buildOn (stack : Stack) (r : Registry) (w : Workspace) (root : Path) (globs : List Text) : Option Registry :=
  let files := globs.flatMap fun glob => (w.findFiles root glob).toOption.getD []
  if files.all (fileFits stack r.settings r.rule w) then (r.build w root globs).result.toOption else none

/-! ## Looking steps up -/

/-- Whether a step is of a category, if one is asked for. -/
def isOfType (t : Option Gherkin.StepType) (s : Step) : Bool :=
  match t with
  | none => true
  | some t => s.stepType == t

/-- The first step of a category, if one is asked for, whose full pattern is found in a text. -/
def findByText (r : Registry) (text : Text) (t : Option Gherkin.StepType) : Option Step :=
  r.steps.find? fun s => isOfType t s && s.full.occursIn text

/-- Whether a step is known for a text. -/
def knows (r : Registry) (text : Text) : Bool := (r.findByText text none).isSome

/-- A line of a document as a step line, placeholders filled in. -/
def stepLine? (r : Registry) (line : Text) (document : List Text) (lineNumber : Int) : Option Gherkin.StepLine :=
  Gherkin.stepLineIn? r.settings.languages r.knows line document lineNumber

/-- The step that a line of a document uses. -/
def stepAt? (r : Registry) (line : Text) (document : List Text) (lineNumber : Int) : Option Step :=
  (r.stepLine? line document lineNumber).bind fun s => r.findByText s.text none

end Registry
end StepCatalog.Catalog
