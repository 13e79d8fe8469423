import StepCatalog.Body.Expansion
import StepCatalog.Catalog.Outcome
import StepCatalog.Definition.Rule
import StepCatalog.Source.Comment
import StepCatalog.Stack
import StepCatalog.Text.Digest

/-!
# Steps of a source file

A definition is looked for in every line of a source file, comments taken out and custom parameters replaced; where a line and the
line below it both hold none, the two are tried together. The body of a definition gives one step or, if alternatives are expanded,
one for each of them (`Definition.steps`). A body that gives no regular expression gives no step.

A step is documented by the documentation of the function that its definition decorates, else by the block comment above it, else
by its own line.
-/

namespace StepCatalog.Catalog

open Text (of)

/-- A step of a catalog. -/
structure Step where
  id : Text
  text : Text
  /-- The pattern of its whole text, and of what is typed on the way there. -/
  full : Body.Pattern
  leading : Body.Pattern
  /-- The line of the definition without the body of the function. -/
  detail : Text
  documentation : Text
  /-- The address of the file, and the number of the line there. -/
  uri : Text
  line : Nat
  stepType : Gherkin.StepType
  count : Nat := 0
  deriving DecidableEq, Repr

/-- The identifier of a step with a text. -/
def stepId (s : Text) : Text := of "step" ++ Digest.ofText s

/-- The file of a step. -/
def Step.file (s : Step) : Path := Path.ofUri s.uri

/-! ## Definitions -/

/-- A definition in a file: the number of the line where it begins, the line or lines it stands in, and the definition. -/
structure Located where
  line : Nat
  source : Text
  found : Definition.Found
  deriving DecidableEq, Repr

/-- The definition that begins in a line, if there is one: in the line alone, or in it together with the next one, if that is
neither empty nor holds a definition of its own. -/
def definitionAt (rule : Definition.Rule) (line : Text) (next : Option Text) : Option (Text × Definition.Found) :=
  match rule.find? line with
  | some found => some (line, found)
  | none =>
    match next with
    | none => none
    | some next =>
      if next.isEmpty || (rule.find? next).isSome then none
      else (rule.find? (line ++ next)).map fun found => (line ++ next, found)

/-- The definitions in lines, of which the first has a number. -/
def definitionsFrom (rule : Definition.Rule) : Nat → List Text → List Located
  | _, [] => []
  | i, line :: rest =>
    match definitionAt rule line rest.head? with
    | some (source, found) => ⟨i, source, found⟩ :: definitionsFrom rule (i + 1) rest
    | none => definitionsFrom rule (i + 1) rest

/-- The lines of a source file in which definitions are looked for. -/
def sourceLines (s : Settings) (content : Text) : List Text :=
  (splitLines (Source.clearComments content)).map (Definition.applyParameters s.customParameters)

/-- The definitions of a source file. -/
def definitionsIn (s : Settings) (rule : Definition.Rule) (content : Text) : List Located :=
  definitionsFrom rule 0 (sourceLines s content)

/-! ## Steps -/

/-- What documents the definitions of a file, by line: the documentation of functions, and block comments. -/
structure Documentation where
  docstrings : List (Nat × Text)
  comments : List (Nat × Text)

/-- The documentation of a definition. -/
def Documentation.of (d : Documentation) (l : Located) : Text :=
  match d.docstrings.lookup l.line with
  | some text => text
  | none =>
    match d.comments.lookup l.line with
    | some raw => Source.documentation raw
    | none => Text.trim l.source

/-- The kind of the bodies that settings ask for. -/
def bodyKind (s : Settings) : Body.Kind := if s.pureText.isSet then .pureText else .pattern

/-- The bodies that a body stands for. -/
def bodiesOf (s : Settings) (body : Text) : List Text := if s.expandAlternatives.isSet then Body.expand body else [body]

/-- The step that `make` makes of a body at a line: none, and a report, if the body gives no regular expression. -/
def stepOf (kind : Body.Kind) (make : Body.Compiled → Step) (uri : Text) (line : Nat) (body : Text) : Outcome (List Step) :=
  match Body.compile kind body with
  | .ok compiled => ⟨if compiled.fellBack then [.fellBack body] else [], .ok [make compiled]⟩
  | .error (.rejected _) => ⟨[.dropped uri line], .ok []⟩
  | .error e => Outcome.fail (.body e)

/-- The step of a compiled body of a definition. -/
def Located.step (l : Located) (uri documentation : Text) (stepType : Gherkin.StepType) (c : Body.Compiled) : Step where
  id := stepId c.text
  text := c.text
  full := c.full
  leading := c.leading
  detail := Body.detail l.source
  documentation := documentation
  uri := uri
  line := l.line
  stepType := stepType

/-- The steps of a definition in a file. -/
def Located.steps (s : Settings) (uri : Text) (d : Documentation) (l : Located) : Outcome (List Step) :=
  match l.found.keyword?, l.found.body? with
  | none, _ => Outcome.fail .noKeyword
  | some _, none => Outcome.fail .noBody
  | some keyword, some body =>
    let stepType := Gherkin.definitionTypeOf s.languages keyword
    Outcome.flatMap (stepOf (bodyKind s) (l.step uri (d.of l) stepType) uri l.line) (bodiesOf s body)

/-- The documentation of functions, if the file is a Python module. -/
def moduleDocstrings (file : Path) (content : Text) : Outcome (List (Nat × Text)) :=
  if file.isPythonModule then
    match Docstring.docstrings content with
    | .ok found => Outcome.pure found
    | .error why => ⟨[.noDocstrings why], .ok []⟩
  else Outcome.pure []

/-- The steps of a file with a content. -/
def stepsIn (s : Settings) (rule : Definition.Rule) (file : Path) (content : Text) : Outcome (List Step) := do
  let docstrings ← moduleDocstrings file content
  let d : Documentation := ⟨docstrings, Source.blockComments content⟩
  let steps ← Outcome.flatMap (Located.steps s file.toUri d) (definitionsIn s rule content)
  Outcome.report (.scanned file steps.length)
  return steps

/-- The steps of a file; a file that cannot be read has none. -/
def fileSteps (s : Settings) (rule : Definition.Rule) (w : Workspace) (file : Path) : Outcome (List Step) := do
  match ← contentOf w file with
  | none => return []
  | some content => stepsIn s rule file content

/-! ## Limited stacks -/

/-- Whether a stack holds everything that is read to compile the bodies of a definition. -/
def Located.fits (stack : Stack) (s : Settings) (l : Located) : Bool :=
  match l.found.body? with
  | some body => (bodiesOf s body).all fun b => (Body.reads (bodyKind s) b).all stack.holds
  | none => true

/-- Whether a stack holds a file with a content, if it is a Python module. -/
def moduleFits (stack : Stack) (file : Path) (content : Text) : Bool := !file.isPythonModule || stack.holdsModule content

/-- Whether a stack holds everything that the scan of a file reads. -/
def fileFits (stack : Stack) (s : Settings) (rule : Definition.Rule) (w : Workspace) (file : Path) : Bool :=
  match w.read file with
  | .ok content => moduleFits stack file content && (definitionsIn s rule content).all (Located.fits stack s)
  | .error _ => true

end StepCatalog.Catalog
