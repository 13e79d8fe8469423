import StepCatalog.Catalog.Registry
import StepCatalog.Editor.Diagnostic
import StepCatalog.Editor.InsertText
import StepCatalog.Gherkin.Context

/-!
# Questions an editor asks

About a line of a feature file an editor asks whether its step is known (`validate`), where the step is defined
(`findDefinition`), and which steps go on from what has been typed (`complete`). An accepted completion counts as a use
(`acceptCompletion`).
-/

namespace StepCatalog.Editor

open Catalog
open Text (of)

/-- The category that a step of a line must have, if the settings are strict about it. -/
def strictType (on : Bool) (r : Registry) (keyword : Text) (lineNumber : Int) (document : List Text) :
    Option Gherkin.StepType :=
  if on then some (Gherkin.resolveType r.settings.languages keyword lineNumber document) else none

/-! ## Validation -/

/-- The message about a line whose step is unknown. -/
def unknownMessage (line : Text) : Text := of "Was unable to find step for \"" ++ Text.trim line ++ of "\""

/-- The diagnostic of a line whose step is unknown. The number of the line must be one that can be reported. -/
def unknownStep (line indent : Text) (lineNumber : Int) : Except Fault Diagnostic :=
  if 0 ≤ lineNumber && lineNumber ≤ maxPosition then
    .ok ⟨.within lineNumber.toNat indent.length line.length, unknownMessage line⟩
  else .error .lineOutOfRange

/-- The diagnostic of a line of a document: there is one if the line is a step line and no step is known for it. -/
def validate (r : Registry) (line : Text) (lineNumber : Int) (document : List Text) : Except Fault (Option Diagnostic) :=
  let line := Text.trimEnd line
  match r.stepLine? line document lineNumber with
  | none => .ok none
  | some s =>
    let t := strictType r.settings.strictValidation.isSet r s.keyword lineNumber document
    if (r.findByText s.text t).isSome then .ok none else (unknownStep line s.indent lineNumber).map some

/-- The diagnostics of lines of a document, the first of which has a number, each with that number and the line. -/
def validateFrom (r : Registry) (document : List Text) :
    Nat → List Text → Except Fault (List (Nat × Text × Option Diagnostic))
  | _, [] => .ok []
  | i, line :: rest => do
    let d ← validate r line i document
    return (i, line, d) :: (← validateFrom r document (i + 1) rest)

/-- The diagnostics of all lines of a document. -/
def validateLines (r : Registry) (document : List Text) : Except Fault (List (Nat × Text × Option Diagnostic)) :=
  validateFrom r document 0 document

/-! ## Definitions -/

/-- A place in a file. -/
structure Location where
  uri : Text
  range : Range
  deriving DecidableEq, Repr

/-- Where a step is defined. -/
def locationOf (s : Step) : Location := ⟨s.uri, .lineStart s.line⟩

/-- Where the step of a line of a document is defined. -/
def findDefinition (r : Registry) (line : Text) (document : List Text) (lineNumber : Int) : Option Location :=
  (r.stepAt? line document lineNumber).map locationOf

/-! ## Completion -/

/-- A step offered for completion. -/
structure Completion where
  label : Text
  /-- The identifier of the step. -/
  data : Text
  detail : Text
  documentation : Text
  /-- What completions are ordered by. -/
  sortText : Text
  insertText : Text
  deriving DecidableEq, Repr

/-- The kind under which completions are offered: snippets. -/
def Completion.kind : Nat := 15

/-- The format of the text to insert: a snippet. -/
def Completion.insertFormat : Nat := 2

/-- The width of the letters that put steps in use first. -/
def sortWidth : Nat := 5

/-- A text without its last word, which may still be incomplete. -/
def withoutLastWord (s : Text) : Text := Text.dropEndWhile (fun c => !isBlank c) s

/-- How the settings ask for texts to be inserted. -/
def insertStyle (s : Settings) : InsertStyle := ⟨bodyKind s, s.smartSnippets.isSet⟩

/-- A step offered for completion of what has been typed. -/
def offer (style : InsertStyle) (typed : Text) (s : Step) : Except Fault Completion :=
  match insertText style s.text typed with
  | .ok inserted => .ok ⟨s.text, s.id, s.detail, s.documentation, sortKey sortWidth s.count ++ '_' :: s.text, inserted⟩
  | .error e => .error (.body e)

/-- The steps that go on from what has been typed. -/
def candidates (r : Registry) (t : Option Gherkin.StepType) (typed : Text) : List Step :=
  r.steps.filter fun s => Registry.isOfType t s && s.leading.occursIn typed

/-- The completions of a line of a document, those most used first: none, if the line is no step line or no step goes on from
it. -/
def complete (r : Registry) (line : Text) (lineNumber : Int) (document : List Text) :
    Except Fault (Option (List Completion)) :=
  match r.stepLine? line document lineNumber with
  | none => .ok none
  | some s => do
    let typed := withoutLastWord s.text
    let t := strictType r.settings.strictCompletion.isSet r s.keyword lineNumber document
    let items ← (candidates r t typed).mapM (offer (insertStyle r.settings) typed)
    match items.mergeSort fun a b => a.sortText.le b.sortText with
    | [] => return none
    | items => return some items

/-- The registry after a completion with the identifier of a step was accepted: one more use, unless the identifier is empty. -/
def acceptCompletion (r : Registry) (id : Text) : Registry := if id.isEmpty then r else r.increment id

end StepCatalog.Editor
