import StepCatalog.Body.Compile
import StepCatalog.Docstring.Statement
import StepCatalog.Workspace.Glob

/-!
# Outcomes

Scanning a workspace reports what happens on the way (`Event`) and may end with a fault (`Fault`). An outcome holds both: the events
in order, those before a fault included, and the value or the fault.
-/

namespace StepCatalog.Catalog

open Text (of)

/-- Why an operation ends without a value. -/
inductive Fault where
  /-- A glob is refused. -/
  | glob (e : Glob.Error)
  /-- The body of a definition cannot be compiled, and not because it is no regular expression. -/
  | body (e : Body.CompileError)
  /-- A definition was found that has no keyword, or no body. -/
  | noKeyword
  | noBody
  /-- A path holds the character zero. -/
  | zeroInPath
  /-- The number of a line cannot be reported. -/
  | lineOutOfRange
  deriving DecidableEq, Repr

/-- What is reported on the way. -/
inductive Event where
  | noStepFiles (pattern : Text) (root : Path)
  | registered (count : Nat) (root : Path)
  | scanned (file : Path) (count : Nat)
  /-- A body gave no regular expression, and its step was left out. -/
  | dropped (uri : Text) (line : Nat)
  | unreadable (file : Path) (why : Workspace.Unreadable)
  | noDocstrings (why : Docstring.Error)
  /-- A leading pattern was malformed, and the full one took its place. -/
  | fellBack (body : Text)
  | counted (file : Path) (count : Nat)
  /-- A glob of the settings finds no file: the settings file as it was given, the line, counted from one, and what is wrong. -/
  | misconfigured (file : Text) (line : Nat) (message : Text)
  deriving DecidableEq, Repr

/-- An outcome: the events in order, and a value or the fault that ended the operation. -/
structure Outcome (α : Type) where
  events : List Event
  result : Except Fault α

namespace Outcome

/-- A value without events. -/
def pure {α : Type} (a : α) : Outcome α := ⟨[], .ok a⟩

/-- A fault without events. -/
def fail {α : Type} (f : Fault) : Outcome α := ⟨[], .error f⟩

/-- An event. -/
def report (e : Event) : Outcome Unit := ⟨[e], .ok ()⟩

/-- One operation after another: a fault of the first one ends both. -/
def andThen {α β : Type} (x : Outcome α) (f : α → Outcome β) : Outcome β :=
  match x.result with
  | .ok a => ⟨x.events ++ (f a).events, (f a).result⟩
  | .error e => ⟨x.events, .error e⟩

instance : Monad Outcome where
  pure := Outcome.pure
  bind := Outcome.andThen

/-- The outcome of a value that may be a fault. -/
def ofExcept {ε α : Type} (fault : ε → Fault) : Except ε α → Outcome α
  | .ok a => pure a
  | .error e => fail (fault e)

/-- The outcomes of an operation on every element, one after the other, and their values put end to end. -/
def flatMap {α β : Type} (f : α → Outcome (List β)) : List α → Outcome (List β)
  | [] => pure []
  | a :: rest => andThen (f a) fun bs => andThen (flatMap f rest) fun more => pure (bs ++ more)

end Outcome

/-! ## Reading files -/

/-- The text of a file. A file that cannot be read is reported and has none. -/
def contentOf (w : Workspace) (file : Path) : Outcome (Option Text) :=
  if file.holdsZero then Outcome.fail .zeroInPath
  else
    match w.read file with
    | .ok s => Outcome.pure (some s)
    | .error why => ⟨[.unreadable file why], .ok none⟩

/-- The files that a glob finds. -/
def findFiles (w : Workspace) (root : Path) (pattern : Text) : Outcome (List Path) :=
  Outcome.ofExcept .glob (w.findFiles root pattern)

/-! ## Records -/

/-- What a record is filled in with. -/
inductive Argument where
  | text (s : Text)
  | number (n : Nat)
  /-- Why a file cannot be read, or a module has no documentation. -/
  | unreadable (why : Workspace.Unreadable)
  | noDocstrings (why : Docstring.Error)
  /-- A body gives no regular expression, or only a leading one does not. -/
  | rejectedBody
  | malformedPattern
  deriving DecidableEq, Repr

/-- An event as it is logged: whether it is a warning, the part of the program that reports it, the wording with places to fill in
(`%s` a text, `%r` a text in quotes, `%d` a number), and what is filled in. -/
structure Record where
  isWarning : Bool
  reporter : String
  wording : String
  arguments : List Argument
  deriving Repr

/-- The record of an event. -/
def Event.record : Event → Record
  | .noStepFiles pattern root => ⟨true, "registry", "No step files match %r under %s", [.text pattern, .text root.toText]⟩
  | .registered count root => ⟨false, "registry", "Registered %d steps from %s", [.number count, .text root.toText]⟩
  | .scanned file count => ⟨false, "registry", "%s: %d steps", [.text file.toText, .number count]⟩
  | .dropped uri line => ⟨false, "registry", "Dropping step at %s:%d: %s", [.text uri, .number line, .rejectedBody]⟩
  | .unreadable file why => ⟨true, "sources", "Skipping unreadable file %s: %s", [.text file.toText, .unreadable why]⟩
  | .noDocstrings why => ⟨false, "sources", "Cannot parse step module for docstrings: %s", [.noDocstrings why]⟩
  | .fellBack body => ⟨false, "patterns", "Partial regex for %r failed (%s), using full regex", [.text body, .malformedPattern]⟩
  | .counted file count => ⟨false, "usage", "%s: %d step usages", [.text file.toText, .number count]⟩
  | .misconfigured file line message => ⟨true, "find_step", "%s:%d: %s", [.text file, .number line, .text message]⟩

/-- Whether an event is a warning. -/
def Event.isWarning (e : Event) : Bool := e.record.isWarning

end StepCatalog.Catalog
