import StepCatalog.Body.Display
import StepCatalog.Body.Source
import StepCatalog.Regex.Reader

/-!
# Compiled bodies

Compiling a body gives the text it is shown with, its full pattern, which a whole step text must match, and its leading pattern,
which accepts what may be typed on the way there. A body whose regular expression is malformed is refused; where only the leading
one is malformed, the full pattern serves for both.

Both are read on a stack without a limit. On a limited one, a body is compiled if the stack holds what is read for it (`reads`).
-/

namespace StepCatalog.Body

/-- A regular expression with the text it was read from. -/
structure Pattern where
  source : Text
  node : Regex.Node
  deriving DecidableEq, Repr

/-- The pattern that a text writes. -/
def Pattern.ofText? (source : Text) : Except Regex.Error Pattern := do
  let node ← Regex.Node.ofText? source {}
  return { source, node }

/-- Whether the pattern is found in a text. -/
def Pattern.occursIn (p : Pattern) (s : Text) : Bool := (p.node.search? s).isSome

/-- Whether the pattern matches at the beginning of a text. -/
def Pattern.begins (p : Pattern) (s : Text) : Bool := (p.node.match? s).isSome

/-- Why a body cannot be compiled. -/
inductive CompileError where
  /-- It does not give a regular expression. -/
  | rejected (body : Text)
  /-- Its regular expression is refused for another reason. -/
  | refused (e : Regex.Error)
  /-- No regular expression can be written for it. -/
  | noSource (e : SourceError)
  deriving DecidableEq, Repr

/-- A compiled body. -/
structure Compiled where
  text : Text
  full : Pattern
  leading : Pattern
  /-- Whether the leading pattern was malformed, so that the full one took its place. -/
  fellBack : Bool
  deriving DecidableEq, Repr

/-- The text a body is shown with. -/
def Kind.display : Kind → Text → Text
  | .pureText, body => body
  | .pattern, body => Body.display body

/-- The full pattern of a body. -/
def fullPattern (kind : Kind) (body : Text) : Except CompileError Pattern :=
  match source kind true body with
  | .error e => .error (.noSource e)
  | .ok s =>
    match Pattern.ofText? s with
    | .ok p => .ok p
    | .error .malformed => .error (.rejected body)
    | .error e => .error (.refused e)

/-- The leading pattern of a body, if it is not malformed. -/
def leadingPattern? (kind : Kind) (body : Text) : Except CompileError (Option Pattern) :=
  match leadingSource kind body with
  | .error e => .error (.noSource e)
  | .ok s =>
    match Pattern.ofText? s with
    | .ok p => .ok (some p)
    | .error .malformed => .ok none
    | .error e => .error (.refused e)

/-- A body compiled. -/
def compile (kind : Kind) (body : Text) : Except CompileError Compiled := do
  let full ← fullPattern kind body
  let leading ← leadingPattern? kind body
  return { text := kind.display body, full, leading := leading.getD full, fellBack := leading.isNone }

/-- The regular expressions that are read to compile a body: the full one and, unless this is refused, the leading one. -/
def reads (kind : Kind) (body : Text) : List Text :=
  match source kind true body with
  | .error _ => []
  | .ok full =>
    match Pattern.ofText? full, leadingSource kind body with
    | .ok _, .ok leading => [full, leading]
    | _, _ => [full]

end StepCatalog.Body
