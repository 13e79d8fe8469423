import StepCatalog.CommandLine.Run

/-!
# What a run says besides its answer

Events are logged as lines: the level, the part of the program that reports, and the wording with its places filled in. A failure is
told in one line.
-/

namespace StepCatalog.CommandLine

open Catalog
open Text (of)

/-! ## Causes -/

/-- Why a file cannot be read. -/
def unreadableWording : Workspace.Unreadable → String
  | .missing => "no such file"
  | .throughFile => "the way there goes through a file"
  | .directory => "it is a directory"
  | .notText => "it is not encoded in UTF-8"

/-- Why a module has no documentation. -/
def docstringWording : Docstring.Error → String
  | .malformed => "malformed"
  | .indentation => "unexpected indentation"
  | .mixedTabs => "tabs and spaces are mixed in indentation"
  | .zeroCharacter => "it holds the character zero"

/-- Why a pattern is refused. -/
def patternWording : Regex.Error → String
  | .malformed => "a pattern is malformed"
  | .repetitionTooLarge => "the number of a repetition is too large"
  | .numeralTooLong => "a number has too many digits"
  | .clashingFlags => "flags of a pattern exclude each other"

/-- Why a body gives no pattern. -/
def bodyWording : Body.CompileError → String
  | .rejected _ => "a step gives no pattern"
  | .refused e => patternWording e
  | .noSource .missingFragment => "a step refers to a parameter that it does not have"
  | .noSource .numeralTooLong => "a number has too many digits"

/-- Why a glob is refused. -/
def globWording : Glob.Error → String
  | .empty => "a glob is empty"
  | .mixedDepth => "a glob holds a name in which ** does not stand alone"
  | .noNames | .onlySlash => "a glob has no names"

/-- Why an operation ends without a value. -/
def faultWording : Fault → String
  | .glob e => globWording e
  | .body e => bodyWording e
  | .noKeyword => "a definition has no keyword"
  | .noBody => "a definition has no body"
  | .zeroInPath => "a path holds the character zero"
  | .lineOutOfRange => "a line number is out of range"

/-- Why settings cannot be loaded. -/
def loadWording (e : Settings.LoadError) : Text :=
  match e.message?, e with
  | some m, _ => m
  | none, .unreadable why => of (unreadableWording why)
  | none, .zeroInPath => of "a path holds the character zero"
  | none, .notJson _ => of "not a JSON text"
  | none, _ => of "a value has the wrong type"

/-- What is said about a failure. -/
def Failure.message : Failure → Text
  | .settings e => of "settings: " ++ loadWording e
  | .rule e => of "settings: " ++ of (patternWording e)
  | .catalog f => of (faultWording f)

/-! ## Lines -/

/-- An argument as it is shown. -/
def shownArgument : Argument → Text
  | .text s => s
  | .number n => decimal n
  | .unreadable why => of (unreadableWording why)
  | .noDocstrings why => of (docstringWording why)
  | .rejectedBody => of "no pattern"
  | .malformedPattern => of "malformed"

/-- A wording with its places filled in, one argument after the other. -/
def fillIn : Text → List Argument → Text
  | '%' :: 'r' :: s, a :: rest => '\x27' :: shownArgument a ++ '\x27' :: fillIn s rest
  | '%' :: _ :: s, a :: rest => shownArgument a ++ fillIn s rest
  | c :: s, arguments => c :: fillIn s arguments
  | [], _ => []

/-- The line in which an event is logged. -/
def logLine (e : Event) : Text :=
  let r := e.record
  of (if r.isWarning then "WARNING " else "DEBUG ") ++ of r.reporter ++ of ": " ++ fillIn (of r.wording) r.arguments

end StepCatalog.CommandLine
