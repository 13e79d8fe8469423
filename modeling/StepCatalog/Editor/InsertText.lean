import StepCatalog.Body.Compile
import StepCatalog.Stack

/-!
# The text a completion inserts

Of a step that is being typed, what is still to come is inserted: everything from the first part on that what has been typed does
not reach. Parameters in it become numbered tab stops or, without tab stops, quoted classes become empty quotes.

The leading runs of parts are read as regular expressions, on a stack without a limit; `insertTextOn` says what a limited one gives.
-/

namespace StepCatalog.Editor

open Text (of)

/-- What the text to insert depends on: the kind of bodies, and whether parameters become tab stops. -/
structure InsertStyle where
  kind : Body.Kind
  tabStops : Bool
  deriving DecidableEq, Repr

/-! ## Tab stops -/

/-- A character, an escape or a set, as a parameter of a pattern begins: what follows it. -/
def takerEnd? : Text → Option Text
  | '\\' :: c :: s => if c = '\n' then none else some s
  | '.' :: s => some s
  | '[' :: s =>
    match s.takeWhile (· != ']'), s.dropWhile (· != ']') with
    | _ :: _, _ :: rest => some rest
    | _, _ => none
  | _ => none

/-- A quantifier: what follows it. -/
def quantifierEnd? : Text → Option Text
  | '*' :: s => some s
  | '+' :: s => some s
  | '\x7b' :: s =>
    match s.takeWhile (· != '\x7d'), s.dropWhile (· != '\x7d') with
    | _ :: _, _ :: rest => some rest
    | _, _ => none
  | _ => none

/-- A text without one given character in front, if it is there. -/
def dropOptional (c : Char) : Text → Text
  | d :: s => if d = c then s else d :: s
  | [] => []

/-- A repeated character, escape or set, perhaps in parentheses. -/
def repeatedEnd? (s : Text) : Option Text :=
  ((takerEnd? (dropOptional '(' s)).bind quantifierEnd?).map (dropOptional ')')

/-- A name in braces. -/
def nameEnd? : Text → Option Text
  | '\x7b' :: s =>
    if Body.beginsCount s then none
    else
      match s.dropWhile (fun c => c != '\x7b' && c != '\x7d') with
      | '\x7d' :: rest => some rest
      | _ => none
  | _ => none

/-- A parameter that becomes a tab stop. -/
def tabStop : Finder Unit := fun _ s =>
  ((repeatedEnd? s).orElse fun _ => nameEnd? s).map fun rest => ((), s.length - rest.length)

/-- The text of pieces with tab stops for finds, numbered from `n` on. -/
def numberStops : Nat → List (Piece Unit) → Text
  | _, [] => []
  | n, .char c :: ps => c :: numberStops n ps
  | n, .hit _ :: ps => of "$\x7b" ++ decimal n ++ of ":\x7d" ++ numberStops (n + 1) ps

/-! ## Quoted classes -/

/-- `[^"]` repeated, perhaps in parentheses: what follows it. -/
def quotedClassEnd? (s : Text) : Option Text :=
  (Text.after? (of "[^\"]") (dropOptional '(' s)).bind fun
    | '+' :: rest => some (dropOptional ')' rest)
    | '*' :: rest => some (dropOptional ')' rest)
    | _ => none

/-- A parameter between quotation marks. -/
def quotedClass : Finder Unit
  | _, '"' :: s =>
    match quotedClassEnd? s with
    | some ('"' :: rest) => some ((), s.length - rest.length + 1)
    | _ => none
  | _, _ => none

/-! ## The text to insert -/

/-- The parts from the first one on that the typed text does not reach. A run of parts that gives no regular expression is passed
over; behind the last part nothing remains to be said. -/
def unreached (kind : Body.Kind) (typed : Text) (done : List Text) :
    List Text → Except Body.CompileError (Option (List Text))
  | [] => .ok none
  | part :: rest =>
    match Body.source kind false (Text.join [' '] (done ++ [part])) with
    | .error e => .error (.noSource e)
    | .ok source =>
      match Body.Pattern.ofText? source with
      | .error .malformed => unreached kind typed (done ++ [part]) rest
      | .error e => .error (.refused e)
      | .ok p => if p.begins typed then unreached kind typed (done ++ [part]) rest else .ok (some (part :: rest))

/-- What of a step's text is still to be typed. -/
def remaining (kind : Body.Kind) (text typed : Text) : Except Body.CompileError Text := do
  let parts ← unreached kind typed [] (Body.splitParts text)
  return match parts with
    | some parts => Text.join [' '] parts
    | none => text

/-- The text to insert for a step of which something has been typed. -/
def insertText (style : InsertStyle) (text typed : Text) : Except Body.CompileError Text := do
  let rest ← remaining style.kind text typed
  let rest := if style.tabStops then numberStops 1 (pieces tabStop rest) else substitute quotedClass (fun _ => of "\"\"") rest
  return match style.kind with
    | .pureText => Body.display rest
    | .pattern => rest

/-- The regular expressions that are read to find the parts that the typed text does not reach. -/
def runsRead (kind : Body.Kind) (typed : Text) (done : List Text) : List Text → List Text
  | [] => []
  | part :: rest =>
    match Body.source kind false (Text.join [' '] (done ++ [part])) with
    | .error _ => []
    | .ok source =>
      source ::
        match Body.Pattern.ofText? source with
        | .error .malformed => runsRead kind typed (done ++ [part]) rest
        | .error _ => []
        | .ok p => if p.begins typed then runsRead kind typed (done ++ [part]) rest else []

/-- The text to insert that is found on a stack, if there is one and the stack holds everything that is read for it. -/
def insertTextOn (stack : Stack) (style : InsertStyle) (text typed : Text) : Option Text :=
  if (runsRead style.kind typed [] (Body.splitParts text)).all stack.holds then (insertText style text typed).toOption else none

/-! ## Sorting by use -/

/-- How many numbers `width` letters of 26 can write. -/
def writable : Nat → Nat
  | 0 => 1
  | width + 1 => 26 * writable width

/-- The letters that write a number, the first ones standing for the greater share of it; higher numbers have earlier letters. -/
def sortLetters : Nat → Nat → Text
  | 0, _ => []
  | width + 1, n => Char.ofNat (90 - n / writable width) :: sortLetters width (n % writable width)

/-- A number brought between zero and the greatest that `width` letters write. -/
def clampCount (width : Nat) (count : Int) : Nat := min count.toNat (writable width - 1)

/-- Letters of a fixed width that put higher counts first. -/
def sortKey (width : Nat) (count : Int) : Text := sortLetters width (clampCount width count)

end StepCatalog.Editor
