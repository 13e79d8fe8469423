import StepCatalog.Docstring.Clean
import StepCatalog.Docstring.Expression
import StepCatalog.Text.Lines

/-!
# Documentation of the functions of a Python module

A function is documented by a string that stands alone as its first statement. The documentation of a decorated function, at
whatever depth, is listed under the line of each of its decorators (`docstrings`). A module that is not well formed has none.

As with expressions, the reading of a statement is written in terms of the readings of blocks, so that the recursion is in one
place (`readStatement`). It goes as deep as the module is nested, on a stack without a limit; which modules a limited one can read is
left to `Stack`.
-/

namespace StepCatalog.Docstring

open Reading
open Expression (canBegin)

/-- What is kept of a statement: the text it consists of, if it is a lone string, and the documentation found in it, by line. -/
structure Statement where
  text? : Option Text := none
  found : List (Nat × Text) := []
  deriving DecidableEq, Repr

namespace Statement

/-- The documentation found in statements. -/
def foundIn (ss : List Statement) : List (Nat × Text) := ss.flatMap (·.found)

/-! ## Simple statements -/

/-- A name of a module, perhaps under another name. -/
def importedModule : Reading Unit := do
  let _ ← Expression.dottedName
  if ← accept (word "as") then expectName

/-- A name out of a module, perhaps under another name. -/
def importedName : Reading Unit := do
  expectName
  if ← accept (word "as") then expectName

/-- The names that are imported from a module. -/
def importedNames : Reading Unit := do
  if ← accept (mark "*") then return ()
  else if ← accept (mark "(") then
    let _ ← commaList Kind.isName importedName
    expect (mark ")")
  else
    let _ ← separated (fun _ => true) importedName

/-- The dots in front of a module's name: whether there are any. -/
def leadingDots : Reading Bool := do
  let dots ← rounds do
    if (← accept (mark ".")) || (← accept (mark "...")) then return some () else return none
  return !dots.isEmpty

/-- An import from a module. -/
def importFrom : Reading Unit := do
  let dots ← leadingDots
  if !dots || (← peek).isName then
    let _ ← Expression.dottedName
  expect (word "import")
  importedNames

/-- The signs that assign to a target in place. -/
def inPlaceMarks : List String := ["+=", "-=", "*=", "/=", "//=", "%=", "@=", "&=", "|=", "^=", "<<=", ">>=", "**="]

/-- The further targets and the value of an assignment whose first target has been read. -/
def assignment (sub : Readings) : Nat → Expression → Reading Unit
  | 0, _ => unexpected
  | n + 1, e => do
    if (← peek) = mark "=" then
      if e.isTarget then
        skip
        if (← peek) = word "yield" then
          let _ ← Expression.yielded sub
        else assignment sub n (← sub .several)
      else unexpected

/-- A statement that begins with an expression: an assignment, an annotation, or the expression alone. -/
def ofExpression (sub : Readings) : Reading Statement := do
  let isYield := (← peek) = word "yield"
  let e ← Expression.assigned sub
  let k ← peek
  if isYield then return {}
  else if k = mark "=" then
    assignment sub ((← left) + 1) e
    return {}
  else if k = mark ":" then
    if e.isSingle then
      skip
      let _ ← sub .expression
      if ← accept (mark "=") then
        let _ ← Expression.assigned sub
      return {}
    else unexpected
  else if inPlaceMarks.any fun m => k = mark m then
    if e.isSingle then
      skip
      let _ ← Expression.assigned sub
      return {}
    else unexpected
  else return { text? := e.text? }

/-- A simple statement. -/
def simple (sub : Readings) : Reading Statement := do
  if (← accept (word "pass")) || (← accept (word "break")) || (← accept (word "continue")) then return {}
  else if ← accept (word "return") then
    if canBegin (← peek) then
      let _ ← sub .several
    return {}
  else if ← accept (word "raise") then
    if canBegin (← peek) then
      let _ ← sub .expression
      if ← accept (word "from") then
        let _ ← sub .expression
    return {}
  else if (← accept (word "global")) || (← accept (word "nonlocal")) then
    let _ ← separated (fun _ => true) expectName
    return {}
  else if ← accept (word "del") then
    let e ← sub .several
    if e.isDeletable then return {} else unexpected
  else if ← accept (word "assert") then
    let _ ← sub .expression
    if ← accept (mark ",") then
      let _ ← sub .expression
    return {}
  else if ← accept (word "import") then
    let _ ← separated (fun _ => true) importedModule
    return {}
  else if ← accept (word "from") then
    importFrom
    return {}
  else ofExpression sub

/-- The simple statements of a line. -/
def simpleLine (sub : Readings) : Reading (List Statement) := do
  let first ← simple sub
  let rest ← rounds do
    if (← peek) = mark ";" && (← peekSecond) ≠ .newline then
      skip
      return some (← simple sub)
    else return none
  let _ ← accept (mark ";")
  expect .newline
  return first :: rest

/-! ## Compound statements -/

/-- Statements up to the end of their block. -/
def untilDedent (statement : Reading (List Statement)) : Reading (List Statement) := do
  let first ← statement
  let rest ← rounds do
    if (← peek) = .dedent then return none else return some (← statement)
  skip
  return first ++ rest.flatten

/-- The block of a compound statement, its colon included. -/
def block (sub : Readings) (statement : Reading (List Statement)) : Reading (List Statement) := do
  expect (mark ":")
  if ← accept .newline then
    if ← accept .indent then untilDedent statement else missingBlock
  else simpleLine sub

/-- The statement of a compound statement's blocks. -/
def ofBlocks (blocks : List (List Statement)) : Statement := { found := foundIn blocks.flatten }

/-- A block behind a word, if it is there. -/
def blockAfter (name : String) (body : Reading (List Statement)) : Reading (List Statement) := do
  if ← accept (word name) then body else return []

/-- The rest of a conditional statement. -/
def conditional (sub : Readings) (body : Reading (List Statement)) : Reading Statement := do
  let _ ← sub .named
  let first ← body
  let others ← rounds do
    if ← accept (word "elif") then
      let _ ← sub .named
      return some (← body)
    else return none
  let last ← blockAfter "else" body
  return ofBlocks (first :: others ++ [last])

/-- The rest of a loop with a condition. -/
def whileLoop (sub : Readings) (body : Reading (List Statement)) : Reading Statement := do
  let _ ← sub .named
  let first ← body
  let last ← blockAfter "else" body
  return ofBlocks [first, last]

/-- The rest of a loop over values. -/
def forLoop (sub : Readings) (body : Reading (List Statement)) : Reading Statement := do
  Expression.targets sub
  expect (word "in")
  let _ ← sub .several
  let first ← body
  let last ← blockAfter "else" body
  return ofBlocks [first, last]

/-- One context of a `with`. -/
def context (sub : Readings) : Reading Unit := do
  let _ ← sub .expression
  if ← accept (word "as") then
    let _ ← Expression.target sub

/-- The contexts of a `with`, in parentheses or not. -/
def contexts (sub : Readings) : Reading Unit :=
  orElse
    (do
      expect (mark "(")
      let _ ← commaList canBegin (context sub)
      expect (mark ")")
      unless (← peek) = mark ":" do unexpected)
    (do
      let _ ← separated (fun _ => true) (context sub))

/-- The rest of a `with`. -/
def withContexts (sub : Readings) (body : Reading (List Statement)) : Reading Statement := do
  contexts sub
  return ofBlocks [← body]

/-- One `except`: whether it is starred, and its block. -/
def handler (sub : Readings) (body : Reading (List Statement)) : Reading (Option (Bool × List Statement)) := do
  if ← accept (word "except") then
    let isStarred ← accept (mark "*")
    if isStarred || (← peek) ≠ mark ":" then
      let _ ← sub .expression
      if ← accept (word "as") then expectName
    return some (isStarred, ← body)
  else return none

/-- The rest of a `try`. -/
def guarded (sub : Readings) (body : Reading (List Statement)) : Reading Statement := do
  let first ← body
  let handlers ← rounds (handler sub body)
  if handlers.any (·.1) && handlers.any (!·.1) then unexpected
  else
    let otherwise ← if handlers.isEmpty then pure [] else blockAfter "else" body
    if handlers.isEmpty && (← peek) ≠ word "finally" then missingClause
    else
      let last ← blockAfter "finally" body
      return ofBlocks (first :: handlers.map (·.2) ++ [otherwise, last])

/-- The rest of a class definition. -/
def classDefinition (sub : Readings) (body : Reading (List Statement)) : Reading Statement := do
  expectName
  if ← accept (mark "(") then Expression.arguments sub
  return ofBlocks [← body]

/-- The documentation of a function with a body, cleaned, unless it is empty. -/
def documentation? (body : List Statement) : Option Text :=
  match body with
  | { text? := some text, .. } :: _ => if (clean text).isEmpty then none else some (clean text)
  | _ => none

/-- The rest of a function definition, with the lines of the decorators. -/
def functionDefinition (sub : Readings) (body : Reading (List Statement)) (decorators : List Nat) : Reading Statement := do
  expectName
  expect (mark "(")
  Expression.parameters sub true (mark ")")
  expect (mark ")")
  if ← accept (mark "->") then
    let _ ← sub .expression
  let inner ← body
  let own := match documentation? inner with
    | some text => decorators.map fun line => (line, text)
    | none => []
  return { found := own ++ foundIn inner }

/-- One decorator: its line. -/
def decorator (sub : Readings) : Reading (Option Nat) := do
  if ← accept (mark "@") then
    let e ← sub .named
    expect .newline
    return some e.line
  else return none

/-- A definition of a function or class behind its decorators. -/
def definition (sub : Readings) (body : Reading (List Statement)) : Reading Statement := do
  let decorators ← rounds (decorator sub)
  if ← accept (word "class") then classDefinition sub body
  else
    let _ ← accept (word "async")
    expect (word "def")
    functionDefinition sub body decorators

/-! ## Matching -/

/-- The head of a `match`, up to the end of its line. -/
def matchHead (sub : Readings) : Reading Unit := do
  expect (word "match")
  let (items, comma) ← commaList canBegin (Expression.starNamed sub)
  if !comma && items.any (·.isStarred) then unexpected
  expect (mark ":")
  expect .newline

/-- One case of a `match`. -/
def matchCase (sub : Readings) (body : Reading (List Statement)) : Reading (List Statement) := do
  expect (word "case")
  let _ ← commaList Expression.canBeginPattern (Expression.starPattern sub)
  if ← accept (word "if") then
    let _ ← sub .named
  body

/-- The cases of a `match`. -/
def matchCases (sub : Readings) (body : Reading (List Statement)) : Reading Statement := do
  if ← accept .indent then return ofBlocks [← untilDedent (matchCase sub body)] else missingBlock

/-! ## All statements -/

/-- The statements that begin at a place, in terms of the readings of expressions and of statements in blocks. -/
def read (sub : Readings) (statement : Reading (List Statement)) : Reading (List Statement) := do
  let body := block sub statement
  let k ← peek
  if k = mark "@" || k = word "def" || k = word "class" then return [← definition sub body]
  else if k = word "if" then
    skip
    return [← conditional sub body]
  else if k = word "while" then
    skip
    return [← whileLoop sub body]
  else if k = word "for" then
    skip
    return [← forLoop sub body]
  else if k = word "with" then
    skip
    return [← withContexts sub body]
  else if k = word "try" then
    skip
    return [← guarded sub body]
  else if k = word "async" then
    let second ← peekSecond
    if second = word "for" then
      skip
      skip
      return [← forLoop sub body]
    else if second = word "with" then
      skip
      skip
      return [← withContexts sub body]
    else return [← definition sub body]
  else if k = word "match" then
    match ← optional (matchHead sub) with
    | some () => return [← matchCases sub body]
    | none => simpleLine sub
  else simpleLine sub

end Statement

/-- The statements that begin at a place; the number bounds how deeply they and their expressions are nested. -/
def readStatement : Nat → Reading (List Statement)
  | 0 => unexpected
  | n + 1 => Statement.read (readGoal n) (readStatement n)

/-- The statements of a module. -/
def readModule (depth : Nat) : Reading (List Statement) := do
  let statements ← rounds do
    if (← peek) = .stop then return none else return some (← readStatement depth)
  return statements.flatten

/-- A text that ends with a line feed. -/
def endLine (s : Text) : Text := if s.getLast? = some '\n' then s else s ++ ['\n']

/-- How deeply statements and expressions can be nested in a number of tokens: every token goes through at most all levels of
operators and the goals above them. -/
def depthBound (size : Nat) : Nat := 20 * size + 40

/-- The documentation of the decorated functions of a module, under the line of every decorator. -/
def docstrings (s : Text) : Except Error (List (Nat × Text)) :=
  if s.contains (Char.ofNat 0) then .error .zeroCharacter
  else
    let ts := tokens (endLine (unifyLineEnds s))
    match readModule (depthBound ts.length) ts with
    | .ok (statements, _) => .ok (Statement.foundIn statements)
    | .error e => .error e.error

end StepCatalog.Docstring
