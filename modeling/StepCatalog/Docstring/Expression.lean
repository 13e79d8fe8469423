import StepCatalog.Docstring.Literal
import StepCatalog.Docstring.Reading

/-!
# Expressions of a Python module

Of an expression only what the rest of a module depends on is kept (`Expression`): where it starts, whether it may stand on the
left of an assignment, and the text it denotes if it is a string.

Every form of expression is a goal (`Goal`), and its reading is written in terms of the readings of other goals, so that the
recursion is in one place (`readGoal`). Operators bind by their level: `or` is at level 0 and an operand without operators at
level 12.
-/

namespace StepCatalog.Docstring

open Reading

/-- What is kept of an expression. -/
structure Expression where
  line : Nat
  /-- Whether it is a name and nothing else. -/
  isName : Bool := false
  /-- Whether it may be assigned to, also in parts. -/
  isTarget : Bool := false
  /-- Whether it may be assigned to as a whole only. -/
  isSingle : Bool := false
  isDeletable : Bool := false
  isStarred : Bool := false
  /-- The text it denotes. -/
  text? : Option Text := none
  deriving DecidableEq, Repr

/-- The forms of expressions, and of the patterns of a `match`. -/
inductive Goal where
  | level (n : Nat)
  | expression
  /-- An expression that may be given a name. -/
  | named
  /-- Expressions with commas between them. -/
  | several
  | pattern
  deriving DecidableEq, Repr

/-- The readings of other goals. -/
abbrev Readings : Type := Goal → Reading Expression

namespace Expression

/-- An expression of which nothing but the place is kept. -/
def plain (line : Nat) : Expression := { line }

/-- A tuple or list. -/
def sequence (line : Nat) (items : List Expression) : Expression :=
  { line, isTarget := items.all (·.isTarget), isDeletable := items.all (·.isDeletable) }

/-- Whether a token can begin an expression, perhaps a starred one. -/
def canBegin : Kind → Bool
  | .word name => !keywords.contains name || ["True", "False", "None", "lambda", "not", "await"].any (fun k => Text.of k = name)
  | .number | .string _ => true
  | .mark sign => ["(", "[", "\x7b", "+", "-", "~", "...", "*"].any fun m => Text.of m = sign
  | _ => false

/-- A starred expression. -/
def starred (sub : Readings) (goal : Goal) : Reading Expression := do
  let start ← currentLine
  expect (mark "*")
  let e ← sub goal
  return { line := start, isTarget := e.isTarget, isStarred := true }

/-- A named expression, perhaps starred. -/
def starNamed (sub : Readings) : Reading Expression := do
  if (← peek) = mark "*" then starred sub (.level 4) else sub .named

/-- An expression, perhaps starred. -/
def starExpression (sub : Readings) : Reading Expression := do
  if (← peek) = mark "*" then starred sub (.level 4) else sub .expression

/-- Expressions with commas between them: a tuple, if there is a comma. -/
def several (sub : Readings) : Reading Expression := do
  let start ← currentLine
  let (items, comma) ← commaList canBegin (starExpression sub)
  match items, comma with
  | [e], false => return e
  | items, _ => return sequence start items

/-- A `yield`. -/
def yielded (sub : Readings) : Reading Expression := do
  let start ← currentLine
  expect (word "yield")
  if ← accept (word "from") then
    let _ ← sub .expression
  else if canBegin (← peek) then
    let _ ← sub .several
  return plain start

/-- What may stand on the right of an assignment. -/
def assigned (sub : Readings) : Reading Expression := do
  if (← peek) = word "yield" then yielded sub else sub .several

/-! ## Targets and comprehensions -/

/-- One target of an assignment, perhaps starred. -/
def target (sub : Readings) : Reading Expression := do
  let e ← if (← peek) = mark "*" then starred sub (.level 4) else sub (.level 4)
  if e.isTarget then return e else unexpected

/-- The targets of a loop. -/
def targets (sub : Readings) : Reading Unit := do
  let _ ← commaList canBegin (target sub)

/-- One `for` of a comprehension, with its conditions. -/
def comprehensionRound (sub : Readings) : Reading (Option Unit) := do
  let isAsync ← accept (word "async")
  if ← accept (word "for") then
    targets sub
    expect (word "in")
    let _ ← sub (.level 0)
    let _ ← rounds do
      if ← accept (word "if") then return some (← sub (.level 0)) else return none
    return some ()
  else if isAsync then unexpected
  else return none

/-- Whether a comprehension begins here. -/
def atComprehension : Reading Bool := do return (← peek) = word "for" || (← peek) = word "async"

/-- The `for`s of a comprehension. -/
def comprehension (sub : Readings) : Reading Unit := do
  let _ ← rounds (comprehensionRound sub)

/-! ## Parameters -/

/-- What of a list of parameters has been read. -/
structure Parameters where
  count : Nat := 0
  hasDefault : Bool := false
  hasSlash : Bool := false
  hasStar : Bool := false
  /-- Whether a star without a name waits for a parameter. -/
  wantsName : Bool := false
  /-- Whether only the end may follow. -/
  isComplete : Bool := false

/-- The annotation of a parameter. -/
def annotation (sub : Readings) (annotated mayStar : Bool) : Reading Unit := do
  if annotated then
    if ← accept (mark ":") then
      let _ ← if mayStar then starExpression sub else sub .expression

/-- One parameter. -/
def parameter (sub : Readings) (annotated : Bool) (ps : Parameters) : Reading Parameters := do
  if ps.isComplete then unexpected
  else if (← peek) = mark "/" then
    if ps.hasSlash || ps.hasStar || ps.count = 0 then unexpected
    else
      skip
      return { ps with hasSlash := true }
  else if (← peek) = mark "**" then
    if ps.wantsName then unexpected
    else
      skip
      expectName
      annotation sub annotated false
      return { ps with isComplete := true }
  else if (← peek) = mark "*" then
    if ps.hasStar then unexpected
    else
      skip
      if (← peek).isName then
        skip
        annotation sub annotated true
        return { ps with hasStar := true }
      else return { ps with hasStar := true, wantsName := true }
  else
    expectName
    annotation sub annotated false
    if ← accept (mark "=") then
      let _ ← sub .expression
      return { ps with count := ps.count + 1, hasDefault := true, wantsName := false }
    else if ps.hasDefault && !ps.hasStar then unexpected
    else return { ps with count := ps.count + 1, wantsName := false }

/-- Parameters up to a number, in front of a closing mark. -/
def parametersUpTo (sub : Readings) (annotated : Bool) (close : Kind) : Nat → Parameters → Reading Unit
  | 0, _ => unexpected
  | n + 1, ps => do
    if (← peek) = close then
      if ps.wantsName then unexpected
    else
      let ps ← parameter sub annotated ps
      if ← accept (mark ",") then parametersUpTo sub annotated close n ps
      else if (← peek) = close && !ps.wantsName then return ()
      else unexpected

/-- The parameters in front of a closing mark. -/
def parameters (sub : Readings) (annotated : Bool) (close : Kind) : Reading Unit := do
  parametersUpTo sub annotated close ((← left) + 1) {}

/-- A function without a name. -/
def lambdaExpression (sub : Readings) : Reading Expression := do
  let start ← currentLine
  expect (word "lambda")
  parameters sub false (mark ":")
  expect (mark ":")
  let _ ← sub .expression
  return plain start

/-! ## Calls and subscripts -/

/-- What arguments may follow: any, all but further plain ones, or only those with a name. -/
inductive ArgumentStage where
  | any | named | keyed
  deriving DecidableEq, Repr

/-- One argument of a call. A comprehension must be the only one, and no comma may follow it. -/
def argument (sub : Readings) (isFirst : Bool) (stage : ArgumentStage) : Reading ArgumentStage := do
  if ← accept (mark "**") then
    let _ ← sub .expression
    return .keyed
  else if (← peek) = mark "*" then
    if stage = .keyed then unexpected
    else
      let _ ← starred sub .expression
      return stage
  else if (← peek).isName && (← peekSecond) = mark "=" then
    skip
    skip
    let _ ← sub .expression
    return if stage = .any then .named else stage
  else if stage ≠ .any then unexpected
  else
    let _ ← sub .named
    if ← atComprehension then
      if isFirst then
        comprehension sub
        if (← peek) = mark ")" then return stage else unexpected
      else unexpected
    else return stage

/-- Arguments up to a number. -/
def argumentsUpTo (sub : Readings) : Nat → Bool → ArgumentStage → Reading Unit
  | 0, _, _ => unexpected
  | n + 1, isFirst, stage => do
    if (← peek) = mark ")" then return ()
    else
      let stage ← argument sub isFirst stage
      if ← accept (mark ",") then argumentsUpTo sub n false stage

/-- The arguments of a call, behind the opening bracket, and the closing one. -/
def arguments (sub : Readings) : Reading Unit := do
  argumentsUpTo sub ((← left) + 1) true .any
  expect (mark ")")

/-- One subscript: an expression or a slice. -/
def subscript (sub : Readings) : Reading Unit := do
  if (← peek) = mark "*" then
    let _ ← starred sub .expression
  else
    unless (← peek) = mark ":" do
      let _ ← sub .named
    if ← accept (mark ":") then
      if canBegin (← peek) then
        let _ ← sub .expression
      if ← accept (mark ":") then
        if canBegin (← peek) then
          let _ ← sub .expression

/-- Whether a token can begin a subscript. -/
def canBeginSubscript (k : Kind) : Bool := canBegin k || k = mark ":"

/-- One attribute, subscript or call behind an operand, if there is one: whether the result may be assigned to. -/
def trailer (sub : Readings) : Reading (Option Bool) := do
  if ← accept (mark ".") then
    expectName
    return some true
  else if ← accept (mark "[") then
    let _ ← commaList canBeginSubscript (subscript sub)
    expect (mark "]")
    return some true
  else if ← accept (mark "(") then
    arguments sub
    return some false
  else return none

/-! ## Operands -/

/-- What stands in parentheses, the opening one included: a tuple, a comprehension, or one expression. -/
def parenthesised (sub : Readings) : Reading Expression := do
  let start ← currentLine
  expect (mark "(")
  if ← accept (mark ")") then return sequence start []
  else if (← peek) = word "yield" then
    let e ← yielded sub
    expect (mark ")")
    return e
  else
    let e ← starNamed sub
    if !e.isStarred && (← atComprehension) then
      comprehension sub
      expect (mark ")")
      return plain start
    else if ← accept (mark ",") then
      let rest ← if canBegin (← peek) then commaList canBegin (starNamed sub) else pure ([], false)
      expect (mark ")")
      return sequence start (e :: rest.1)
    else if e.isStarred then unexpected
    else
      expect (mark ")")
      return { e with isName := false }

/-- A list or a comprehension in brackets, the opening one included. -/
def bracketed (sub : Readings) : Reading Expression := do
  let start ← currentLine
  expect (mark "[")
  if ← accept (mark "]") then return sequence start []
  else
    let e ← starNamed sub
    if !e.isStarred && (← atComprehension) then
      comprehension sub
      expect (mark "]")
      return plain start
    else
      let rest ← separatedRest sub
      expect (mark "]")
      return sequence start (e :: rest)
where
  /-- The further items, and perhaps a comma at the end. -/
  separatedRest (sub : Readings) : Reading (List Expression) := do
    if ← accept (mark ",") then
      if canBegin (← peek) then return (← commaList canBegin (starNamed sub)).1
    return []

/-- One entry of a dictionary. -/
def dictionaryEntry (sub : Readings) : Reading Unit := do
  if ← accept (mark "**") then
    let _ ← sub (.level 4)
  else
    let _ ← sub .expression
    expect (mark ":")
    let _ ← sub .expression

/-- The further entries of a dictionary, and the closing bracket. -/
def dictionaryRest (sub : Readings) : Reading Unit := do
  if ← accept (mark ",") then
    unless (← peek) = mark "\x7d" do
      let _ ← commaList (fun k => canBegin k || k = mark "**") (dictionaryEntry sub)
  expect (mark "\x7d")

/-- A dictionary, a set or a comprehension in braces. -/
def braced (sub : Readings) : Reading Expression := do
  let start ← currentLine
  expect (mark "\x7b")
  if ← accept (mark "\x7d") then return plain start
  else if ← accept (mark "**") then
    let _ ← sub (.level 4)
    dictionaryRest sub
    return plain start
  else
    let e ← starNamed sub
    if !e.isStarred && (← accept (mark ":")) then
      let _ ← sub .expression
      if ← atComprehension then
        comprehension sub
        expect (mark "\x7d")
      else dictionaryRest sub
    else if !e.isStarred && (← atComprehension) then
      comprehension sub
      expect (mark "\x7d")
    else
      if ← accept (mark ",") then
        if canBegin (← peek) then
          let _ ← commaList canBegin (starNamed sub)
      expect (mark "\x7d")
    return plain start

/-! ## Formatted strings -/

/-- The string inside which a character of a replacement field stands: its quotation mark, and whether it is a long one. -/
abbrev FieldQuote : Type := Option (Char × Bool)

/-- The expression of a replacement field, behind the opening brace, and what follows it: a conversion, a format or the closing
brace. -/
def fieldSpan : FieldQuote → List Char → Text → Option (Text × Text)
  | _, _, [] => none
  | quote, brackets, c :: s =>
    let keep (q : FieldQuote) (b : List Char) : Option (Text × Text) :=
      (fieldSpan q b s).map fun (inner, rest) => (c :: inner, rest)
    if c = '\\' then none
    else
      match quote with
      | some (q, false) => if c = q then keep none brackets else keep quote brackets
      | some (q, true) =>
        match s with
        | d :: e :: t =>
          if c = q && d = q && e = q then
            (fieldSpan none brackets t).map fun (inner, rest) => (c :: d :: e :: inner, rest)
          else keep quote brackets
        | _ => none
      | none =>
        if c = '\'' || c = '"' then
          match s with
          | d :: e :: t =>
            if d = c && e = c then
              (fieldSpan (some (c, true)) brackets t).map fun (inner, rest) => (c :: d :: e :: inner, rest)
            else keep (some (c, false)) brackets
          | _ => keep (some (c, false)) brackets
        else if c = '#' then none
        else if ['(', '[', '\x7b'].contains c then keep none (c :: brackets)
        else
          match brackets with
          | o :: outer =>
            if [')', ']', '\x7d'].contains c then if closingOf o = c then keep none outer else none else keep none brackets
          | [] =>
            if c = ')' || c = ']' then none
            else if c = '!' || c = '=' then
              match s with
              | '=' :: s => (fieldSpan none [] s).map fun (inner, rest) => (c :: '=' :: inner, rest)
              | _ => some ([], c :: s)
            else if c = ':' || c = '\x7d' then some ([], c :: s)
            else if c = '<' || c = '>' then
              match s with
              | '=' :: s => (fieldSpan none [] s).map fun (inner, rest) => (c :: '=' :: inner, rest)
              | _ => keep none []
            else keep none []

/-- Whether a text is an expression as a replacement field may hold it: as if in parentheses. -/
def isFieldExpression (sub : Readings) (s : Text) : Bool :=
  match sub .several (tokens ('(' :: s ++ [')', '\n'])) with
  | .ok (_, [⟨.newline, _⟩, ⟨.stop, _⟩]) => !s.all fun c => c == ' ' || c == '\t' || c == '\n' || c.toNat == 12
  | _ => false

/-- What follows the conversion of a replacement field, if it is in order. -/
def conversionEnd? : Text → Option Text
  | '!' :: c :: s => if ['s', 'r', 'a'].contains c then some s else none
  | '!' :: [] => none
  | s => some s

/-- What follows the replacement fields of a formatted string or, at a deeper level, of a format, up to its end; the first number
bounds the steps. -/
def fieldsEnd? (sub : Readings) (isRaw : Bool) : Nat → Nat → Text → Option Text
  | 0, _, _ => none
  | _ + 1, _, [] => some []
  | n + 1, level, '\\' :: c :: s =>
    if isRaw then fieldsEnd? sub isRaw n level (c :: s)
    else if c = 'N' then
      match s with
      | '\x7b' :: s => fieldsEnd? sub isRaw n level ((s.dropWhile (· != '\x7d')).drop 1)
      | _ => fieldsEnd? sub isRaw n level s
    else if c = '\x7b' || c = '\x7d' then fieldsEnd? sub isRaw n level (c :: s)
    else fieldsEnd? sub isRaw n level s
  | n + 1, level, '\x7b' :: s =>
    if level = 0 && Text.startsWith s ['\x7b'] then fieldsEnd? sub isRaw n level (s.drop 1)
    else if 2 ≤ level then none
    else
      match fieldSpan none [] s with
      | none => none
      | some (inner, rest) =>
        if isFieldExpression sub inner then
          match conversionEnd? (if Text.startsWith rest ['='] then rest.drop 1 else rest) with
          | some ('\x7d' :: rest) => fieldsEnd? sub isRaw n level rest
          | some (':' :: rest) =>
            match fieldsEnd? sub isRaw n (level + 1) rest with
            | some ('\x7d' :: rest) => fieldsEnd? sub isRaw n level rest
            | _ => none
          | _ => none
        else none
  | n + 1, level, '\x7d' :: s =>
    if 0 < level then some ('\x7d' :: s)
    else if Text.startsWith s ['\x7d'] then fieldsEnd? sub isRaw n level (s.drop 1)
    else none
  | n + 1, level, _ :: s => fieldsEnd? sub isRaw n level s

/-- Whether the replacement fields of a formatted string are in order. -/
def fieldsInOrder (sub : Readings) (q : Quoted) : Bool :=
  fieldsEnd? sub q.isRaw (q.content.length + 1) 0 q.content == some []

/-- Strings next to each other. -/
def strings (sub : Readings) : Reading Expression := do
  let start ← currentLine
  let qs ← rounds do
    match ← peek with
    | .string q =>
      skip
      return some q
    | _ => return none
  if qs.all fun q => !q.isFormatted || fieldsInOrder sub q then
    match denote? qs with
    | some (.text value) => return { line := start, text? := some value }
    | some _ => return plain start
    | none => unexpected
  else unexpected

/-- An operand without anything behind it. -/
def atom (sub : Readings) : Reading Expression := do
  let start ← currentLine
  match ← peek with
  | .number =>
    skip
    return plain start
  | .string _ => strings sub
  | .word name =>
    if ["True", "False", "None"].any fun k => Text.of k = name then
      skip
      return plain start
    else
      expectName
      return { line := start, isName := true, isTarget := true, isSingle := true, isDeletable := true }
  | k =>
    if k = mark "(" then parenthesised sub
    else if k = mark "[" then bracketed sub
    else if k = mark "\x7b" then braced sub
    else
      expect (mark "...")
      return plain start

/-! ## Operators -/

/-- An operand with attributes, subscripts and calls behind it. -/
def primary (sub : Readings) : Reading Expression := do
  let start ← currentLine
  let isAwaited ← accept (word "await")
  let e ← atom sub
  let trailers ← rounds (trailer sub)
  match isAwaited, trailers.getLast? with
  | false, none => return e
  | false, some assignable =>
    return { line := start, isTarget := assignable, isSingle := assignable, isDeletable := assignable }
  | true, _ => return plain start

/-- The signs of the operators between operands, by level. -/
def operatorsAt : Nat → List String
  | 4 => ["|"]
  | 5 => ["^"]
  | 6 => ["&"]
  | 7 => ["<<", ">>"]
  | 8 => ["+", "-"]
  | _ => ["*", "/", "//", "%", "@"]

/-- Operands with operators between them. -/
def chain (operator : Reading Bool) (operand : Reading Expression) : Reading Expression := do
  let start ← currentLine
  let e ← operand
  let rest ← rounds do
    if ← operator then return some (← operand) else return none
  return if rest.isEmpty then e else plain start

/-- An operator of a level, taken if it is there. -/
def operatorAt (n : Nat) : Reading Bool := do
  let k ← peek
  if (operatorsAt n).any fun m => k = mark m then
    skip
    return true
  else return false

/-- A comparison, taken if it is there. -/
def comparison : Reading Bool := do
  let k ← peek
  if ["==", "!=", "<", ">", "<=", ">="].any fun m => k = mark m then
    skip
    return true
  else if ← accept (word "is") then
    let _ ← accept (word "not")
    return true
  else if k = word "not" then
    skip
    expect (word "in")
    return true
  else accept (word "in")

/-- The operators of a level. -/
def atLevel (sub : Readings) : Nat → Reading Expression
  | 0 => chain (accept (word "or")) (sub (.level 1))
  | 1 => chain (accept (word "and")) (sub (.level 2))
  | 2 => do
    let start ← currentLine
    if ← accept (word "not") then
      let _ ← sub (.level 2)
      return plain start
    else sub (.level 3)
  | 3 => chain comparison (sub (.level 4))
  | 10 => do
    let start ← currentLine
    let k ← peek
    if ["+", "-", "~"].any fun m => k = mark m then
      skip
      let _ ← sub (.level 10)
      return plain start
    else sub (.level 11)
  | 11 => do
    let start ← currentLine
    let e ← sub (.level 12)
    if ← accept (mark "**") then
      let _ ← sub (.level 10)
      return plain start
    else return e
  | 12 => primary sub
  | n => chain (operatorAt n) (sub (.level (n + 1)))

/-- An expression: one with operators, a choice by a condition, or a function without a name. -/
def expression (sub : Readings) : Reading Expression := do
  let start ← currentLine
  if (← peek) = word "lambda" then lambdaExpression sub
  else
    let e ← sub (.level 0)
    if ← accept (word "if") then
      let _ ← sub (.level 0)
      expect (word "else")
      let _ ← sub .expression
      return plain start
    else return e

/-- An expression that may be given a name. -/
def named (sub : Readings) : Reading Expression := do
  let e ← sub .expression
  if (← peek) = mark ":=" then
    if e.isName then
      skip
      let _ ← sub .expression
      return plain e.line
    else unexpected
  else return e

/-! ## Patterns -/

/-- Passes over a dotted name: whether there was a dot. -/
def dottedName : Reading Bool := do
  expectName
  let dots ← rounds do
    if ← accept (mark ".") then
      expectName
      return some ()
    else return none
  return !dots.isEmpty

/-- Whether a token can begin a pattern, perhaps a starred one. -/
def canBeginPattern : Kind → Bool
  | .word name => !keywords.contains name || ["True", "False", "None"].any (fun k => Text.of k = name)
  | .number | .string _ => true
  | .mark sign => ["(", "[", "\x7b", "-", "*"].any fun m => Text.of m = sign
  | _ => false

/-- A number with a sign, or two of them as a complex one. -/
def patternNumber : Reading Unit := do
  let _ ← accept (mark "-")
  expect .number
  let k ← peek
  if k = mark "+" || k = mark "-" then
    skip
    expect .number

/-- A pattern in a sequence, perhaps starred. -/
def starPattern (sub : Readings) : Reading Unit := do
  if ← accept (mark "*") then expectName
  else
    let _ ← sub .pattern

/-- The patterns of a sequence, and its closing mark. -/
def sequencePattern (sub : Readings) (close : Kind) : Reading Unit := do
  unless (← peek) = close do
    let _ ← commaList canBeginPattern (starPattern sub)
  expect close

/-- One entry of a mapping. -/
def mappingEntry (sub : Readings) : Reading Unit := do
  if ← accept (mark "**") then expectName
  else
    match ← peek with
    | .string _ =>
      let _ ← strings sub
    | .word name =>
      if ["True", "False", "None"].any fun k => Text.of k = name then skip
      else
        unless ← dottedName do unexpected
    | _ => patternNumber
    expect (mark ":")
    let _ ← sub .pattern

/-- One argument of a class pattern: whether it has a name. Behind one with a name all must have one. -/
def classArgument (sub : Readings) : Reading Bool := do
  if (← peek).isName && (← peekSecond) = mark "=" then
    skip
    skip
    let _ ← sub .pattern
    return true
  else
    let _ ← sub .pattern
    return false

/-- A pattern without alternatives. -/
def closedPattern (sub : Readings) : Reading Unit := do
  match ← peek with
  | .string _ =>
    let _ ← strings sub
  | .word name =>
    if ["True", "False", "None"].any fun k => Text.of k = name then skip
    else
      let _ ← dottedName
      if ← accept (mark "(") then
        unless (← peek) = mark ")" do
          let (named, _) ← commaList (fun k => canBeginPattern k && k ≠ mark "*") (classArgument sub)
          unless (named.dropWhile (! ·)).all id do unexpected
        expect (mark ")")
  | k =>
    if k = mark "(" then
      skip
      sequencePattern sub (mark ")")
    else if k = mark "[" then
      skip
      sequencePattern sub (mark "]")
    else if k = mark "\x7b" then
      skip
      unless (← peek) = mark "\x7d" do
        let _ ← commaList (fun k => canBeginPattern k || k = mark "**") (mappingEntry sub)
      expect (mark "\x7d")
    else patternNumber

/-- A pattern: alternatives, and perhaps a name for what they match. -/
def pattern (sub : Readings) : Reading Expression := do
  let start ← currentLine
  closedPattern sub
  let _ ← rounds do
    if ← accept (mark "|") then
      closedPattern sub
      return some ()
    else return none
  if ← accept (word "as") then
    if (← peek) = word "_" then unexpected else expectName
  return plain start

/-! ## All goals -/

/-- The reading of a goal in terms of the readings of other goals. -/
def read (sub : Readings) : Goal → Reading Expression
  | .level n => atLevel sub n
  | .expression => expression sub
  | .named => named sub
  | .several => several sub
  | .pattern => pattern sub

end Expression

/-- The reading of a goal; the number bounds how deeply goals are nested. -/
def readGoal : Nat → Readings
  | 0, _ => unexpected
  | n + 1, goal => Expression.read (readGoal n) goal

end StepCatalog.Docstring
