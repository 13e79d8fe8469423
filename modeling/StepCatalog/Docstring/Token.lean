import StepCatalog.Text.Digit
import StepCatalog.Text.Identifier

/-!
# Tokens of a Python module

The text of a module, cut into tokens. Outside brackets the end of a line is a token, and so is every change of indentation: a line
that stands further in opens a level, and one that stands further out closes levels until it meets one of its own depth. Blank
lines, comments and, inside brackets, line ends are passed over.

The text is a list of characters in which every line ends with a line feed. Where it cannot be cut any further the last token is a
fault (`Kind.fault`) that says why.
-/

namespace StepCatalog.Docstring

open Text (of)

/-- Why a text cannot be cut into tokens. -/
inductive Fault where
  /-- A character, a number, a name, a string or a bracket that has no place. -/
  | malformed
  /-- The text ends inside brackets, or a backslash joins no further line. -/
  | unfinished
  /-- A line goes back to a depth that no open level has. -/
  | unindent
  /-- Tabs and blanks are mixed in such a way that depth depends on the width of a tab. -/
  | mixedTabs
  /-- There are too many levels. -/
  | tooDeep
  deriving DecidableEq, Repr

/-- A string as it is written: what the letters in front of it say, and what stands between the quotation marks. -/
structure Quoted where
  isBytes : Bool
  isRaw : Bool
  isFormatted : Bool
  content : Text
  deriving DecidableEq, Repr

/-- The kinds of tokens. -/
inductive Kind where
  | word (name : Text)
  | number
  | string (quoted : Quoted)
  | mark (sign : Text)
  | newline
  | indent
  | dedent
  | stop
  | fault (f : Fault)
  deriving DecidableEq, Repr

/-- A token, and the number of the line it starts on, counted from zero. -/
structure Token where
  kind : Kind
  line : Nat
  deriving DecidableEq, Repr

/-! ## Indentation -/

/-- The depth of a line, with tabs of width eight and with tabs of width one. -/
structure Depth where
  wide : Nat
  narrow : Nat
  deriving DecidableEq, Repr

/-- The blanks a line begins with, measured. A backslash at the end of the line joins the next one, and the depth in front of the
first such backslash counts. The result has the number of lines joined. -/
def measure : Depth → Option Nat → Nat → Text → Except Fault (Depth × Nat × Text)
  | d, kept, joined, ' ' :: s => measure ⟨d.wide + 1, d.narrow + 1⟩ kept joined s
  | d, kept, joined, '\t' :: s => measure ⟨(d.wide / 8 + 1) * 8, d.narrow + 1⟩ kept joined s
  | d, kept, joined, '\\' :: '\n' :: c :: s =>
    measure d (some (match kept with
      | some (n + 1) => n + 1
      | _ => d.wide)) (joined + 1) (c :: s)
  | _, _, _, '\\' :: _ => .error .unfinished
  | d, kept, joined, c :: s =>
    if c.toNat = 12 then measure ⟨0, 0⟩ kept joined s
    else
      match kept with
      | some (n + 1) => .ok (⟨n + 1, n + 1⟩, joined, c :: s)
      | _ => .ok (d, joined, c :: s)
  | d, _, joined, [] => .ok (d, joined, [])

/-- The most levels, the outermost included. -/
def maxLevels : Nat := 100

/-- The open levels, innermost first, closed down to a depth. -/
def closeLevels (d : Depth) : List Depth → List Depth
  | [] => []
  | l :: levels => if d.wide < l.wide then closeLevels d levels else l :: levels

/-- The depth of the innermost of the open levels. -/
def innermost (levels : List Depth) : Depth := levels.head?.getD ⟨0, 0⟩

/-- The tokens and the levels when a line of a depth begins. -/
def relevel (d : Depth) (levels : List Depth) : Except Fault (List Kind × List Depth) :=
  let top := innermost levels
  if d.wide = top.wide then if d.narrow = top.narrow then .ok ([], levels) else .error .mixedTabs
  else if top.wide < d.wide then
    if maxLevels ≤ levels.length + 1 then .error .tooDeep
    else if d.narrow ≤ top.narrow then .error .mixedTabs
    else .ok ([.indent], d :: levels)
  else
    let rest := closeLevels d levels
    if d.wide ≠ (innermost rest).wide then .error .unindent
    else if d.narrow ≠ (innermost rest).narrow then .error .mixedTabs
    else .ok (List.replicate (levels.length - rest.length) .dedent, rest)

/-! ## Numbers -/

/-- The characters a name is made of, as far as cutting is concerned. -/
def isNameChar (c : Char) : Bool := c.isAlphanum || c == '_' || 128 ≤ c.toNat

/-- Whether a name may begin with the character, as far as cutting is concerned. -/
def isNameStart (c : Char) : Bool := isNameChar c && !c.isDigit

/-- Whether a number may end in front of the text: no name follows, unless it is a word that joins expressions. -/
def endsNumber (s : Text) : Bool :=
  ["and", "else", "for", "if", "in", "is", "or", "not"].any (fun w => s.startsWith (of w)) ||
    !(s.head?.map isNameChar).getD false

/-- What follows further digits, which single underscores may divide. -/
def digitsEnd? (isDigit : Char → Bool) : Text → Option Text
  | '_' :: d :: s => if isDigit d then digitsEnd? isDigit s else none
  | ['_'] => none
  | c :: s => if isDigit c then digitsEnd? isDigit s else some (c :: s)
  | [] => some []

/-- What follows the digits of a number whose base is written in front. -/
def radixEnd? (isDigit : Char → Bool) : Text → Option Text
  | '_' :: d :: s => if isDigit d then digitsEnd? isDigit s else none
  | d :: s => if isDigit d then digitsEnd? isDigit s else none
  | [] => none

/-- What follows the letter of an imaginary number, if it stands there, and the end of the number. -/
def numberClosed? : Text → Option Text
  | c :: s =>
    if c = 'j' || c = 'J' then if endsNumber s then some s else none
    else if endsNumber (c :: s) then some (c :: s) else none
  | [] => some []

/-- What follows the exponent, if there is one, and the rest of a number. -/
def exponentEnd? : Text → Option Text
  | c :: s =>
    if c = 'e' || c = 'E' then
      match s with
      | sign :: d :: rest =>
        if sign = '+' || sign = '-' then if d.isDigit then (digitsEnd? Char.isDigit rest).bind numberClosed? else none
        else if sign.isDigit then (digitsEnd? Char.isDigit (d :: rest)).bind numberClosed?
        else if endsNumber (c :: s) then some (c :: s) else none
      | [d] => if d.isDigit then some [] else none
      | [] => none
    else numberClosed? (c :: s)
  | [] => some []

/-- What follows the fraction, if there is one, and the rest of a number. -/
def fractionEnd? : Text → Option Text
  | '.' :: d :: s =>
    if d.isDigit then (digitsEnd? Char.isDigit s).bind exponentEnd? else exponentEnd? (d :: s)
  | ['.'] => some []
  | s => exponentEnd? s

/-- What follows a number that begins with a zero, the zero taken off: a whole number must not go on with other digits. -/
def zeroEnd? (s : Text) : Option Text :=
  match digitsEnd? Char.isDigit ('0' :: s) with
  | none => none
  | some rest =>
    let isWhole := match rest with
      | c :: _ => !".eEjJ".toList.contains c
      | [] => true
    if isWhole && (s.take (s.length - rest.length)).any (fun c => c != '0' && c != '_') then none else fractionEnd? rest

/-- What follows a number. -/
def numberEnd? : Text → Option Text
  | '.' :: s => fractionEnd? ('.' :: s)
  | '0' :: c :: s =>
    if c = 'x' || c = 'X' then (radixEnd? (fun d => (hexDigitValue? d).isSome) s).filter endsNumber
    else if c = 'o' || c = 'O' then (radixEnd? (fun d => '0' ≤ d && d ≤ '7') s).filter endsNumber
    else if c = 'b' || c = 'B' then (radixEnd? (fun d => d == '0' || d == '1') s).filter endsNumber
    else zeroEnd? (c :: s)
  | _ :: s => (digitsEnd? Char.isDigit s).bind fractionEnd?
  | [] => none

/-! ## Strings -/

/-- What stands in front of the closing mark of a string on one line, and what follows it. -/
def shortString (quote : Char) : Text → Option (Text × Text)
  | [] => none
  | '\\' :: c :: s => (shortString quote s).map fun (inner, rest) => ('\\' :: c :: inner, rest)
  | c :: s =>
    if c = quote then some ([], s)
    else if c = '\n' then none
    else (shortString quote s).map fun (inner, rest) => (c :: inner, rest)

/-- What stands in front of the three closing marks of a string, and what follows them. -/
def longString (quote : Char) : Text → Option (Text × Text)
  | [] => none
  | '\\' :: c :: s => (longString quote s).map fun (inner, rest) => ('\\' :: c :: inner, rest)
  | c :: s =>
    if c = quote && Text.startsWith s [quote, quote] then some ([], s.drop 2)
    else (longString quote s).map fun (inner, rest) => (c :: inner, rest)

/-- The string behind its first quotation mark. -/
def stringBody (quote : Char) (s : Text) : Option (Text × Text) :=
  if Text.startsWith s [quote, quote] then longString quote (s.drop 2) else shortString quote s

/-- The letters in front of a string: at most one of each sort, and `u` only alone. -/
def isStringLead (lead : Text) : Bool :=
  ["", "r", "u", "b", "f", "br", "rb", "fr", "rf"].any fun l => of l = lead.map Char.toLower

/-- The letters in front of a string, its quotation mark and what follows it, if the text begins with a string. -/
def stringLead? (s : Text) : Option (Text × Char × Text) :=
  let lead := s.takeWhile Char.isAlpha
  match s.dropWhile Char.isAlpha with
  | c :: rest => if (c = '\'' || c = '"') && isStringLead lead then some (lead, c, rest) else none
  | [] => none

/-- A string with letters in front. -/
def Quoted.ofLead (lead content : Text) : Quoted :=
  let lead := lead.map Char.toLower
  ⟨lead.contains 'b', lead.contains 'r', lead.contains 'f', content⟩

/-! ## Marks -/

/-- The marks of more than one character, longer ones first. -/
def longMarks : List Text :=
  ["**=", "//=", "<<=", ">>=", "...", "!=", "%=", "&=", "**", "*=", "+=", "-=", "->", "//", "/=", ":=", "<<", "<=", "<>", "==",
    ">=", ">>", "@=", "^=", "|="].map of

/-- The mark at the beginning of a text that is not empty. -/
def markAt (s : Text) : Text := (longMarks.find? (fun m => s.startsWith m)).getD (s.take 1)

/-- The bracket that closes an open one. -/
def closingOf : Char → Char
  | '(' => ')'
  | '[' => ']'
  | _ => '\x7d'

/-- The most brackets that may be open at once. -/
def maxBrackets : Nat := 200

/-- The open brackets, innermost first, behind a mark. -/
def rebracket (mark : Text) (brackets : List Char) : Option (List Char) :=
  match mark with
  | [c] =>
    if ['(', '[', '\x7b'].contains c then if maxBrackets ≤ brackets.length then none else some (c :: brackets)
    else if [')', ']', '\x7d'].contains c then
      match brackets with
      | o :: brackets => if closingOf o = c then some brackets else none
      | [] => none
    else some brackets
  | _ => some brackets

/-- Whether a character may stand for itself in a module: a printable one of the first 128. -/
def isSign (c : Char) : Bool := 32 ≤ c.toNat && c.toNat < 127

/-! ## The tokens of a text -/

/-- How far the text has been cut: the number of the line, whether a line begins, the open levels and the open brackets. -/
structure Cut where
  line : Nat := 0
  atLineStart : Bool := true
  levels : List Depth := []
  brackets : List Char := []
  deriving DecidableEq, Repr

/-- One step of the cut: tokens, and how it goes on, if it does. -/
structure Step where
  tokens : List Token
  next : Option (Cut × Text)

/-- The step that ends the cut with a fault. -/
def Step.fail (cut : Cut) (f : Fault) : Step := ⟨[⟨.fault f, cut.line⟩], none⟩

/-- The step with one token, behind which the cut goes on. -/
def Step.one (cut : Cut) (kind : Kind) (after : Cut) (rest : Text) : Step := ⟨[⟨kind, cut.line⟩], some (after, rest)⟩

/-- The next token of a text that does not begin with a blank. -/
def cutToken (cut : Cut) : Text → Step
  | [] => if cut.brackets.isEmpty then ⟨[⟨.stop, cut.line⟩], none⟩ else Step.fail cut .unfinished
  | '\n' :: s =>
    let after := { cut with line := cut.line + 1 }
    if cut.brackets.isEmpty then Step.one cut .newline { after with atLineStart := true } s else ⟨[], some (after, s)⟩
  | '\\' :: s =>
    match s with
    | '\n' :: c :: rest => ⟨[], some ({ cut with line := cut.line + 1 }, c :: rest)⟩
    | _ => Step.fail cut .unfinished
  | c :: s =>
    match stringLead? (c :: s) with
    | some (lead, quote, rest) =>
      match stringBody quote rest with
      | some (content, rest) =>
        Step.one cut (.string (Quoted.ofLead lead content)) { cut with line := cut.line + content.count '\n' } rest
      | none => Step.fail cut .malformed
    | none =>
      if isNameStart c then
        let name := (c :: s).takeWhile isNameChar
        if isIdentifier name then Step.one cut (.word name) cut ((c :: s).dropWhile isNameChar) else Step.fail cut .malformed
      else if c.isDigit || (c = '.' && (s.head?.map Char.isDigit).getD false) then
        match numberEnd? (c :: s) with
        | some rest => Step.one cut .number cut rest
        | none => Step.fail cut .malformed
      else
        let mark := markAt (c :: s)
        match isSign c, rebracket mark cut.brackets with
        | true, some brackets => Step.one cut (.mark mark) { cut with brackets } ((c :: s).drop mark.length)
        | _, _ => Step.fail cut .malformed

/-- The text behind blanks and a comment. -/
def skipBlanks (s : Text) : Text :=
  let s := s.dropWhile fun c => c == ' ' || c == '\t' || c.toNat == 12
  if Text.startsWith s ['#'] then s.dropWhile (· != '\n') else s

/-- One step of the cut. -/
def Cut.step (cut : Cut) (s : Text) : Step :=
  if cut.atLineStart && cut.brackets.isEmpty then
    match measure ⟨0, 0⟩ none 0 s with
    | .error f => Step.fail cut f
    | .ok (depth, joined, s) =>
      let cut := { cut with line := cut.line + joined }
      match skipBlanks s with
      | '\n' :: rest => ⟨[], some ({ cut with line := cut.line + 1 }, rest)⟩
      | rest =>
        match relevel depth cut.levels with
        | .error f => Step.fail cut f
        | .ok (kinds, levels) =>
          let step := cutToken { cut with atLineStart := false, levels } rest
          { step with tokens := kinds.map (⟨·, cut.line⟩) ++ step.tokens }
  else cutToken cut (skipBlanks s)

/-- The tokens of the rest of a text; the number bounds the steps. -/
def tokensFrom : Nat → Cut → Text → List Token
  | 0, cut, _ => [⟨.fault .malformed, cut.line⟩]
  | n + 1, cut, s =>
    match cut.step s with
    | ⟨tokens, none⟩ => tokens
    | ⟨tokens, some (cut, rest)⟩ => tokens ++ tokensFrom n cut rest

/-- The tokens of a text. Every step takes a character, so that there are no more steps than characters and the end. -/
def tokens (s : Text) : List Token := tokensFrom (s.length + 1) {} s

end StepCatalog.Docstring
