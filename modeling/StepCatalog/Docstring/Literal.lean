import StepCatalog.Docstring.Token

/-!
# What strings denote

The text that a string of a module denotes: in a raw string every character stands for itself, elsewhere a backslash names a
character. Strings that stand next to each other are one string, which is formatted if one of them is; bytes stand only next to
bytes.
-/

namespace StepCatalog.Docstring

open Text (of)

/-- The character with a code point; halves of surrogate pairs, which no text holds, are written as the replacement character. -/
def charOf? (n : Nat) : Option Char :=
  if 0x10FFFF < n then none else if 0xD800 ≤ n && n ≤ 0xDFFF then some (Char.ofNat 0xFFFD) else some (Char.ofNat n)

/-- Where in an escape the next character stands. -/
inductive Escape where
  | none
  /-- Behind the backslash. -/
  | opened
  /-- One of `left` hexadecimal digits. -/
  | hex (left value : Nat)
  /-- Up to `left` more octal digits. -/
  | octal (left value : Nat)
  /-- In front of, and inside, the braces around the name of a character. -/
  | named
  | name
  deriving DecidableEq, Repr

/-- The character that a single letter behind a backslash names. -/
def letterEscape? : Char → Option Char
  | '\\' => some '\\'
  | '\'' => some '\''
  | '"' => some '"'
  | 'a' => some (Char.ofNat 7)
  | 'b' => some (Char.ofNat 8)
  | 'f' => some (Char.ofNat 12)
  | 'n' => some '\n'
  | 'r' => some '\r'
  | 't' => some '\t'
  | 'v' => some (Char.ofNat 11)
  | _ => none

/-- The value of an octal digit. -/
def octalDigit? (c : Char) : Option Nat := if '0' ≤ c && c ≤ '7' then some (c.toNat - 48) else none

/-- The text that the rest of a string denotes, from a place in an escape on. A backslash in front of any other character stands
for itself; of the name of a character only the braces are checked. -/
def unescape (isBytes : Bool) : Escape → Text → Option Text
  | .none, [] => some []
  | .none, '\\' :: s => unescape isBytes .opened s
  | .none, c :: s => (unescape isBytes .none s).map (c :: ·)
  | .opened, [] => some ['\\']
  | .opened, '\n' :: s => unescape isBytes .none s
  | .opened, c :: s =>
    match letterEscape? c, octalDigit? c with
    | some e, _ => (unescape isBytes .none s).map (e :: ·)
    | none, some n => unescape isBytes (.octal 2 n) s
    | none, none =>
      if c = 'x' then unescape isBytes (.hex 2 0) s
      else if c = 'u' && !isBytes then unescape isBytes (.hex 4 0) s
      else if c = 'U' && !isBytes then unescape isBytes (.hex 8 0) s
      else if c = 'N' && !isBytes then unescape isBytes .named s
      else (unescape isBytes .none s).map ('\\' :: c :: ·)
  | .hex _ _, [] => Option.none
  | .hex left value, c :: s =>
    match hexDigitValue? c with
    | some n =>
      if left ≤ 1 then
        match charOf? (value * 16 + n) with
        | some e => (unescape isBytes .none s).map (e :: ·)
        | none => Option.none
      else unescape isBytes (.hex (left - 1) (value * 16 + n)) s
    | none => Option.none
  | .octal _ value, [] => (charOf? value).map fun e => [e]
  | .octal left value, c :: s =>
    match octalDigit? c, charOf? value with
    | some n, _ =>
      if left ≤ 1 then
        match charOf? (value * 8 + n) with
        | some e => (unescape isBytes .none s).map (e :: ·)
        | none => Option.none
      else unescape isBytes (.octal (left - 1) (value * 8 + n)) s
    | none, some e =>
      if c = '\\' then (unescape isBytes .opened s).map (e :: ·) else (unescape isBytes .none s).map (e :: c :: ·)
    | none, none => Option.none
  | .named, '\x7b' :: s => unescape isBytes .name s
  | .named, _ => Option.none
  | .name, [] => Option.none
  | .name, '\x7d' :: s => (unescape isBytes .none s).map (Char.ofNat 0xFFFD :: ·)
  | .name, _ :: s => unescape isBytes .name s

/-- The text that a string denotes, if its escapes are in order and bytes hold none but the first 128 characters. -/
def Quoted.text? (q : Quoted) : Option Text :=
  if q.isBytes && q.content.any (fun c => 128 ≤ c.toNat) then none
  else if q.isRaw then some q.content
  else unescape q.isBytes .none q.content

/-- What strings next to each other denote: bytes, a formatted string, or a text. -/
inductive Denoted where
  | bytes
  | formatted
  | text (value : Text)
  deriving DecidableEq, Repr

/-- What strings next to each other denote, if they go together and their escapes are in order. The replacement fields of
formatted strings are not looked at here. -/
def denote? (qs : List Quoted) : Option Denoted :=
  if qs.any (·.isBytes) && qs.any (!·.isBytes) then none
  else
    match (qs.filter (!·.isFormatted)).mapM Quoted.text? with
    | none => none
    | some texts =>
      if qs.any (·.isBytes) then some .bytes
      else if qs.any (·.isFormatted) then some .formatted
      else some (.text texts.flatten)

end StepCatalog.Docstring
