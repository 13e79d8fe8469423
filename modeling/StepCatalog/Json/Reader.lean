import StepCatalog.Json.Value
import StepCatalog.Text.Digit

/-!
# Reading JSON

A JSON text is read one character at a time, like a pattern: the draft holds the arrays and objects that are open, innermost first,
and the mode says what the next character belongs to. Besides the numbers of the format, `NaN`, `Infinity` and `-Infinity` are
read. An escape that names half of a surrogate pair without the other half is read as the replacement character.
-/

namespace StepCatalog.Json

/-- Why a text is refused. -/
inductive Error where
  | malformed
  /-- An integer has too many digits to be read. -/
  | numeralTooLong
  deriving DecidableEq, Repr

/-- An open array or object: what it holds so far (an array latest first), and for an object the key that waits for its value. -/
inductive Frame where
  | array (items : List Json)
  | object (fields : List (Text × Json)) (key : Text)

/-- A string so far: its characters, latest first, the first half of a surrogate pair that waits for the second, and whether the
string is a key. -/
structure StringDraft where
  chars : Text := []
  high : Option Nat := none
  isKey : Bool

/-- The string with a waiting half of a pair written as the replacement character. -/
def StringDraft.flush (s : StringDraft) : StringDraft :=
  match s.high with
  | none => s
  | some _ => { s with chars := Char.ofNat 0xFFFD :: s.chars, high := none }

/-- The string with a further character. -/
def StringDraft.push (s : StringDraft) (c : Char) : StringDraft :=
  let s := s.flush
  { s with chars := c :: s.chars }

/-- The string with a further unit that an escape names. -/
def StringDraft.pushUnit (s : StringDraft) (n : Nat) : StringDraft :=
  if 0xDC00 ≤ n && n ≤ 0xDFFF then
    match s.high with
    | some h => { s with chars := Char.ofNat (0x10000 + (h - 0xD800) * 0x400 + (n - 0xDC00)) :: s.chars, high := none }
    | none => s.push (Char.ofNat 0xFFFD)
  else if 0xD800 ≤ n && n ≤ 0xDBFF then
    let s := s.flush
    { s with high := some n }
  else s.push (Char.ofNat n)

/-- What the next character belongs to. -/
inductive Mode where
  /-- A value; right behind an opening bracket, the bracket may be closed instead. -/
  | value (mayClose : Bool)
  /-- A key; right behind an opening brace, the brace may be closed instead. -/
  | key (mayClose : Bool)
  | colon
  /-- What follows a value. -/
  | after
  | string (draft : StringDraft)
  | escape (draft : StringDraft)
  | unicode (draft : StringDraft) (left value : Nat)
  /-- A number or a word, latest character first. -/
  | bare (written : Text)

/-- A text read so far. -/
structure Draft where
  mode : Mode := .value false
  open_ : List Frame := []
  /-- The whole value, once it is complete. -/
  result : Option Json := none

namespace Draft

/-- The draft with a value completed. -/
def complete (d : Draft) (v : Json) : Draft :=
  match d.open_ with
  | [] => { d with mode := .after, result := some v }
  | .array items :: rest => { d with mode := .after, open_ := .array (v :: items) :: rest }
  | .object fields key :: rest => { d with mode := .after, open_ := .object (Entries.put key v fields) [] :: rest }

/-- The draft with the innermost array closed. -/
def closeArray (d : Draft) : Except Error Draft :=
  match d.open_ with
  | .array items :: rest => .ok ({ d with open_ := rest }.complete (.array items.reverse))
  | _ => .error .malformed

/-- The draft with the innermost object closed. -/
def closeObject (d : Draft) : Except Error Draft :=
  match d.open_ with
  | .object fields _ :: rest => .ok ({ d with open_ := rest }.complete (.object fields))
  | _ => .error .malformed

/-- The blanks between the parts of a JSON text. -/
def isLayout (c : Char) : Bool := c == ' ' || c == '\t' || c == '\n' || c == '\r'

/-- The characters of numbers and words. -/
def isBare (c : Char) : Bool := c.isAlphanum || c == '-' || c == '+' || c == '.'

/-- An unsigned whole number: a zero, or digits of which the first is no zero. -/
def isWhole : Text → Bool
  | [] => false
  | ['0'] => true
  | c :: s => c.isDigit && c != '0' && s.all Char.isDigit

/-- An exponent, without its letter. -/
def isExponent : Text → Bool
  | '+' :: s | '-' :: s => !s.isEmpty && s.all Char.isDigit
  | s => !s.isEmpty && s.all Char.isDigit

/-- An unsigned number with a fraction, an exponent or both. -/
def isFractional (s : Text) : Bool :=
  let (mantissa, rest) := Text.spanUntil (fun c => c == 'e' || c == 'E') s
  let (whole, fraction) := Text.spanUntil (· == '.') mantissa
  let fractionOk := match fraction with
    | [] => true
    | _ :: digits => !digits.isEmpty && digits.all Char.isDigit
  let exponentOk := match rest with
    | [] => true
    | _ :: e => isExponent e
  isWhole whole && fractionOk && exponentOk

/-- The number that digits write, with its sign. -/
def signed (negative : Bool) (digits : Text) : Except Error Json :=
  if maxNumeralDigits < digits.length then .error .numeralTooLong
  else .ok (.int (if negative then -Int.ofNat (numeralValue digits) else Int.ofNat (numeralValue digits)))

/-- The number that a text writes. -/
def number (written : Text) : Except Error Json :=
  let (negative, unsigned) := match written with
    | '-' :: s => (true, s)
    | s => (false, s)
  if isWhole unsigned then signed negative unsigned
  else if isFractional unsigned || unsigned == Text.of "Infinity" then .ok (.decimal written)
  else .error .malformed

/-- The value that a number or word writes. -/
def bareValue (written : Text) : Except Error Json :=
  if written = Text.of "null" then .ok .null
  else if written = Text.of "true" then .ok (.bool true)
  else if written = Text.of "false" then .ok (.bool false)
  else if written = Text.of "NaN" then .ok (.decimal written)
  else number written

/-- The draft with a string completed. -/
def closeString (d : Draft) (s : StringDraft) : Except Error Draft :=
  let text := s.flush.chars.reverse
  if s.isKey then
    match d.open_ with
    | .object fields _ :: rest => .ok { d with mode := .colon, open_ := .object fields text :: rest }
    | _ => .error .malformed
  else .ok (d.complete (.string text))

/-- The characters that single-letter escapes name. -/
def escaped? : Char → Option Char
  | '"' => some '"'
  | '\\' => some '\\'
  | '/' => some '/'
  | 'b' => some (Char.ofNat 8)
  | 'f' => some (Char.ofNat 12)
  | 'n' => some '\n'
  | 'r' => some '\r'
  | 't' => some '\t'
  | _ => none

/-- A character behind a complete value. -/
def feedAfter (d : Draft) (c : Char) : Except Error Draft :=
  if isLayout c then .ok { d with mode := .after }
  else
    match c, d.open_ with
    | ',', .array _ :: _ => .ok { d with mode := .value false }
    | ',', .object _ _ :: _ => .ok { d with mode := .key false }
    | ']', _ => d.closeArray
    | '\x7d', _ => d.closeObject
    | _, _ => .error .malformed

/-- A character where a value may begin. -/
def feedValue (d : Draft) (mayClose : Bool) (c : Char) : Except Error Draft :=
  if isLayout c then .ok d
  else
    match c with
    | '"' => .ok { d with mode := .string { isKey := false } }
    | '[' => .ok { d with mode := .value true, open_ := .array [] :: d.open_ }
    | '\x7b' => .ok { d with mode := .key true, open_ := .object [] [] :: d.open_ }
    | ']' => if mayClose then d.closeArray else .error .malformed
    | c => if isBare c then .ok { d with mode := .bare [c] } else .error .malformed

/-- A character inside a string. -/
def feedString (d : Draft) (s : StringDraft) (c : Char) : Except Error Draft :=
  if c = '"' then d.closeString s
  else if c = '\\' then .ok { d with mode := .escape s }
  else if c.toNat < 32 then .error .malformed
  else .ok { d with mode := .string (s.push c) }

/-- One character of the text. -/
def feed (d : Draft) (c : Char) : Except Error Draft :=
  match d.mode with
  | .value mayClose => d.feedValue mayClose c
  | .key mayClose =>
    if isLayout c then .ok d
    else if c = '"' then .ok { d with mode := .string { isKey := true } }
    else if c = '\x7d' && mayClose then d.closeObject
    else .error .malformed
  | .colon =>
    if isLayout c then .ok d else if c = ':' then .ok { d with mode := .value false } else .error .malformed
  | .after => d.feedAfter c
  | .string s => d.feedString s c
  | .escape s =>
    match escaped? c with
    | some e => .ok { d with mode := .string (s.push e) }
    | none => if c = 'u' then .ok { d with mode := .unicode s 4 0 } else .error .malformed
  | .unicode s left value =>
    match hexDigitValue? c with
    | none => .error .malformed
    | some n =>
      if left ≤ 1 then .ok { d with mode := .string (s.pushUnit (value * 16 + n)) }
      else .ok { d with mode := .unicode s (left - 1) (value * 16 + n) }
  | .bare written =>
    if isBare c then .ok { d with mode := .bare (c :: written) }
    else bareValue written.reverse >>= fun v => (d.complete v).feedAfter c

/-- The value of a text that has been read to its end. -/
def finish (d : Draft) : Except Error Json := do
  let d ← match d.mode with
    | .bare written => (bareValue written.reverse).map d.complete
    | _ => .ok d
  match d.open_, d.result with
  | [], some v => return v
  | _, _ => .error .malformed

end Draft

/-- The value that a text writes. -/
def ofText? (s : Text) : Except Error Json := s.foldlM Draft.feed {} >>= Draft.finish

end StepCatalog.Json
