import StepCatalog.Json.Value

/-!
# Writing JSON

Values are written on one line, with a blank behind every comma and colon; only quotation marks, backslashes and control characters
are escaped.
-/

namespace StepCatalog.Json

/-- The hexadecimal digits of a number, at least `width` of them. -/
def hexDigits (width n : Nat) : Text :=
  let digits := Nat.toDigits 16 n
  List.replicate (width - digits.length) '0' ++ digits

/-- A character inside a string. -/
def writeChar (c : Char) : Text :=
  match c with
  | '"' => Text.of "\\\""
  | '\\' => Text.of "\\\\"
  | '\n' => Text.of "\\n"
  | '\r' => Text.of "\\r"
  | '\t' => Text.of "\\t"
  | c =>
    if c.toNat = 8 then Text.of "\\b"
    else if c.toNat = 12 then Text.of "\\f"
    else if c.toNat < 32 then Text.of "\\u" ++ hexDigits 4 c.toNat
    else [c]

/-- A string in quotation marks. -/
def writeString (s : Text) : Text := '"' :: s.flatMap writeChar ++ ['"']

/-- A whole number. -/
def writeInt (n : Int) : Text := if n < 0 then '-' :: StepCatalog.decimal n.natAbs else StepCatalog.decimal n.natAbs

mutual

/-- The text of a value. -/
def write : Json → Text
  | .null => Text.of "null"
  | .bool b => Text.of (if b then "true" else "false")
  | .int n => writeInt n
  | .decimal written => written
  | .string s => writeString s
  | .array items => '[' :: writeItems items ++ [']']
  | .object fields => '\x7b' :: writeFields fields ++ ['\x7d']

/-- The items of an array with commas between them. -/
def writeItems : List Json → Text
  | [] => []
  | [v] => write v
  | v :: rest => write v ++ Text.of ", " ++ writeItems rest

/-- The fields of an object with commas between them. -/
def writeFields : List (Text × Json) → Text
  | [] => []
  | [(k, v)] => writeString k ++ Text.of ": " ++ write v
  | (k, v) :: rest => writeString k ++ Text.of ": " ++ write v ++ Text.of ", " ++ writeFields rest

end

end StepCatalog.Json
