import StepCatalog.Text.Digit
import StepCatalog.Text.Utf8

/-!
# Percent-encoding

In an address every byte that is neither a letter, a digit, one of `_ . - ~` nor a slash is written as a percent sign with two
hexadecimal digits. Decoding takes runs of ASCII characters one by one, reads such bytes in each and decodes the run as UTF-8,
with replacement characters where it is none; a percent sign without two digits stands for itself.
-/

namespace StepCatalog.Percent

/-- The bytes that stand for themselves. -/
def isPlain (b : UInt8) : Bool :=
  let c := Char.ofNat b.toNat
  b.toNat < 128 && (c.isAlphanum || c == '_' || c == '.' || c == '-' || c == '~' || c == '/')

/-- A hexadecimal digit below sixteen. -/
def hexDigit (n : Nat) : Char := if n < 10 then Char.ofNat (48 + n) else Char.ofNat (55 + n)

/-- A byte as it is written. -/
def encodeByte (b : UInt8) : Text :=
  if isPlain b then [Char.ofNat b.toNat] else ['%', hexDigit (b.toNat / 16), hexDigit (b.toNat % 16)]

/-- A text percent-encoded. -/
def encode (s : Text) : Text := (Utf8.encode s).flatMap encodeByte

/-- The bytes of a run of ASCII characters. -/
def decodeBytes : Text → List UInt8
  | '%' :: h :: l :: s =>
    match hexDigitValue? h, hexDigitValue? l with
    | some a, some b => (a * 16 + b).toUInt8 :: decodeBytes s
    | _, _ => '%'.toNat.toUInt8 :: decodeBytes (h :: l :: s)
  | c :: s => c.toNat.toUInt8 :: decodeBytes s
  | [] => []

/-- The text of a percent-encoded one, of whose last run the given characters, latest first, have been passed. -/
def decodeFrom : Text → Text → Text
  | run, [] => Utf8.decodeLossy (decodeBytes run.reverse)
  | run, c :: s =>
    if c.toNat < 128 then decodeFrom (c :: run) s
    else Utf8.decodeLossy (decodeBytes run.reverse) ++ c :: decodeFrom [] s

/-- A percent-encoded text decoded. -/
def decode (s : Text) : Text := decodeFrom [] s

end StepCatalog.Percent
