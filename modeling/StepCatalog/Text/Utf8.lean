import StepCatalog.Text.Basic

/-!
# UTF-8

Texts as bytes and back. Reading either refuses bytes that are no UTF-8 (`decode?`), or puts one replacement character for every
longest beginning of a character that goes wrong (`decodeLossy`).
-/

namespace StepCatalog.Utf8

/-- The bytes of a character. -/
def encodeChar (c : Char) : List UInt8 :=
  let n := c.toNat
  if n < 0x80 then [n.toUInt8]
  else if n < 0x800 then [(0xC0 + n / 0x40).toUInt8, (0x80 + n % 0x40).toUInt8]
  else if n < 0x10000 then
    [(0xE0 + n / 0x1000).toUInt8, (0x80 + n / 0x40 % 0x40).toUInt8, (0x80 + n % 0x40).toUInt8]
  else
    [(0xF0 + n / 0x40000).toUInt8, (0x80 + n / 0x1000 % 0x40).toUInt8, (0x80 + n / 0x40 % 0x40).toUInt8,
      (0x80 + n % 0x40).toUInt8]

/-- The bytes of a text. -/
def encode (s : Text) : List UInt8 := s.flatMap encodeChar

/-- What stands at the head of bytes: a character of some bytes, or some bytes that begin no character. -/
inductive Head where
  | char (c : Char) (size : Nat)
  | bad (size : Nat)
  deriving DecidableEq, Repr

/-- What a first byte promises: the number of bytes to follow, the bounds of the next one, and its share of the code point. -/
def promise? (b : Nat) : Option (Nat × Nat × Nat × Nat) :=
  if b < 0x80 then some (0, 0, 0, b)
  else if 0xC2 ≤ b && b ≤ 0xDF then some (1, 0x80, 0xBF, b - 0xC0)
  else if b = 0xE0 then some (2, 0xA0, 0xBF, 0)
  else if b = 0xED then some (2, 0x80, 0x9F, 0xD)
  else if 0xE1 ≤ b && b ≤ 0xEF then some (2, 0x80, 0xBF, b - 0xE0)
  else if b = 0xF0 then some (3, 0x90, 0xBF, 0)
  else if b = 0xF4 then some (3, 0x80, 0x8F, 4)
  else if 0xF1 ≤ b && b ≤ 0xF3 then some (3, 0x80, 0xBF, b - 0xF0)
  else none

/-- The rest of a character: `owed` more bytes, the next one within bounds, after `size` bytes with the value so far. -/
def follow : Nat → Nat → Nat → Nat → Nat → List UInt8 → Head
  | 0, _, _, value, size, _ => .char (Char.ofNat value) size
  | _ + 1, _, _, _, size, [] => .bad size
  | owed + 1, lo, hi, value, size, b :: rest =>
    if lo ≤ b.toNat && b.toNat ≤ hi then follow owed 0x80 0xBF (value * 0x40 + (b.toNat - 0x80)) (size + 1) rest
    else .bad size

/-- What stands at the head of bytes of which the first is `b`. -/
def head (b : UInt8) (rest : List UInt8) : Head :=
  match promise? b.toNat with
  | none => .bad 1
  | some (owed, lo, hi, value) => follow owed lo hi value 1 rest

/-- The heads of bytes one after the other, of whose last one `skip` bytes are still to be passed over. -/
def headsFrom : Nat → List UInt8 → List Head
  | _, [] => []
  | skip + 1, _ :: rest => headsFrom skip rest
  | 0, b :: rest =>
    match head b rest with
    | .char c size => .char c size :: headsFrom (size - 1) rest
    | .bad size => .bad size :: headsFrom (size - 1) rest

/-- The character of a head, if it is one. -/
def Head.char? : Head → Option Char
  | .char c _ => some c
  | .bad _ => none

/-- The text of bytes that are UTF-8 throughout. -/
def decode? (bytes : List UInt8) : Option Text := (headsFrom 0 bytes).mapM Head.char?

/-- The character that stands for bytes that are no UTF-8. -/
def replacement : Char := Char.ofNat 0xFFFD

/-- The text of bytes, whatever they are. -/
def decodeLossy (bytes : List UInt8) : Text := (headsFrom 0 bytes).map fun h => h.char?.getD replacement

end StepCatalog.Utf8
