import StepCatalog.Text.Basic
import StepCatalog.Text.Percent

/-!
# Paths

A path is the list of names on the way from the top to a file or directory. The name `..` goes back up; empty names and `.` are
dropped where a path is read. The address of a file is its path, percent-encoded.
-/

namespace StepCatalog

open Text (of)

/-- A path from the top. -/
abbrev Path : Type := List Text

namespace Path

/-- The name that leads back up. -/
def up : Text := of ".."

/-- The names that a text writes. -/
def names (s : Text) : List Text := (Text.splitOn '/' s).filter fun n => !n.isEmpty && n != ['.']

/-- Whether a text writes a path from the top. -/
def isAbsolute (s : Text) : Bool := s.startsWith ['/']

/-- The path that a text writes, as seen from another one. -/
def below (base : Path) (s : Text) : Path := if isAbsolute s then names s else base ++ names s

/-- Whether a name of the path holds the character zero, which no file system takes. -/
def holdsZero (p : Path) : Bool := p.any (·.contains (Char.ofNat 0))

/-- A path as it is written. -/
def toText (p : Path) : Text := '/' :: Text.join ['/'] p

/-- The path without the names that lead back up. -/
def resolve (p : Path) : Path := p.foldl (fun q n => if n = up then q.dropLast else q ++ [n]) []

/-- The order of paths: name by name, and names by code points. -/
def le : Path → Path → Bool
  | [], _ => true
  | _ :: _, [] => false
  | a :: p, b :: q => if a = b then le p q else Text.le a b

/-- What stands behind the last full stop of a name, with it, if something stands on both sides of it. -/
def suffix (name : Text) : Text :=
  let tail := (name.reverse.takeWhile (· != '.')).reverse
  if tail.isEmpty || name.length ≤ tail.length + 1 then [] else '.' :: tail

/-- Whether a path leads to a Python module. -/
def isPythonModule (p : Path) : Bool := suffix (p.getLast?.getD []) == of ".py"

/-- The address of a file. -/
def toUri (p : Path) : Text := of "file://" ++ Percent.encode (toText p)

/-- The path of an address, which is decoded twice. -/
def ofUri (uri : Text) : Path :=
  names (Percent.decode (Percent.decode ((Text.after? (of "file://") uri).getD uri)))

end Path
end StepCatalog
