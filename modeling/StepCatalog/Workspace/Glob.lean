import StepCatalog.Workspace.Tree
import StepCatalog.Workspace.Wildcard

/-!
# Globs

A glob is a path whose names may be wildcards; the name `**` stands for any number of directories. It is looked up from a base
directory, or from the top if it begins with a slash (`Workspace.findFiles`). Found files are listed by their resolved paths, in
the order of paths; a file that is reached along different paths is listed once for each.
-/

namespace StepCatalog

open Text (of)

namespace Glob

/-- Why a glob is refused. -/
inductive Error where
  /-- It is the empty text. -/
  | empty
  /-- A name holds `**` and something else. -/
  | mixedDepth
  /-- It has no names. -/
  | noNames
  /-- It has no names, but a slash at the end. -/
  | onlySlash
  deriving DecidableEq, Repr

/-- A name of a glob. -/
inductive Part where
  | exact (name : Text)
  | wild (pattern : Wildcard)
  | anyDepth
  deriving DecidableEq, Repr

/-- The part that a name writes. -/
def Part.ofName? (name : Text) : Except Error Part :=
  if name = of "**" then .ok .anyDepth
  else if name.hasPart (of "**") then .error .mixedDepth
  else if Wildcard.isWild name then .ok (.wild (Wildcard.ofText name))
  else .ok (.exact name)

/-- A place reached on the way: the path taken to it, and where it is. -/
structure Place where
  taken : Path
  real : Path
  deriving DecidableEq, Repr

/-- The place of a name below another one. -/
def Place.go (l : Place) (name : Text) : Place :=
  ⟨l.taken ++ [name], if name = Path.up then l.real.dropLast else l.real ++ [name]⟩

/-- Whether a place is there and, if names are still to follow, is a directory. -/
def isOpen (w : Workspace) (more : Bool) (l : Place) : Bool := if more then w.isDirectory l.real else (w.entry? l.real).isSome

/-- The places that the parts of a glob lead to from a directory. -/
def select (w : Workspace) : List Part → Place → List Place
  | [], l => [l]
  | .exact name :: rest, l => if isOpen w (!rest.isEmpty) (l.go name) then select w rest (l.go name) else []
  | .wild pattern :: rest, l =>
    (((w.children l.real).filter pattern.holds).map l.go).flatMap fun m =>
      if isOpen w (!rest.isEmpty) m then select w rest m else []
  | .anyDepth :: rest, l =>
    ((w.directories l.real).flatMap fun d =>
      select w rest ⟨l.taken ++ d.drop l.real.length, d⟩).eraseDups

end Glob

open Glob in
/-- The files that the names of a glob lead to from a base. A slash at the end asks for directories, of which there are none
among files. -/
def Workspace.filesFrom (w : Workspace) (base : Path) (names : List Text) (endsOpen : Bool) : Except Glob.Error (List Path) :=
  match names, endsOpen with
  | [], false => .error .noNames
  | [], true => .error .onlySlash
  | names, endsOpen => do
    let parts ← names.mapM Part.ofName?
    if endsOpen || !w.isDirectory base then return []
    else
      let found := (select w parts ⟨base, base⟩).filter fun l => w.holdsFile l.real
      return (found.map (·.real)).mergeSort Path.le

/-- The files that a glob finds, seen from a base. -/
def Workspace.findFiles (w : Workspace) (base : Path) (pattern : Text) : Except Glob.Error (List Path) :=
  if Path.isAbsolute pattern then w.filesFrom [] (Path.names pattern) false
  else if pattern.isEmpty then .error .empty
  else w.filesFrom base (Path.names pattern) (pattern.getLast? == some '/')

end StepCatalog
