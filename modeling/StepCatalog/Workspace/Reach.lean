import StepCatalog.Workspace.Wildcard
import StepCatalog.Workspace.Path

/-!
# What a glob can reach

A glob is looked up in a workspace, and a workspace is taken from a file system. Only the part of the file system that the glob can
reach has to be taken: what stands below the directory that its leading names lead to, as many names deep as there are names left,
or at any depth if one of them is `**`.
-/

namespace StepCatalog

open Text (of)

/-- A part of a file system: everything at or below a place, down to a depth if there is one. -/
structure Reach where
  /-- The way to the place, `..` included. -/
  way : Path
  place : Path
  depth : Option Nat
  deriving DecidableEq, Repr

/-- What a glob can reach from a base. Names behind a wildcard that lead back up widen the place. -/
def Glob.reach (base : Path) (pattern : Text) : Reach :=
  let names := Path.names pattern
  let fixed := names.takeWhile fun n => !Wildcard.isWild n
  let rest := names.dropWhile fun n => !Wildcard.isWild n
  let way : Path := (if Path.isAbsolute pattern then [] else base) ++ fixed
  let ups := rest.count Path.up
  { way
    place := way.resolve.take (way.resolve.length - ups)
    depth := if rest.contains (of "**") then none else some rest.length }

/-- The places on the way along a path, the top and the last one included, in order. -/
def Path.stations (p : Path) : List Path :=
  (List.range (p.length + 1)).map fun n => Path.resolve (p.take n)

end StepCatalog
