import StepCatalog.Text.Lines
import StepCatalog.Text.Utf8
import StepCatalog.Workspace.Path

/-!
# Workspaces

A workspace holds files and directories under their paths; the directories on the way to an entry are there without being listed.
Looking a path up goes through it name by name, so that every name but the last must be that of a directory.
-/

namespace StepCatalog

/-- What a workspace lists under a path. -/
inductive Entry where
  | file (content : List UInt8)
  | directory
  deriving DecidableEq, Repr

/-- A workspace: its entries. -/
structure Workspace where
  entries : List (Path × Entry) := []
  deriving Repr

namespace Workspace

/-- The entry at a path without `..`; a directory on the way to an entry counts as one. -/
def entry? (w : Workspace) (p : Path) : Option Entry :=
  match w.entries.lookup p with
  | some e => some e
  | none => if p.isEmpty || w.entries.any (fun (q, _) => p.isPrefixOf q) then some .directory else none

/-- Whether a directory stands at a path. -/
def isDirectory (w : Workspace) (p : Path) : Bool := w.entry? p == some .directory

/-- Whether a file stands at a path. -/
def holdsFile (w : Workspace) (p : Path) : Bool :=
  match w.entry? p with
  | some (.file _) => true
  | _ => false

/-- The names directly under a path. -/
def children (w : Workspace) (p : Path) : List Text :=
  (w.entries.filterMap fun (q, _) => if p.isPrefixOf q then (q.drop p.length).head? else none).eraseDups

/-- The directories at or below a path: it, and those that listed entries make. -/
def directories (w : Workspace) (p : Path) : List Path :=
  let below := w.entries.flatMap fun (q, e) =>
    let depth := if e = .directory then q.length + 1 else q.length
    (List.range depth).map (q.take ·)
  p :: (below.filter fun q => p.isPrefixOf q && q != p).eraseDups

/-- Why no file can be read at a path. -/
inductive Unreadable where
  /-- Nothing stands there. -/
  | missing
  /-- The way there goes through a file. -/
  | throughFile
  | directory
  /-- The bytes of the file are no UTF-8. -/
  | notText
  deriving DecidableEq, Repr

/-- The place that a path leads to from another one: name by name, through directories only. -/
def walk (w : Workspace) : Path → List Text → Except Unreadable Path
  | p, [] => .ok p
  | p, n :: rest =>
    match w.entry? p with
    | none => .error .missing
    | some (.file _) => .error .throughFile
    | some .directory => walk w (if n = Path.up then p.dropLast else p ++ [n]) rest

/-- The entry at a path. -/
def find (w : Workspace) (p : Path) : Except Unreadable Entry := do
  let place ← w.walk [] p
  match w.entry? place with
  | some e => return e
  | none => throw .missing

/-- Whether a path leads to a file. -/
def isFile (w : Workspace) (p : Path) : Bool :=
  match w.find p with
  | .ok (.file _) => true
  | _ => false

/-- The text of the file that a path leads to, with its line ends unified. -/
def read (w : Workspace) (p : Path) : Except Unreadable Text := do
  match ← w.find p with
  | .directory => throw .directory
  | .file content =>
    match Utf8.decode? content with
    | some s => return unifyLineEnds s
    | none => throw .notText

/-- The workspace with an entry written at a path. -/
def write (w : Workspace) (p : Path) (e : Entry) : Workspace :=
  { w with entries := w.entries.filter (·.1 != p) ++ [(p, e)] }

/-- The workspace without what is listed at a path; the directories on the way to it stay. -/
def erase (w : Workspace) (p : Path) : Workspace :=
  { w with entries := w.entries.filter (·.1 != p) ++ [(p.dropLast, .directory)] }

end Workspace
end StepCatalog
