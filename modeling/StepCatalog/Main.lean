import StepCatalog.CommandLine.Log
import StepCatalog.Json.Writer
import StepCatalog.Workspace.Reach

/-!
# The command line

The part of the file system that a run can reach is taken into a workspace; the run itself is `CommandLine.run`. Files are listed
first and read only if a glob finds them.
-/

namespace StepCatalog.Main

open Text (of)

/-- A path as the file system takes it. -/
def pathString (p : Path) : String := String.ofList p.toText

/-- What stands at a path, a file without its content. -/
def entryAt? (p : Path) : IO (Option Entry) := do
  try
    let place ← IO.FS.realPath (pathString p)
    match (← place.metadata).type with
    | .file => return some (.file [])
    | .dir => return some .directory
    | _ => return none
  catch _ => return none

/-- What is listed at a path, if anything stands there. -/
def listed (p : Path) : IO (List (Path × Entry)) := do
  return match ← entryAt? p with
    | some e => [(p, e)]
    | none => []

/-- The names in a directory; links to directories are left out. -/
def namesIn (p : Path) : IO (List Text) := do
  try
    let place ← IO.FS.realPath (pathString p)
    let entries ← place.readDir
    let kept ← entries.toList.filterM fun e => do
      return (← e.path.symlinkMetadata).type != .symlink || !(← e.path.isDir)
    return kept.map fun e => of e.fileName
  catch _ => return []

/-- What is listed at or below a path, down to a depth if there is one. -/
partial def listedBelow (p : Path) (depth : Option Nat) : IO (List (Path × Entry)) := do
  let here ← listed p
  match here, depth with
  | [(_, .directory)], depth =>
    if depth == some 0 then return here
    else
      let below ← (← namesIn p).mapM fun n => listedBelow (p ++ [n]) (depth.map (· - 1))
      return here ++ below.flatten
  | _, _ => return here

/-- A file with its content; a file that cannot be read is empty. -/
def withContent (e : Path × Entry) : IO (Path × Entry) := do
  try
    let content ← IO.FS.readBinFile (pathString e.1)
    return (e.1, .file content.toList)
  catch _ => return e

/-- What is listed, with the contents of the files at some paths. -/
def withContents (wanted : List Path) (entries : List (Path × Entry)) : IO (List (Path × Entry)) :=
  entries.mapM fun e =>
    match e.2 with
    | .file _ => if wanted.contains e.1 then withContent e else return e
    | .directory => return e

/-- The workspace of what stands on the ways along some paths. -/
def workspaceAlong (ways : List Path) : IO Workspace := do
  let stations := (ways.flatMap Path.stations).eraseDups
  let entries ← stations.mapM listed
  return { entries := ← withContents stations entries.flatten }

/-- The workspace of what some globs can reach, with the contents of the files that they find. -/
def workspaceOf (start : Workspace) (root : Path) (globs : List Text) : IO Workspace := do
  let reaches := globs.map (Glob.reach root)
  let along ← workspaceAlong (reaches.map (·.way))
  let below ← reaches.mapM fun r => listedBelow r.place r.depth
  let known := start.entries ++ along.entries
  let fresh := below.flatten.filter fun e => !(known.any fun k => k.1 == e.1)
  let w : Workspace := { entries := known ++ fresh }
  let found := globs.flatMap fun g => (w.findFiles root g).toOption.getD []
  return { entries := ← withContents found w.entries }

/-- The globs that a run with settings looks up. -/
def globsOf (s : Settings) : List Text := s.steps ++ [s.featuresGlob?.getD (of "**/*.feature")]

/-- The workspace of a run. -/
def workspaceFor (o : CommandLine.Options) (cwd root : Path) : IO Workspace := do
  let given := (o.settings.map fun s => [cwd.below s, root.below s]).getD []
  let start ← workspaceAlong (root :: (root ++ CommandLine.defaultSettings) :: given)
  match CommandLine.settingsOf (CommandLine.settingsFile? o start cwd root) start with
  | .error _ => return start
  | .ok s => workspaceOf start root (globsOf s)

/-- A text printed as a line. -/
def printLine (out : IO.FS.Stream) (s : Text) : IO Unit := out.putStrLn (String.ofList s)

/-- A run, and the status with which it ends. -/
def perform (o : CommandLine.Options) : IO UInt32 := do
  let out ← IO.getStdout
  let err ← IO.getStderr
  let cwd : Path := Path.names (of (← IO.currentDir).toString)
  let root := (cwd.below (o.root.getD [])).resolve
  let w ← workspaceFor o cwd root
  let result := CommandLine.run o w cwd
  for e in result.events do printLine err (CommandLine.logLine e)
  match result.answer with
  | .ok (.json value) =>
    printLine out (Json.write value)
    return 0
  | .ok (.text s) =>
    out.putStr (String.ofList s)
    return 0
  | .error e =>
    printLine err e.message
    return 1

end StepCatalog.Main

open StepCatalog in
/-- The program. -/
def main (words : List String) : IO UInt32 := do
  match CommandLine.Options.ofWords (words.map Text.of) with
  | .ok o => Main.perform o
  | .error .help =>
    (← IO.getStdout).putStr (String.ofList CommandLine.helpText)
    return 0
  | .error .refused =>
    Main.printLine (← IO.getStderr) (Text.of "find-step: the options are refused; --help lists them")
    return 2
