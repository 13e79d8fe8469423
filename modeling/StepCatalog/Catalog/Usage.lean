import StepCatalog.Catalog.Registry

/-!
# Counting uses

The uses of steps are counted from scratch over the feature files that a glob finds (`Registry.recount`). The old counts are
forgotten before the files are looked for, so that a glob that is refused leaves no counts behind, while the steps still show the
old ones.
-/

namespace StepCatalog.Catalog.Registry

/-- The registry with the uses in lines of a document added, the first of which has a number, and how many there were. -/
def countLines (document : List Text) : Nat → List Text → Registry → Registry × Nat
  | _, [], r => (r, 0)
  | i, line :: rest, r =>
    match r.stepAt? line document i with
    | none => countLines document (i + 1) rest r
    | some s =>
      let (r, n) := countLines document (i + 1) rest (r.increment s.id)
      (r, n + 1)

/-- The registry with the uses in a feature file added, and how many there were. -/
def countDocument (r : Registry) (text : Text) : Registry × Nat :=
  let lines := splitLines text
  countLines lines 0 lines r

/-- The registry with the uses in feature files added. -/
def countFiles (w : Workspace) : List Path → Registry → Outcome Registry
  | [], r => return r
  | file :: rest, r => do
    match ← contentOf w file with
    | none => countFiles w rest r
    | some text =>
      let (r, n) := r.countDocument text
      Outcome.report (.counted file n)
      countFiles w rest r

/-- The registry after a count over the files that a glob finds, if one is given and not empty: what it is in any case, and how the
count ended. -/
def recount (r : Registry) (w : Workspace) (root : Path) (glob : Option Text) : Registry × Outcome Unit :=
  let blank := r.resetCounts
  match glob with
  | none | some [] => (blank.refreshCounts, Outcome.pure ())
  | some pattern =>
    let counted := (findFiles w root pattern).andThen fun files => countFiles w files blank
    match counted.result with
    | .ok r => (r.refreshCounts, ⟨counted.events, .ok ()⟩)
    | .error e => (blank, ⟨counted.events, .error e⟩)

end StepCatalog.Catalog.Registry
