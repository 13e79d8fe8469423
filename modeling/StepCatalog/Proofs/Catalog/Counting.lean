import Mathlib.Algebra.BigOperators.Group.List.Basic
import Mathlib.Algebra.GroupWithZero.Nat
import StepCatalog.Catalog.Usage
import StepCatalog.Proofs.Catalog.Outcome
import StepCatalog.Proofs.Entries

/-!
# Counting uses

Counting adds uses to the very registry that it asks for the steps of lines. But steps are looked up by their patterns alone, so
what a line uses can be told from the registry without its counts (`Registry.uncounted`), and a count over files is nothing but an
increment for every identifier that the files use, in order (`countLines_eq`, `countFiles_eq`).

Main statement: `recount_counts_uses`.
-/

namespace StepCatalog

/-! ## Tables of numbers -/

namespace Entries

variable {κ : Type} [DecidableEq κ]

/-- A number that grows by one makes the sum of the table grow by one. -/
theorem sum_put_succ (key : κ) (entries : List (κ × Nat)) :
    ((put key ((get? key entries).getD 0 + 1) entries).map (·.2)).sum = (entries.map (·.2)).sum + 1 := by
  induction entries with
  | nil => simp [put, get?]
  | cons e entries ih =>
    obtain ⟨k, v⟩ := e
    by_cases hk : k = key
    · simp only [put, get?, hk, if_true, Option.getD_some, List.map_cons, List.sum_cons]
      omega
    · simp only [put, get?, hk, if_false, List.map_cons, List.sum_cons, ih]
      omega

end Entries

namespace Catalog

open Text (of)

/-! ## Registries without counts -/

/-- The step as if it were never used. -/
def Step.uncounted (s : Step) : Step := { s with count := 0 }

namespace Registry

/-- The registry as if nothing were counted. Registries that differ in counts only have this in common. -/
def uncounted (r : Registry) : Registry := { r with counts := [], steps := r.steps.map Step.uncounted }

theorem uncounted_settings {r r' : Registry} (h : r.uncounted = r'.uncounted) : r.settings = r'.settings :=
  (congrArg Registry.settings h :)

theorem uncounted_rule {r r' : Registry} (h : r.uncounted = r'.uncounted) : r.rule = r'.rule :=
  (congrArg Registry.rule h :)

theorem uncounted_places {r r' : Registry} (h : r.uncounted = r'.uncounted) : r.places = r'.places :=
  (congrArg Registry.places h :)

theorem uncounted_steps {r r' : Registry} (h : r.uncounted = r'.uncounted) :
    r.steps.map Step.uncounted = r'.steps.map Step.uncounted :=
  (congrArg Registry.steps h :)

/-- Steps are looked up without regard to counts. -/
theorem findByText_uncounted (r : Registry) (text : Text) (t : Option Gherkin.StepType) :
    r.uncounted.findByText text t = (r.findByText text t).map Step.uncounted := by
  unfold findByText uncounted
  rw [List.find?_map]
  rfl

theorem knows_uncounted (r : Registry) : r.uncounted.knows = r.knows := by
  funext text
  simp [knows, findByText_uncounted]

theorem stepLine?_uncounted (r : Registry) : r.uncounted.stepLine? = r.stepLine? := by
  funext line document i
  unfold stepLine?
  rw [knows_uncounted]
  rfl

/-- The identifier of the step that a line of a document uses. -/
def usedAt? (r : Registry) (document : List Text) (line : Text) (i : Nat) : Option Text :=
  (r.stepAt? line document i).map (·.id)

theorem usedAt?_uncounted (r : Registry) : r.uncounted.usedAt? = r.usedAt? := by
  funext document line i
  unfold usedAt? stepAt?
  rw [stepLine?_uncounted]
  cases r.stepLine? line document i with
  | none => rfl
  | some l =>
    simp only [Option.bind_some, findByText_uncounted, Option.map_map]
    rfl

/-- Registries that differ in counts only see the same uses. -/
theorem usedAt?_congr {r r' : Registry} (h : r.uncounted = r'.uncounted) : r.usedAt? = r'.usedAt? := by
  rw [← usedAt?_uncounted r, h, usedAt?_uncounted]

/-! ## Increments -/

/-- The registry after a use of every identifier in order. -/
def incrementAll (r : Registry) (ids : List Text) : Registry := ids.foldl increment r

theorem incrementAll_append (r : Registry) (ids ids' : List Text) :
    r.incrementAll (ids ++ ids') = (r.incrementAll ids).incrementAll ids' := List.foldl_append

theorem count_increment (r : Registry) (id id' : Text) :
    (r.increment id).count id' = r.count id' + if id = id' then 1 else 0 := by
  unfold count increment
  rw [Entries.get?_put]
  by_cases h : id = id'
  · subst h
    simp [count]
  · simp [h]

/-- An increment changes nothing but counts. -/
theorem uncounted_increment (r : Registry) (id : Text) : (r.increment id).uncounted = r.uncounted := by
  have hsteps : (r.increment id).steps.map Step.uncounted = r.steps.map Step.uncounted := by
    unfold increment
    cases Entries.get? id r.places with
    | none => rfl
    | some i =>
      refine List.ext_getElem? fun j => ?_
      rw [List.getElem?_map, List.getElem?_map, List.getElem?_modify]
      cases r.steps[j]? with
      | none => rfl
      | some s =>
        simp only [Option.map_some]
        split <;> rfl
  unfold uncounted
  rw [hsteps]
  rfl

theorem count_incrementAll (r : Registry) (ids : List Text) (id : Text) :
    (r.incrementAll ids).count id = r.count id + ids.count id := by
  induction ids generalizing r with
  | nil => simp [incrementAll]
  | cons first ids ih =>
    have hstep := ih (r.increment first)
    rw [count_increment] at hstep
    rw [incrementAll, List.foldl_cons, ← incrementAll, hstep, List.count_cons]
    simp only [beq_iff_eq]
    omega

theorem uncounted_incrementAll (r : Registry) (ids : List Text) : (r.incrementAll ids).uncounted = r.uncounted := by
  induction ids generalizing r with
  | nil => rfl
  | cons id ids ih => exact (ih (r.increment id)).trans (uncounted_increment r id)

/-- The table after increments depends on the table before and the identifiers only. -/
theorem counts_incrementAll_congr {r r' : Registry} (h : r.counts = r'.counts) (ids : List Text) :
    (r.incrementAll ids).counts = (r'.incrementAll ids).counts := by
  induction ids generalizing r r' with
  | nil => exact h
  | cons id ids ih => exact ih (by simp [increment, count, h])

theorem sum_counts_incrementAll (r : Registry) (ids : List Text) :
    ((r.incrementAll ids).counts.map (·.2)).sum = (r.counts.map (·.2)).sum + ids.length := by
  induction ids generalizing r with
  | nil => rfl
  | cons id ids ih =>
    have hstep : ((r.increment id).counts.map (·.2)).sum = (r.counts.map (·.2)).sum + 1 := Entries.sum_put_succ id r.counts
    rw [incrementAll, List.foldl_cons, ← incrementAll, ih, hstep, List.length_cons]
    omega

theorem nodup_counts_incrementAll {r : Registry} (h : (r.counts.map (·.1)).Nodup) (ids : List Text) :
    ((r.incrementAll ids).counts.map (·.1)).Nodup := by
  induction ids generalizing r with
  | nil => exact h
  | cons id ids ih => exact ih (Entries.nodup_keys_put h id _)

/-! ## Showing counts -/

theorem uncounted_resetCounts (r : Registry) : r.resetCounts.uncounted = r.uncounted := rfl

@[simp] theorem count_refreshCounts (r : Registry) (id : Text) : r.refreshCounts.count id = r.count id := rfl

/-- In a refreshed registry every step shows its count. -/
theorem count_eq_of_mem_refreshCounts {r : Registry} {s : Step} (h : s ∈ r.refreshCounts.steps) :
    s.count = r.refreshCounts.count s.id := by
  obtain ⟨s', -, rfl⟩ := List.mem_map.1 h
  rfl

theorem uncounted_refreshCounts (r : Registry) : r.refreshCounts.uncounted = r.uncounted := by
  unfold uncounted refreshCounts
  simp only [List.map_map]
  rfl

/-- What steps showed before does not matter to what they show when they are refreshed. -/
theorem refreshed_steps (r : Registry) : r.refreshCounts.steps = (r.steps.map Step.uncounted).map r.recounted := by
  rw [List.map_map]
  rfl

/-- Registries that differ in counts only are equal once refreshed, if their tables are equal. -/
theorem refreshCounts_congr {r r' : Registry} (h : r.uncounted = r'.uncounted) (hc : r.counts = r'.counts) :
    r.refreshCounts = r'.refreshCounts := by
  have hrecounted : r.recounted = r'.recounted := by
    funext s
    simp [recounted, count, hc]
  have hsteps : r.refreshCounts.steps = r'.refreshCounts.steps := by
    rw [refreshed_steps, refreshed_steps, uncounted_steps h, hrecounted]
  obtain ⟨settings, rule, steps, places, counts⟩ := r
  obtain ⟨settings', rule', steps', places', counts'⟩ := r'
  obtain rfl : settings = settings' := uncounted_settings h
  obtain rfl : rule = rule' := uncounted_rule h
  obtain rfl : places = places' := uncounted_places h
  obtain rfl : counts = counts' := hc
  unfold refreshCounts at hsteps ⊢
  simp only at hsteps
  rw [hsteps]

/-! ## Uses in documents and files -/

/-- The identifiers that lines of a document use, each line with its number. -/
def usedIn (r : Registry) (document : List Text) (lines : List (Text × Nat)) : List Text :=
  lines.filterMap fun (line, i) => r.usedAt? document line i

/-- The identifiers that the lines of a text use. -/
def usedInText (r : Registry) (text : Text) : List Text := r.usedIn (splitLines text) (splitLines text).zipIdx

/-- The identifiers that files use; a file that cannot be read uses none. -/
def usedInFiles (r : Registry) (w : Workspace) (files : List Path) : List Text :=
  files.flatMap fun file =>
    match w.read file with
    | .ok text => r.usedInText text
    | .error _ => []

theorem usedInText_congr {r r' : Registry} (h : r.uncounted = r'.uncounted) (text : Text) :
    r.usedInText text = r'.usedInText text := by
  unfold usedInText usedIn
  rw [usedAt?_congr h]

theorem usedInFiles_congr {r r' : Registry} (h : r.uncounted = r'.uncounted) (w : Workspace) (files : List Path) :
    r.usedInFiles w files = r'.usedInFiles w files := by
  unfold usedInFiles
  simp only [usedInText_congr h]

/-- Counting lines is an increment for every identifier that they use: that the registry changes on the way does not change what the
next line uses. -/
theorem countLines_eq (document : List Text) (lines : List Text) (i : Nat) (r : Registry) :
    countLines document i lines r =
      (r.incrementAll (r.usedIn document (lines.zipIdx i)), (r.usedIn document (lines.zipIdx i)).length) := by
  induction lines generalizing i r with
  | nil => rfl
  | cons line rest ih =>
    unfold countLines
    cases hs : r.stepAt? line document i with
    | none =>
      have hused : r.usedIn document ((line :: rest).zipIdx i) = r.usedIn document (rest.zipIdx (i + 1)) := by
        simp [usedIn, usedAt?, hs]
      simp only [hused]
      exact ih (i + 1) r
    | some s =>
      have hused : r.usedIn document ((line :: rest).zipIdx i) = s.id :: r.usedIn document (rest.zipIdx (i + 1)) := by
        simp [usedIn, usedAt?, hs]
      have hsame : (r.increment s.id).usedIn document (rest.zipIdx (i + 1)) = r.usedIn document (rest.zipIdx (i + 1)) := by
        unfold usedIn
        rw [usedAt?_congr (uncounted_increment r s.id)]
      simp only [hused, ih, hsame]
      rfl

theorem countDocument_eq (r : Registry) (text : Text) :
    r.countDocument text = (r.incrementAll (r.usedInText text), (r.usedInText text).length) :=
  countLines_eq _ _ _ _

/-- The uses that an event reports. -/
def reportedUses : Event → Nat
  | .counted _ n => n
  | _ => 0

/-- A count over files that can be asked for is an increment for every identifier that they use, and it reports as many uses. -/
theorem countFiles_eq {w : Workspace} {files : List Path} (h : ∀ file ∈ files, file.holdsZero = false) (r : Registry) :
    (countFiles w files r).result = .ok (r.incrementAll (r.usedInFiles w files)) ∧
      ((countFiles w files r).events.map reportedUses).sum = (r.usedInFiles w files).length := by
  induction files generalizing r with
  | nil => exact ⟨rfl, rfl⟩
  | cons file rest ih =>
    have hrest : ∀ f ∈ rest, f.holdsZero = false := fun f hf => h f (List.mem_cons_of_mem _ hf)
    have hzero : file.holdsZero = false := h file (by simp)
    cases hread : w.read file with
    | error why =>
      have hcontent : contentOf w file = ⟨[.unreadable file why], .ok none⟩ := by simp [contentOf, hzero, hread]
      have hused : r.usedInFiles w (file :: rest) = r.usedInFiles w rest := by simp [usedInFiles, hread]
      obtain ⟨h1, h2⟩ := ih hrest r
      simp [countFiles, hcontent, Outcome.andThen, hused, h1, h2, reportedUses]
    | ok text =>
      have hcontent : contentOf w file = Outcome.pure (some text) := by simp [contentOf, hzero, hread]
      have hused : r.usedInFiles w (file :: rest) = r.usedInText text ++ r.usedInFiles w rest := by
        simp [usedInFiles, hread]
      obtain ⟨h1, h2⟩ := ih hrest (r.incrementAll (r.usedInText text))
      rw [usedInFiles_congr (uncounted_incrementAll r _)] at h1 h2
      simp [countFiles, hcontent, Outcome.andThen, Outcome.pure, Outcome.report, countDocument_eq, hused, h1, h2, reportedUses,
        incrementAll_append]

/-- A count that ends with a value has asked for files only that a file system takes. -/
theorem holdsZero_of_countFiles {w : Workspace} {files : List Path} {r r' : Registry}
    (h : (countFiles w files r).result = .ok r') : ∀ file ∈ files, file.holdsZero = false := by
  induction files generalizing r with
  | nil => simp
  | cons file rest ih =>
    intro f hf
    simp only [countFiles, Outcome.bind_eq_andThen, Outcome.andThen_result_eq_ok] at h
    obtain ⟨content, hcontent, hrest⟩ := h
    rcases List.mem_cons.1 hf with rfl | hf
    · by_contra hzero
      rw [Bool.not_eq_false] at hzero
      simp [contentOf, hzero, Outcome.fail] at hcontent
    · cases content with
      | none => exact ih hrest f hf
      | some text =>
        simp only [Outcome.andThen_result_eq_ok] at hrest
        obtain ⟨-, -, hrest⟩ := hrest
        exact ih hrest f hf

/-! ## A count from scratch -/

/-- The files that a count looks at. -/
def countedFiles (w : Workspace) (root : Path) : Option Text → List Path
  | none | some [] => []
  | some pattern => (w.findFiles root pattern).toOption.getD []

/-- A count completes if its glob is accepted and its files can be asked for. -/
def Countable (w : Workspace) (root : Path) : Option Text → Prop
  | none | some [] => True
  | some pattern => ∃ files, w.findFiles root pattern = .ok files ∧ ∀ file ∈ files, file.holdsZero = false

/-- What a count leaves behind: one increment from zero for every identifier that the files use, shown by the steps. -/
theorem recount_eq {w : Workspace} {root : Path} {glob : Option Text} (h : Countable w root glob) (r : Registry) :
    (r.recount w root glob).2.result = .ok () ∧
      (r.recount w root glob).1 = (r.resetCounts.incrementAll (r.usedInFiles w (countedFiles w root glob))).refreshCounts ∧
      ((r.recount w root glob).2.events.map reportedUses).sum = (r.usedInFiles w (countedFiles w root glob)).length := by
  match glob, h with
  | none, _ => exact ⟨rfl, rfl, rfl⟩
  | some [], _ => exact ⟨rfl, rfl, rfl⟩
  | some (c :: pattern), ⟨files, hfiles, hzero⟩ =>
    have hcounted : countedFiles w root (some (c :: pattern)) = files := by
      simp [countedFiles, hfiles, Except.toOption]
    obtain ⟨h1, h2⟩ := countFiles_eq (w := w) hzero r.resetCounts
    rw [usedInFiles_congr (uncounted_resetCounts r)] at h1 h2
    have hfind : findFiles w root (c :: pattern) = Outcome.pure files := by simp [findFiles, Outcome.ofExcept, hfiles]
    rw [hcounted]
    simp [recount, hfind, Outcome.andThen, Outcome.pure, h1, h2]

/-- A count starts from scratch. -/
theorem count_recount {w : Workspace} {root : Path} {glob : Option Text} (h : Countable w root glob) (r : Registry) (id : Text) :
    (r.recount w root glob).1.count id = (r.usedInFiles w (countedFiles w root glob)).count id := by
  rw [(recount_eq h r).2.1, count_refreshCounts, count_incrementAll]
  exact Nat.zero_add _

/-- A count changes nothing but counts. -/
theorem uncounted_recount {w : Workspace} {root : Path} {glob : Option Text} (h : Countable w root glob) (r : Registry) :
    (r.recount w root glob).1.uncounted = r.uncounted := by
  rw [(recount_eq h r).2.1, uncounted_refreshCounts, uncounted_incrementAll, uncounted_resetCounts]

/-- What was counted before a count does not matter. -/
theorem recount_congr {w : Workspace} {root : Path} {glob : Option Text} (h : Countable w root glob) {r r' : Registry}
    (hr : r.uncounted = r'.uncounted) : (r.recount w root glob).1 = (r'.recount w root glob).1 := by
  have hcounts : r.resetCounts.counts = r'.resetCounts.counts := rfl
  rw [(recount_eq h r).2.1, (recount_eq h r').2.1, usedInFiles_congr hr]
  refine refreshCounts_congr ?_ (counts_incrementAll_congr hcounts _)
  rw [uncounted_incrementAll, uncounted_incrementAll, uncounted_resetCounts, uncounted_resetCounts, hr]

theorem holdsZero_countedFiles {w : Workspace} {root : Path} {glob : Option Text} (h : Countable w root glob) :
    ∀ file ∈ countedFiles w root glob, file.holdsZero = false := by
  match glob, h with
  | none, _ => simp [countedFiles]
  | some [], _ => simp [countedFiles]
  | some (c :: pattern), ⟨files, hfiles, hzero⟩ => simpa [countedFiles, hfiles, Except.toOption] using hzero

/-- A count that has completed could be made. -/
theorem countable_of_recount {r : Registry} {w : Workspace} {root : Path} {glob : Option Text}
    (h : (r.recount w root glob).2.result = .ok ()) : Countable w root glob := by
  match glob with
  | none => trivial
  | some [] => trivial
  | some (c :: pattern) =>
    unfold recount at h
    simp only at h
    split at h
    · rename_i r' hcounted
      obtain ⟨files, hfiles, hcount⟩ := Outcome.andThen_result_eq_ok.1 hcounted
      exact ⟨files, Outcome.ofExcept_result_eq_ok.1 hfiles, holdsZero_of_countFiles hcount⟩
    · cases h

/-! ## The places of uses -/

/-- Whether a line of a document uses an identifier: it is a step line, and the first step whose full pattern is found in its text
has the identifier. -/
def uses (r : Registry) (id : Text) (document : List Text) (line : Text) (i : Nat) : Bool :=
  match r.stepLine? line document i with
  | none => false
  | some l => (r.steps.find? fun s => s.full.occursIn l.text).any (·.id == id)

/-- The places where files use an identifier: a file, as often as it is listed, and the number of a line. -/
def usePlaces (r : Registry) (w : Workspace) (files : List Path) (id : Text) : List (Path × Nat) :=
  files.flatMap fun file =>
    match w.read file with
    | .ok text =>
      ((splitLines text).zipIdx.filter fun (line, i) => r.uses id (splitLines text) line i).map fun (_, i) => (file, i)
    | .error _ => []

theorem uses_eq (r : Registry) (id : Text) (document : List Text) (line : Text) (i : Nat) :
    r.uses id document line i = (r.usedAt? document line i == some id) := by
  unfold uses usedAt? stepAt?
  cases r.stepLine? line document i with
  | none => rfl
  | some l =>
    simp only [Option.bind_some, findByText, isOfType, Bool.true_and]
    cases r.steps.find? fun s => s.full.occursIn l.text <;> simp

/-- There are as many places as uses. -/
theorem length_usePlaces (r : Registry) (w : Workspace) (files : List Path) (id : Text) :
    (r.usePlaces w files id).length = (r.usedInFiles w files).count id := by
  induction files with
  | nil => rfl
  | cons file rest ih =>
    unfold usePlaces usedInFiles at ih ⊢
    rw [List.flatMap_cons, List.flatMap_cons, List.length_append, List.count_append, ih]
    congr 1
    cases w.read file with
    | error why => rfl
    | ok text =>
      simp only [List.length_map, ← List.countP_eq_length_filter, usedInText, usedIn, List.count_filterMap, uses_eq]

/-- The order of the files does not matter to the number of uses. -/
theorem count_usedInFiles_perm {r : Registry} {w : Workspace} {files files' : List Path} (h : files.Perm files') (id : Text) :
    (r.usedInFiles w files).count id = (r.usedInFiles w files').count id :=
  (h.flatMap_right _).count_eq id

/-- A count that completes is exact and starts from scratch: every identifier has as many uses as there are places in the files that
use it. So neither the counts before nor the order of the files matter, a second count changes nothing, the counts add up to the
uses reported file by file, and every step shows its count, which is zero if nothing is counted. -/
theorem recount_counts_uses (r : Registry) (w : Workspace) (root : Path) (glob : Option Text)
    (h : (r.recount w root glob).2.result = .ok ()) :
    (∀ id, (r.recount w root glob).1.count id = (r.usePlaces w (countedFiles w root glob) id).length) ∧
    (∀ r' : Registry, r'.uncounted = r.uncounted →
      (r'.recount w root glob).2.result = .ok () ∧ (r'.recount w root glob).1 = (r.recount w root glob).1) ∧
    (∀ files, files.Perm (countedFiles w root glob) → ∃ r', (countFiles w files r.resetCounts).result = .ok r' ∧
      (∀ id, r'.count id = (r.recount w root glob).1.count id) ∧
      r'.refreshCounts.steps = (r.recount w root glob).1.steps) ∧
    ((r.recount w root glob).1.recount w root glob).1 = (r.recount w root glob).1 ∧
    ((r.recount w root glob).1.counts.map (·.1)).Nodup ∧
    ((r.recount w root glob).1.counts.map (·.2)).sum = ((r.recount w root glob).2.events.map reportedUses).sum ∧
    (∀ s ∈ (r.recount w root glob).1.steps, s.count = (r.recount w root glob).1.count s.id) ∧
    (glob = none ∨ glob = some [] → ∀ id, (r.recount w root glob).1.count id = 0) := by
  have hc := countable_of_recount h
  have hcount := count_recount hc r
  obtain ⟨-, heq, hevents⟩ := recount_eq hc r
  have hunchanged : (r.recount w root glob).1.uncounted = r.uncounted := uncounted_recount hc r
  refine ⟨fun id => ?_, fun r' hr' => ⟨(recount_eq hc r').1, recount_congr hc hr'⟩, fun files hfiles => ?_,
    recount_congr hc hunchanged, ?_, ?_, fun s hs => ?_, ?_⟩
  · rw [hcount, length_usePlaces]
  · have hzero : ∀ file ∈ files, file.holdsZero = false := fun file hf => holdsZero_countedFiles hc file (hfiles.subset hf)
    have hresult := (countFiles_eq (w := w) hzero r.resetCounts).1
    rw [usedInFiles_congr (uncounted_resetCounts r)] at hresult
    have hsame : ∀ id, (r.resetCounts.incrementAll (r.usedInFiles w files)).count id = (r.recount w root glob).1.count id := by
      intro id
      rw [hcount, count_incrementAll, count_usedInFiles_perm hfiles]
      exact Nat.zero_add _
    refine ⟨_, hresult, hsame, ?_⟩
    rw [refreshed_steps, uncounted_steps (uncounted_incrementAll r.resetCounts _), heq, refreshed_steps,
      uncounted_steps (uncounted_incrementAll r.resetCounts _)]
    refine List.map_congr_left fun s _ => ?_
    have hs := hsame s.id
    rw [heq] at hs
    rw [count_refreshCounts] at hs
    simp only [recounted, hs]
  · have hnone : (r.resetCounts.counts.map (·.1)).Nodup := List.nodup_nil
    rw [heq]
    exact nodup_counts_incrementAll hnone _
  · rw [hevents, heq]
    exact (sum_counts_incrementAll r.resetCounts _).trans (Nat.zero_add _)
  · rw [heq] at hs ⊢
    exact count_eq_of_mem_refreshCounts hs
  · rintro (rfl | rfl) id <;> rfl

/-- A registry with one step, some counts of old, and a feature file that uses the step twice. -/
theorem recount_counts_uses_twice :
    let x : Body.Pattern := ⟨of "x", .literal .exact (of "x")⟩
    let r : Registry :=
      { settings := { languages := [⟨"q", ["Given "], [], [], [], [], []⟩] }
        rule := .ofLanguages []
        steps := [⟨of "a", of "x", x, x, [], [], [], 0, .given, 7⟩]
        places := [(of "a", 0)]
        counts := [(of "a", 7), (of "b", 3)] }
    let w : Workspace := ⟨[([of "f"], .file ("Given x\nGiven y\n  Given x".toList.map fun c => c.toNat.toUInt8))]⟩
    (r.recount w [] (some (of "f"))).2.result = .ok () ∧ (r.recount w [] (some (of "f"))).1.count (of "a") = 2 := by
  intro x r w
  have h : (r.recount w [] (some (of "f"))).2.result = .ok () := by decide +kernel
  have huses : (r.usePlaces w (countedFiles w [] (some (of "f"))) (of "a")).length = 2 := by decide +kernel
  exact ⟨h, ((recount_counts_uses r w [] (some (of "f")) h).1 (of "a")).trans huses⟩

end Registry
end Catalog
end StepCatalog
