import Mathlib.Data.List.Nodup
import StepCatalog.Catalog.Registry
import StepCatalog.Proofs.Catalog.Outcome
import StepCatalog.Proofs.Entries

/-!
# What a build finds

A build that completes has found the files of every glob and the steps of every file, and it registers the first step of every
identifier among them (`build_result_eq_ok`, `firsts_eq_firstOccurrences`). The identifiers of what it registers are distinct, each
is the one of the step's text, and its table of places lists every step where it stands (`placesOf_eq`).
-/

namespace StepCatalog

namespace Catalog

/-! ## First occurrences -/

/-- The steps before which no step has their identifier, in order. -/
def firstOccurrences (steps : List Step) : List Step :=
  (steps.zipIdx.filter fun (s, i) => (steps.take i).all (·.id != s.id)).map (·.1)

namespace Registry

/-- What is kept when identifiers have been seen before: the first occurrences of the others. -/
theorem firstsFrom_eq (seen : List Text) (steps : List Step) :
    firstsFrom seen steps =
      (steps.zipIdx.filter fun (s, i) => !seen.contains s.id && (steps.take i).all (·.id != s.id)).map (·.1) := by
  induction steps generalizing seen with
  | nil => rfl
  | cons first rest ih =>
    have hzip : (first :: rest).zipIdx = (first, 0) :: rest.zipIdx.map fun (s, i) => (s, i + 1) := by
      rw [List.zipIdx_cons, List.zipIdx_succ]
    rw [hzip, List.filter_cons, List.filter_map]
    by_cases hseen : seen.contains first.id = true
    · -- an identifier equal to the first one has been seen already
      have hsame : ∀ p ∈ rest.zipIdx, (!seen.contains p.1.id && ((first :: rest).take (p.2 + 1)).all (·.id != p.1.id)) =
          (!seen.contains p.1.id && (rest.take p.2).all (·.id != p.1.id)) := by
        intro p _
        by_cases heq : first.id = p.1.id
        · rw [← heq, hseen]
          rfl
        · have hne : (first.id != p.1.id) = true := bne_iff_ne.2 heq
          simp [hne]
      rw [firstsFrom, if_pos hseen, ih]
      simp only [hseen, Bool.not_true, Bool.false_and, Bool.false_eq_true, if_false, List.map_map, Function.comp_def]
      rw [List.filter_congr hsame]
    · have hsame : ∀ p ∈ rest.zipIdx, (!seen.contains p.1.id && ((first :: rest).take (p.2 + 1)).all (·.id != p.1.id)) =
          (!(first.id :: seen).contains p.1.id && (rest.take p.2).all (·.id != p.1.id)) := by
        intro p _
        by_cases heq : first.id = p.1.id
        · simp [heq]
        · have hne : (first.id != p.1.id) = true := bne_iff_ne.2 heq
          have hne' : p.1.id ≠ first.id := fun h => heq h.symm
          simp [hne, hne']
      rw [firstsFrom, if_neg hseen, ih]
      simp only [hseen, List.take_zero, List.all_nil, Bool.not_false, Bool.and_true, if_true, List.map_cons, List.map_map,
        Function.comp_def]
      rw [List.filter_congr hsame]

theorem firsts_eq_firstOccurrences (steps : List Step) : firsts steps = firstOccurrences steps := by
  rw [firsts, firstsFrom_eq]
  rfl

/-- The first occurrences are a subsequence. -/
theorem firstsFrom_sublist (seen : List Text) (steps : List Step) : (firstsFrom seen steps).Sublist steps := by
  induction steps generalizing seen with
  | nil => exact .slnil
  | cons first rest ih =>
    unfold firstsFrom
    split
    · exact (ih seen).cons _
    · exact (ih _).cons_cons _

/-- Nothing that is kept has been seen before. -/
theorem id_not_mem_of_mem_firstsFrom {seen : List Text} {steps : List Step} {s : Step} (h : s ∈ firstsFrom seen steps) :
    s.id ∉ seen := by
  rw [firstsFrom_eq] at h
  obtain ⟨p, hp, rfl⟩ := List.mem_map.1 h
  have := (List.mem_filter.1 hp).2
  simp only [Bool.and_eq_true, Bool.not_eq_true', List.contains_eq_mem, decide_eq_false_iff_not] at this
  exact this.1

/-- What is kept has distinct identifiers. -/
theorem nodup_ids_firstsFrom (seen : List Text) (steps : List Step) : ((firstsFrom seen steps).map (·.id)).Nodup := by
  induction steps generalizing seen with
  | nil => exact List.nodup_nil
  | cons first rest ih =>
    unfold firstsFrom
    split
    · exact ih seen
    · rw [List.map_cons, List.nodup_cons]
      refine ⟨fun hmem => ?_, ih _⟩
      obtain ⟨s, hs, hid⟩ := List.mem_map.1 hmem
      exact id_not_mem_of_mem_firstsFrom hs (by simp [hid])

/-! ## Places -/

/-- Steps with distinct identifiers are listed each where it stands. -/
theorem placesOf_eq {steps : List Step} (h : (steps.map (·.id)).Nodup) :
    placesOf steps = steps.zipIdx.map fun (s, i) => (s.id, i) := by
  set listed : List (Text × Nat) := steps.zipIdx.map fun (s, i) => (s.id, i) with hlisted
  have hkeys : listed.map (·.1) = steps.map (·.id) := by
    conv_rhs => rw [← List.zipIdx_map_fst 0 steps]
    rw [hlisted, List.map_map, List.map_map]
    rfl
  have hnodup : ((([] : List (Text × Nat)) ++ listed).map (·.1)).Nodup := by
    rw [List.nil_append, hkeys]
    exact h
  have hfold := Entries.foldl_put_eq_append hnodup
  rw [hlisted, List.foldl_map, List.nil_append] at hfold
  exact hfold

end Registry

/-! ## Steps of definitions -/

/-- Whether a body ends the scan it is found in: it cannot be compiled, and not because it gives no regular expression. -/
def abortsBody (s : Settings) (body : Text) : Bool :=
  match Body.compile (bodyKind s) body with
  | .ok _ | .error (.rejected _) => false
  | .error _ => true

/-- The steps that `make` makes of a body. -/
def bodySteps (s : Settings) (make : Body.Compiled → Step) (body : Text) : List Step :=
  (Body.compile (bodyKind s) body).toOption.toList.map make

theorem stepOf_result_eq_ok {s : Settings} {make : Body.Compiled → Step} {uri : Text} {line : Nat} (body : Text)
    (steps : List Step) :
    (stepOf (bodyKind s) make uri line body).result = .ok steps ↔ abortsBody s body = false ∧ steps = bodySteps s make body := by
  unfold stepOf abortsBody bodySteps
  match Body.compile (bodyKind s) body with
  | .ok c => simp [Except.toOption, @eq_comm _ steps]
  | .error (.rejected _) => simp [Except.toOption]
  | .error (.refused _) => simp [Outcome.fail]
  | .error (.noSource _) => simp [Outcome.fail]

namespace Located

/-- Whether a definition ends the scan it is found in: it has no keyword or no body, or one of its bodies ends it. -/
def aborts (s : Settings) (l : Located) : Bool :=
  match l.found.keyword?, l.found.body? with
  | some _, some body => (bodiesOf s body).any (abortsBody s)
  | _, _ => true

/-- The steps that a definition gives unless it ends the scan, its bodies that are not to be kept left out. -/
def listed (s : Settings) (uri : Text) (d : Documentation) (keep : Text → Bool) (l : Located) : List Step :=
  match l.found.keyword?, l.found.body? with
  | some keyword, some body =>
    ((bodiesOf s body).filter keep).flatMap (bodySteps s (l.step uri (d.of l) (Gherkin.definitionTypeOf s.languages keyword)))
  | _, _ => []

theorem steps_result_eq_ok {s : Settings} {uri : Text} {d : Documentation} (l : Located) (steps : List Step) :
    (l.steps s uri d).result = .ok steps ↔ l.aborts s = false ∧ steps = l.listed s uri d fun _ => true := by
  unfold Located.steps aborts listed
  split
  · simp [Outcome.fail, *]
  · simp [Outcome.fail, *]
  · rename_i keyword body hkeyword hbody
    simp only [hkeyword, hbody, List.filter_true, List.any_eq_false, Bool.not_eq_true]
    exact Outcome.flatMap_result_eq_ok stepOf_result_eq_ok

end Located

/-! ## Steps of files -/

/-- The documentation of functions, if the file is a module that has it and can be read. -/
def docstringsIn (file : Path) (content : Text) : List (Nat × Text) :=
  if file.isPythonModule then (Docstring.docstrings content).toOption.getD [] else []

theorem moduleDocstrings_result (file : Path) (content : Text) :
    (moduleDocstrings file content).result = .ok (docstringsIn file content) := by
  unfold moduleDocstrings docstringsIn
  split
  · split <;> simp_all [Outcome.pure, Except.toOption]
  · rfl

/-- What documents the definitions of a file with a content. -/
def documentationIn (file : Path) (content : Text) : Documentation := ⟨docstringsIn file content, Source.blockComments content⟩

/-- The definitions of a file; a file that cannot be read has none. -/
def definitionsOf (s : Settings) (rule : Definition.Rule) (w : Workspace) (file : Path) : List Located :=
  match w.read file with
  | .ok content => definitionsIn s rule content
  | .error _ => []

/-- The steps of the definitions of a file, bodies that are not to be kept left out. -/
def listedSteps (s : Settings) (rule : Definition.Rule) (w : Workspace) (keep : Path → Located → Text → Bool) (file : Path) :
    List Step :=
  match w.read file with
  | .ok content =>
    (definitionsIn s rule content).flatMap fun l => l.listed s file.toUri (documentationIn file content) (keep file l)
  | .error _ => []

/-- The scan of a file completes if the file can be asked for and no definition in it ends the scan. -/
def Scannable (s : Settings) (rule : Definition.Rule) (w : Workspace) (file : Path) : Prop :=
  file.holdsZero = false ∧ ∀ l ∈ definitionsOf s rule w file, l.aborts s = false

/-- What the scan of a file gives. -/
theorem fileSteps_result_eq_ok {s : Settings} {rule : Definition.Rule} {w : Workspace} (file : Path) (steps : List Step) :
    (fileSteps s rule w file).result = .ok steps ↔
      Scannable s rule w file ∧ steps = listedSteps s rule w (fun _ _ _ => true) file := by
  unfold fileSteps Scannable definitionsOf listedSteps contentOf
  by_cases hzero : file.holdsZero = true
  · simp [hzero, Outcome.andThen, Outcome.fail]
  · rw [Bool.not_eq_true] at hzero
    cases hread : w.read file with
    | error why => simp [hzero, Outcome.andThen]
    | ok content =>
      simp only [hzero, Bool.false_eq_true, if_false, Outcome.bind_eq_andThen, true_and]
      rw [Outcome.andThen_result (a := some content) rfl]
      unfold stepsIn
      simp only [Outcome.bind_eq_andThen]
      rw [Outcome.andThen_result (moduleDocstrings_result file content)]
      simp only [Outcome.andThen_result_eq_ok, Outcome.flatMap_result_eq_ok Located.steps_result_eq_ok, Outcome.report_result,
        Outcome.pure_result]
      constructor
      · rintro ⟨_, ⟨hdefs, rfl⟩, _, -, hsteps⟩
        exact ⟨hdefs, (Except.ok.inj hsteps).symm⟩
      · rintro ⟨hdefs, rfl⟩
        exact ⟨_, ⟨hdefs, rfl⟩, (), trivial, rfl⟩

/-- A listed step is made of a body of a definition of the file that gives a regular expression. -/
theorem mem_listedSteps {s : Settings} {rule : Definition.Rule} {w : Workspace} {keep : Path → Located → Text → Bool} {file : Path}
    {x : Step} (h : x ∈ listedSteps s rule w keep file) :
    ∃ content l keyword body c, w.read file = .ok content ∧ l ∈ definitionsIn s rule content ∧
      l.found.keyword? = some keyword ∧ Body.compile (bodyKind s) body = .ok c ∧
      x = l.step file.toUri ((documentationIn file content).of l) (Gherkin.definitionTypeOf s.languages keyword) c := by
  unfold listedSteps at h
  cases hread : w.read file with
  | error why => simp [hread] at h
  | ok content =>
    simp only [hread, List.mem_flatMap] at h
    obtain ⟨l, hl, hx⟩ := h
    unfold Located.listed at hx
    split at hx
    · rename_i keyword body hkeyword hbody
      obtain ⟨b, -, hx⟩ := List.mem_flatMap.1 hx
      unfold bodySteps at hx
      obtain ⟨c, hc, rfl⟩ := List.mem_map.1 hx
      refine ⟨content, l, keyword, b, c, rfl, hl, hkeyword, ?_, rfl⟩
      cases hcompiled : Body.compile (bodyKind s) b with
      | error e => simp [hcompiled, Except.toOption] at hc
      | ok c' =>
        simp only [hcompiled, Except.toOption, Option.toList_some, List.mem_singleton] at hc
        rw [hc]
    · cases hx

/-! ## Building -/

namespace Registry

/-- The files that globs find, glob by glob. -/
def globFiles (w : Workspace) (root : Path) (globs : List Text) : List Path :=
  globs.flatMap fun glob => (w.findFiles root glob).toOption.getD []

/-- A glob is scanned to the end if it is accepted and each of its files is. -/
theorem globSteps_result_eq_ok {r : Registry} {w : Workspace} {root : Path} (glob : Text) (steps : List Step) :
    (r.globSteps w root glob).result = .ok steps ↔
      (∃ files, w.findFiles root glob = .ok files ∧ ∀ file ∈ files, Scannable r.settings r.rule w file) ∧
      steps = (globFiles w root [glob]).flatMap (listedSteps r.settings r.rule w fun _ _ _ => true) := by
  -- whether the glob finds nothing is reported, and makes no other difference
  have hreport : ∀ (files : List Path) (rest : Outcome (List Step)),
      (if files.isEmpty then (Outcome.report (.noStepFiles glob root)).andThen fun _ => rest else rest).result =
        rest.result := by
    intro files rest
    split <;> rfl
  unfold globSteps findFiles
  simp only [Outcome.bind_eq_andThen, Outcome.andThen_result_eq_ok, Outcome.ofExcept_result_eq_ok, hreport,
    Outcome.flatMap_result_eq_ok fileSteps_result_eq_ok]
  constructor
  · rintro ⟨files, hfiles, hscannable, rfl⟩
    exact ⟨⟨files, hfiles, hscannable⟩, by simp [globFiles, hfiles, Except.toOption]⟩
  · rintro ⟨⟨files, hfiles, hscannable⟩, rfl⟩
    exact ⟨files, hfiles, hscannable, by simp [globFiles, hfiles, Except.toOption]⟩

/-- The registry with steps in place of its own, each with its count and its place. -/
def withSteps (r : Registry) (steps : List Step) : Registry :=
  { r with steps := steps.map r.recounted, places := placesOf (steps.map r.recounted) }

/-- A build completes if its globs are accepted and every file that they find is scanned to the end; it registers the first step of
every identifier that the files list. -/
theorem build_result_eq_ok {r r' : Registry} {w : Workspace} {root : Path} {globs : List Text} :
    (r.build w root globs).result = .ok r' ↔
      (∀ glob ∈ globs, ∃ files, w.findFiles root glob = .ok files ∧ ∀ file ∈ files, Scannable r.settings r.rule w file) ∧
      r' = r.withSteps
        (firstOccurrences ((globFiles w root globs).flatMap (listedSteps r.settings r.rule w fun _ _ _ => true))) := by
  have hfound : ∀ glob, globFiles w root [glob] = (w.findFiles root glob).toOption.getD [] := fun glob => by simp [globFiles]
  unfold build
  simp only [Outcome.bind_eq_andThen, Outcome.andThen_result_eq_ok, Outcome.flatMap_result_eq_ok globSteps_result_eq_ok,
    Outcome.report_result, Outcome.pure_result, firsts_eq_firstOccurrences, hfound]
  rw [globFiles, List.flatMap_assoc]
  constructor
  · rintro ⟨_, ⟨hglobs, rfl⟩, _, -, hr⟩
    exact ⟨hglobs, (Except.ok.inj hr).symm⟩
  · rintro ⟨hglobs, rfl⟩
    exact ⟨_, ⟨hglobs, rfl⟩, (), trivial, rfl⟩

end Registry
end Catalog
end StepCatalog
