import StepCatalog.CommandLine.Run
import StepCatalog.Proofs.Catalog.Counting

/-!
# Three views of a step line

The step of a line is looked up when its uses are counted, when its definition is asked for and when the line is validated.
Counting and definitions look at the line as it stands; validation takes the blanks at its end off first. So what validation says
is what the other two say of the line without these blanks (`validate_reports_iff`), and where no line of a document ends with a
blank, each of its step lines is either counted or reported (`mem_stepLines_iff`, `validate_agrees`). A blank at the end of a line can
have both or neither happen to it (`validate_overlooks_trailing_blank`).

Main statement: `validate_agrees`.
-/

namespace StepCatalog

open Text (of)

/-! ## Lines by their numbers -/

/-- The numbers of the lines of a document with a property. -/
def lineNumbers (p : Text → Nat → Bool) (document : List Text) : List Nat :=
  (document.zipIdx.filter fun (line, i) => p line i).map (·.2)

theorem mem_lineNumbers {p : Text → Nat → Bool} {document : List Text} {i : Nat} :
    i ∈ lineNumbers p document ↔ ∃ line, document[i]? = some line ∧ p line i = true := by
  simp only [lineNumbers, List.mem_map, List.mem_filter]
  constructor
  · rintro ⟨⟨line, j⟩, ⟨hmem, hp⟩, rfl⟩
    exact ⟨line, List.mem_zipIdx_iff_getElem?.1 hmem, hp⟩
  · rintro ⟨line, hline, hp⟩
    exact ⟨(line, i), ⟨List.mem_zipIdx_iff_getElem?.2 hline, hp⟩, rfl⟩

namespace Catalog.Registry

/-- The numbers of the step lines of a document. -/
def stepLines (r : Registry) (document : List Text) : List Nat :=
  lineNumbers (fun line i => (r.stepLine? line document i).isSome) document

/-- The numbers of the lines of a document that use a step. -/
def usedLines (r : Registry) (document : List Text) : List Nat :=
  lineNumbers (fun line i => (r.usedAt? document line i).isSome) document

/-- A count finds as many uses as there are lines that use a step. -/
theorem countDocument_eq_length (r : Registry) (text : Text) :
    (r.countDocument text).2 = (r.usedLines (splitLines text)).length := by
  rw [countDocument_eq, usedLines, lineNumbers, List.length_map, usedInText, usedIn, List.length_filterMap_eq_countP,
    List.countP_eq_length_filter]

end Catalog.Registry

namespace Editor

open Catalog

/-! ## Validation of a line -/

/-- Whether a line is a step line whose step has no definition. -/
def isUnknown (r : Registry) (document : List Text) (line : Text) (i : Nat) : Prop :=
  (r.stepLine? line document i).isSome = true ∧ findDefinition r line document i = none

/-- A definition is found where a step is used. -/
theorem findDefinition_eq_none_iff {r : Registry} {document : List Text} {line : Text} {i : Nat} :
    findDefinition r line document i = none ↔ (r.usedAt? document line i).isSome = false := by
  rw [findDefinition, Registry.usedAt?, Option.map_eq_none_iff, Option.isSome_map, Option.isSome_eq_false_iff, Option.isNone_iff_eq_none]

/-- Validation reports a line if the line without the blanks at its end is unknown. -/
theorem validate_reports_iff {r : Registry} (hstrict : r.settings.strictValidation.isSet = false) (document : List Text)
    (line : Text) {i : Nat} (hi : i ≤ maxPosition) :
    ∃ d, validate r line i document = .ok d ∧ (d.isSome = true ↔ isUnknown r document (Text.trimEnd line) i) := by
  simp only [isUnknown, findDefinition, Registry.stepAt?]
  cases hline : r.stepLine? (Text.trimEnd line) document i with
  | none => exact ⟨none, by simp [validate, hline], by simp⟩
  | some s =>
    cases hfound : r.findByText s.text none with
    | some step => exact ⟨none, by simp [validate, hline, strictType, hstrict, hfound], by simp [hfound]⟩
    | none =>
      refine ⟨some ⟨.within i s.indent.length (Text.trimEnd line).length, unknownMessage (Text.trimEnd line)⟩, ?_,
        by simp [hfound]⟩
      simp [validate, hline, strictType, hstrict, hfound, unknownStep, hi, Except.map]

/-! ## Validation of a document -/

/-- The numbers of the lines that a validation reports. -/
def reportedLines (checked : List (Nat × Text × Option Diagnostic)) : List Nat := (checked.filter (·.2.2.isSome)).map (·.1)

/-- Lines that can each be validated can be validated together, and each has its own diagnostic. -/
theorem validateFrom_eq {r : Registry} {document : List Text} {report : Text → Nat → Option Diagnostic} {lines : List Text} {k : Nat}
    (h : ∀ line i, (line, i) ∈ lines.zipIdx k → validate r line i document = .ok (report line i)) :
    validateFrom r document k lines = .ok ((lines.zipIdx k).map fun (line, i) => (i, line, report line i)) := by
  induction lines generalizing k with
  | nil => rfl
  | cons line lines ih =>
    have hfirst := h line k (by simp)
    have hrest := ih fun l i hl => h l i (by rw [List.zipIdx_cons]; exact List.mem_cons_of_mem _ hl)
    simp only [validateFrom, hfirst, hrest, bind, Except.bind, pure, Except.pure, List.zipIdx_cons, List.map_cons]

/-- A document with lines that can all be reported is validated, and a line is reported if it is unknown without the blanks at its
end. -/
theorem validateLines_reports {r : Registry} (hstrict : r.settings.strictValidation.isSet = false) {document : List Text}
    (hlength : document.length ≤ maxPosition + 1) :
    ∃ checked, validateLines r document = .ok checked ∧
      ∀ i, i ∈ reportedLines checked ↔ ∃ line, document[i]? = some line ∧ isUnknown r document (Text.trimEnd line) i := by
  -- every number of a line can be reported
  have hlines : ∀ line i, (line, i) ∈ document.zipIdx → i ≤ maxPosition := by
    intro line i hmem
    have := (List.getElem?_eq_some_iff.1 (List.mem_zipIdx_iff_getElem?.1 hmem)).1
    omega
  have hvalidate : ∀ line i, (line, i) ∈ document.zipIdx →
      validate r line i document = .ok ((validate r line i document).toOption.getD none) := by
    intro line i hmem
    obtain ⟨d, hd, -⟩ := validate_reports_iff hstrict document line (hlines line i hmem)
    rw [hd]
    rfl
  refine ⟨_, validateFrom_eq hvalidate, fun i => ?_⟩
  rw [reportedLines, List.filter_map, List.map_map]
  change i ∈ lineNumbers (fun line i => ((validate r line i document).toOption.getD none).isSome) document ↔ _
  rw [mem_lineNumbers]
  refine exists_congr fun line => and_congr_right fun hline => ?_
  obtain ⟨d, hd, hreports⟩ := validate_reports_iff hstrict document line (hlines line i (List.mem_zipIdx_iff_getElem?.2 hline))
  rw [hd]
  exact hreports

/-- A step line uses a step or is unknown, and not both. -/
theorem mem_stepLines_iff (r : Registry) (document : List Text) (i : Nat) :
    (i ∈ r.stepLines document ↔ i ∈ r.usedLines document ∨ ∃ line, document[i]? = some line ∧ isUnknown r document line i) ∧
      (i ∈ r.usedLines document → ¬∃ line, document[i]? = some line ∧ isUnknown r document line i) := by
  simp only [Registry.stepLines, Registry.usedLines, mem_lineNumbers, isUnknown, findDefinition_eq_none_iff]
  refine ⟨⟨?_, ?_⟩, ?_⟩
  · rintro ⟨line, hline, hstep⟩
    cases hused : (r.usedAt? document line i).isSome with
    | true => exact .inl ⟨line, hline, hused⟩
    | false => exact .inr ⟨line, hline, hstep, hused⟩
  · rintro (⟨line, hline, hused⟩ | ⟨line, hline, hstep, -⟩)
    · refine ⟨line, hline, ?_⟩
      rw [Registry.usedAt?, Registry.stepAt?, Option.isSome_map] at hused
      cases hstep : r.stepLine? line document i with
      | none => simp [hstep] at hused
      | some s => rfl
    · exact ⟨line, hline, hstep⟩
  · rintro ⟨line, hline, hused⟩ ⟨line', hline', -, hunused⟩
    obtain rfl : line = line' := Option.some.inj (hline.symm.trans hline')
    rw [hused] at hunused
    cases hunused

/-- Validation, definitions and counts agree about a line without the blanks at its end: it is reported if it is a step line and no
definition is found for it. So they agree about every line that does not end with a blank; and in a document of such lines every
step line is either counted or reported, and listed as unknown then. -/
theorem validate_agrees (r : Registry) (hstrict : r.settings.strictValidation.isSet = false) :
    (∀ (document : List Text) (line : Text) (i : Nat), i ≤ maxPosition →
      ∃ d, validate r line i document = .ok d ∧
        (d.isSome = true ↔ (r.stepLine? (Text.trimEnd line) document i).isSome = true ∧
          findDefinition r (Text.trimEnd line) document i = none) ∧
        (Text.trimEnd line = line →
          (d.isSome = true ↔ (r.stepLine? line document i).isSome = true ∧ findDefinition r line document i = none))) ∧
    (∀ text, (splitLines text).length ≤ maxPosition + 1 → (∀ line ∈ splitLines text, Text.trimEnd line = line) →
      ∃ checked, validateLines r (splitLines text) = .ok checked ∧
        (∀ i, i ∈ r.stepLines (splitLines text) ↔ i ∈ r.usedLines (splitLines text) ∨ i ∈ reportedLines checked) ∧
        (∀ i ∈ r.usedLines (splitLines text), i ∉ reportedLines checked) ∧
        (r.countDocument text).2 = (r.usedLines (splitLines text)).length ∧
        ∀ w file, file.holdsZero = false → w.read file = .ok text →
          (CommandLine.unknownLines r w file).result =
            .ok (checked.filterMap fun (i, line, d) => d.map (CommandLine.unknownLine file i line))) := by
  refine ⟨fun document line i hi => ?_, fun text hlength hblanks => ?_⟩
  · obtain ⟨d, hd, hreports⟩ := validate_reports_iff hstrict document line hi
    refine ⟨d, hd, hreports, fun htrim => ?_⟩
    rw [htrim] at hreports
    exact hreports
  · obtain ⟨checked, hchecked, hreported⟩ := validateLines_reports hstrict hlength
    have hunknown : ∀ i, i ∈ reportedLines checked ↔
        ∃ line, (splitLines text)[i]? = some line ∧ isUnknown r (splitLines text) line i := by
      intro i
      rw [hreported i]
      refine exists_congr fun line => and_congr_right fun hline => ?_
      rw [hblanks line (List.mem_of_getElem? hline)]
    refine ⟨checked, hchecked, fun i => ?_, fun i hi => ?_, r.countDocument_eq_length text, fun w file hzero hread => ?_⟩
    · rw [hunknown i]
      exact (mem_stepLines_iff r _ i).1
    · rw [hunknown i]
      exact (mem_stepLines_iff r _ i).2 hi
    · have hcontent : contentOf w file = Outcome.pure (some text) := by simp [contentOf, hzero, hread]
      simp [CommandLine.unknownLines, hcontent, hchecked, Outcome.andThen, Outcome.pure, Outcome.ofExcept]

/-- A feature file with a use of the one step that is known, an unknown step and a line that is no step line. -/
theorem validate_agrees_feature :
    let x : Body.Pattern := ⟨of "^x$", .ofSeq [.anchor .textStart, .literal .exact (of "x"), .anchor .finalEnd]⟩
    let r : Registry :=
      { settings := { languages := [⟨"q", ["Given "], [], [], [], [], []⟩] }
        rule := .ofLanguages []
        steps := [⟨of "a", of "x", x, x, [], [], [], 0, .given, 0⟩]
        places := [(of "a", 0)] }
    let text := of "Feature: f\n  Given x\n  Given y"
    r.settings.strictValidation.isSet = false ∧ (∀ line ∈ splitLines text, Text.trimEnd line = line) ∧
      r.stepLines (splitLines text) = [1, 2] ∧ r.usedLines (splitLines text) = [1] ∧
      ∃ checked, validateLines r (splitLines text) = .ok checked ∧ 2 ∈ reportedLines checked ∧ 1 ∉ reportedLines checked := by
  intro x r text
  have hblanks : ∀ line ∈ splitLines text, Text.trimEnd line = line := by decide +kernel
  have hsteps : r.stepLines (splitLines text) = [1, 2] := by decide +kernel
  have hused : r.usedLines (splitLines text) = [1] := by decide +kernel
  obtain ⟨checked, hchecked, hcovered, hapart, -⟩ := (validate_agrees r rfl).2 text (by decide +kernel) hblanks
  refine ⟨rfl, hblanks, hsteps, hused, checked, hchecked, ?_, hapart 1 (by rw [hused]; decide)⟩
  have htwo := (hcovered 2).1 (by rw [hsteps]; decide)
  rw [hused] at htwo
  exact htwo.resolve_left (by decide)

/-- With a blank at its end, a line that uses no step is not reported, and one that uses a step is. -/
theorem validate_overlooks_trailing_blank :
    let registry (pattern : Body.Pattern) : Registry :=
      { settings := { languages := [⟨"q", ["Given "], [], [], [], [], []⟩] }
        rule := .ofLanguages []
        steps := [⟨of "a", of "x", pattern, pattern, [], [], [], 0, .given, 0⟩]
        places := [(of "a", 0)] }
    let x := registry ⟨of "^x$", .ofSeq [.anchor .textStart, .literal .exact (of "x"), .anchor .finalEnd]⟩
    let xBlank := registry ⟨of "x $", .ofSeq [.literal .exact (of "x "), .anchor .finalEnd]⟩
    let line := of "Given x "
    ((x.stepLine? line [line] 0).isSome = true ∧ findDefinition x line [line] 0 = none ∧ (x.countDocument line).2 = 0 ∧
      validate x line 0 [line] = .ok none) ∧
    ((findDefinition xBlank line [line] 0).isSome = true ∧ (xBlank.countDocument line).2 = 1 ∧
      validate xBlank line 0 [line] = .ok (some ⟨.within 0 0 7, unknownMessage line⟩)) := by
  decide +kernel

end Editor
end StepCatalog
