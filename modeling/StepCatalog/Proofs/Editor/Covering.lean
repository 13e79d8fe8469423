import StepCatalog.Editor.Query
import StepCatalog.Proofs.Gherkin.Filling
import StepCatalog.Proofs.Gherkin.StepLines
import StepCatalog.Proofs.Gherkin.Tables

/-!
# What a diagnostic covers

A diagnostic begins where the step begins in the line that was looked up, and that line may have had its placeholders filled in. It
ends where the line as it was written ends. That both describe one stretch of the line as it was written rests on what a line begins
with (`margin`): a placeholder begins with a bracket and a value with a character that is no blank, so filling one in changes
neither the indentation nor whether anything stands behind it (`margin_replaceFirst`), and no more does filling in all of them
(`margin_fillPlaceholders`).

Main statement: `validate_covers_step`.
-/

namespace StepCatalog

open Text (of)

/-- The characters of a text from one place up to another. -/
def Text.slice (start stop : Nat) (s : Text) : Text := (s.take stop).drop start

namespace Gherkin

variable {ls : List Language}

/-! ## What a line begins with -/

/-- A text that begins with a character that is no blank. -/
def BeginsSolid (s : Text) : Prop := ∃ c rest, s = c :: rest ∧ isBlank c = false

/-- The indentation of a line, and whether the line is nothing else. -/
def margin (line : Text) : Text × Bool := (line.takeWhile isBlank, line.isBlankText)

theorem margin_of_blank {c : Char} (hc : isBlank c = true) (s : Text) : margin (c :: s) = (c :: (margin s).1, (margin s).2) := by
  simp [margin, Text.isBlankText, hc]

theorem margin_of_solid {s : Text} (h : BeginsSolid s) : margin s = ([], false) := by
  obtain ⟨c, rest, rfl, hc⟩ := h
  simp [margin, Text.isBlankText, hc]

/-- Where neither the old text nor the new one begins with a blank, replacing the one by the other keeps the margin of a line. -/
theorem margin_replaceFirst {old new : Text} (hold : BeginsSolid old) (hnew : BeginsSolid new) (line : Text) :
    margin (Text.replaceFirst old new line) = margin line := by
  obtain ⟨o, old', rfl, ho⟩ := hold
  obtain ⟨n, new', rfl, hn⟩ := hnew
  induction line with
  | nil => rfl
  | cons c s ih =>
    unfold Text.replaceFirst
    split
    · rename_i rest hafter
      have hc : c = o := (List.cons.inj (Text.after?_eq_some_iff.1 hafter)).1
      rw [List.cons_append, margin_of_solid ⟨n, new' ++ rest, rfl, hn⟩, margin_of_solid ⟨c, s, rfl, hc ▸ ho⟩]
    · by_cases hc : isBlank c = true
      · rw [margin_of_blank hc, margin_of_blank hc, ih]
      · rw [Bool.not_eq_true] at hc
        rw [margin_of_solid ⟨c, _, rfl, hc⟩, margin_of_solid ⟨c, _, rfl, hc⟩]

/-- Filling in placeholders keeps the margin of a line. -/
theorem margin_fillPlaceholders {b : Bindings} {write : Text → Text}
    (hvalues : ∀ name value, Entries.get? name b = some value → BeginsSolid (write value)) (names : List Text) (line : Text) :
    margin (fillPlaceholders b write names line) = margin line := by
  unfold fillPlaceholders
  induction names generalizing line with
  | nil => rfl
  | cons name names ih =>
    rw [List.foldl_cons, ih]
    split
    · rename_i value hvalue
      split
      · rfl
      · exact margin_replaceFirst ⟨'<', _, rfl, by decide⟩ (hvalues name value hvalue) line
    · rfl

/-! ## Values of a table -/

/-- A value that a row binds stands in a cell of the row, and its cell is not empty. -/
theorem beginsSolid_of_get?_bindRow {names : List Text} {row name value : Text}
    (h : Entries.get? name (bindRow names (rowCells row)) = some value) : BeginsSolid value := by
  rw [bindRow, ← bindCells, get?_bindCells_iff] at h
  obtain ⟨j, hcell, hne, -⟩ := h
  have hmem : value ∈ rowCells row := (List.of_mem_zip (List.mem_of_getElem? hcell)).2
  obtain ⟨cell, -, rfl⟩ := List.mem_map.1 hmem
  cases htrim : cell.trim with
  | nil => exact absurd htrim hne
  | cons c rest => exact ⟨c, rest, rfl, Text.isBlank_of_trim_eq_cons htrim⟩

theorem beginsSolid_of_get?_bindingsIn {lines : List Text} {name value : Text}
    (h : Entries.get? name (bindingsIn ls lines) = some value) : BeginsSolid value := by
  fun_induction bindingsIn ls lines with
  | case1 header names values rest _ => exact beginsSolid_of_get?_bindRow h
  | case2 header names values rest _ ih => exact ih h
  | case3 => cases h

/-! ## The margin of a step line -/

/-- A step line consists of its indentation and something behind it. -/
theorem margin_of_parse? (h : ∃ w, IsKeyword ls w) {line : Text} {s : StepLine} (hs : StepLine.parse? ls line = some s) :
    margin line = (s.indent, false) := by
  have hcuts := cuts_of_parse? h hs
  obtain ⟨rest, hrest, -⟩ := hcuts.rest
  obtain ⟨-, c, keyword, hkeyword, hc⟩ := hcuts.keyword.trimmed
  have hmem : c ∈ line := by
    rw [← List.takeWhile_append_dropWhile (p := isBlank) (l := line), hrest, hkeyword]
    simp
  have hsolid : line.isBlankText = false := by
    rw [Text.isBlankText, List.all_eq_false]
    exact ⟨c, hmem, by simp [hc]⟩
  rw [margin, hsolid, hcuts.indent]

/-- The step line of a line has the margin of the line as it was written, whatever was filled in. -/
theorem margin_of_stepLineIn? (h : ∃ w, IsKeyword ls w) {known : Text → Bool} {line : Text} {document : List Text}
    {lineNumber : Int} {s : StepLine} (hs : stepLineIn? ls known line document lineNumber = some s) :
    margin line = (s.indent, false) := by
  have hbare : margin (fillPlaceholders (outlineBindings ls document lineNumber) id (placeholderNames line) line) = margin line :=
    margin_fillPlaceholders (fun _ _ hget => beginsSolid_of_get?_bindingsIn hget) _ line
  have hquoted : margin (fillPlaceholders (outlineBindings ls document lineNumber) quoted (placeholderNames line) line) = margin line :=
    margin_fillPlaceholders (fun _ value _ => ⟨'"', value ++ ['"'], rfl, by decide⟩) _ line
  unfold stepLineIn? at hs
  split at hs
  · exact margin_of_parse? h hs
  · dsimp only at hs
    split at hs
    · rename_i q hq
      split at hs
      · cases hs
        rw [← hquoted]
        exact margin_of_parse? h hq
      · rw [← hbare]
        exact margin_of_parse? h hs
    · rw [← hbare]
      exact margin_of_parse? h hs

end Gherkin

namespace Editor

open Catalog Gherkin

/-! ## The stretch of a diagnostic -/

/-- Behind its indentation a line without the blanks at its end is the trimmed line. -/
theorem drop_indent_trimEnd (line : Text) :
    (Text.trimEnd line).drop ((Text.trimEnd line).takeWhile isBlank).length = Text.trim line := by
  rw [← Text.trimStart_trimEnd, Text.trimStart]
  conv_lhs => enter [2]; rw [← List.takeWhile_append_dropWhile (p := isBlank) (l := Text.trimEnd line)]
  rw [List.drop_left]

/-- The stretch of a line from its indentation to the blanks at its end. -/
theorem slice_trimmed (line : Text) :
    line.slice ((Text.trimEnd line).takeWhile isBlank).length (Text.trimEnd line).length = Text.trim line := by
  have htake : line.take (Text.trimEnd line).length = Text.trimEnd line :=
    (List.prefix_iff_eq_take.1 (Text.dropEndWhile_isPrefix isBlank line)).symm
  rw [Text.slice, htake, drop_indent_trimEnd]

/-- A line that is not blank goes on behind its indentation. -/
theorem length_indent_lt {line : Text} (h : line.isBlankText = false) : (line.takeWhile isBlank).length < line.length := by
  have hleads := List.takeWhile_prefix isBlank (l := line)
  refine Nat.lt_of_le_of_ne hleads.length_le fun hlength => ?_
  have hblank := List.takeWhile_eq_self_iff.1 (hleads.eq_of_length hlength)
  rw [Text.isBlankText, List.all_eq_true.2 hblank] at h
  cases h

/-- A line that is reported is covered from its indentation to its end, blanks at the end apart, and the message quotes what is
covered: the step as it was written, also where the step that was looked up had its placeholders filled in. A line is reported if it
is a step line for which no step is known. -/
theorem validate_covers_step (r : Registry) (hkeyword : ∃ w, IsKeyword r.settings.languages w) (line : Text) (document : List Text)
    (lineNumber : Int) (hlow : 0 ≤ lineNumber) (hhigh : lineNumber ≤ maxPosition) :
    ∃ report, validate r line lineNumber document = .ok report ∧
      (report.isSome = true ↔ ∃ s, r.stepLine? (Text.trimEnd line) document lineNumber = some s ∧
        r.findByText s.text (strictType r.settings.strictValidation.isSet r s.keyword lineNumber document) = none) ∧
      ∀ d, report = some d →
        d.range.startLine = lineNumber ∧ d.range.stopLine = lineNumber ∧
        d.range.startCharacter < d.range.stopCharacter ∧ d.range.stopCharacter = (Text.trimEnd line).length ∧
        line.slice d.range.startCharacter d.range.stopCharacter = Text.trim line ∧
        d.message = of "Was unable to find step for \"" ++ line.slice d.range.startCharacter d.range.stopCharacter ++ of "\"" := by
  cases hline : r.stepLine? (Text.trimEnd line) document lineNumber with
  | none => exact ⟨none, by simp [validate, hline], by simp, by simp⟩
  | some s =>
    cases hfound : r.findByText s.text (strictType r.settings.strictValidation.isSet r s.keyword lineNumber document) with
    | some step => exact ⟨none, by simp [validate, hline, hfound], by simp [hfound], by simp⟩
    | none =>
      refine ⟨some ⟨.within lineNumber.toNat s.indent.length (Text.trimEnd line).length, unknownMessage (Text.trimEnd line)⟩,
        by simp [validate, hline, hfound, unknownStep, hlow, hhigh, Except.map], by simp [hfound], ?_⟩
      rintro d ⟨⟩
      have hmargin := margin_of_stepLineIn? hkeyword hline
      have hindent : (Text.trimEnd line).takeWhile isBlank = s.indent := congrArg Prod.fst hmargin
      have hsolid : (Text.trimEnd line).isBlankText = false := congrArg Prod.snd hmargin
      have hlt := length_indent_lt hsolid
      have hslice := slice_trimmed line
      rw [hindent] at hlt hslice
      refine ⟨Int.toNat_of_nonneg hlow, Int.toNat_of_nonneg hlow, hlt, rfl, hslice, ?_⟩
      show unknownMessage (Text.trimEnd line) = _ ++ line.slice s.indent.length (Text.trimEnd line).length ++ _
      rw [hslice, unknownMessage, Text.trim_trimEnd]

/-- The first word of the line is a placeholder for the keyword, and blanks stand at both of its ends. -/
theorem validate_covers_step_outline :
    let r : Registry :=
      { settings := { languages := [⟨"q", ["Given "], [], [], [], [], ["Examples"]⟩] }, rule := .ofLanguages [] }
    let line := of "\t <word> <n> x \u3000"
    let document := [line, of "Examples:", of "| word | n |", of "| Given | 12 |"]
    r.stepLine? (Text.trimEnd line) document 0 = some ⟨of "\t ", of "Given", of " ", of "12 x"⟩ ∧
      ∃ d, validate r line 0 document = .ok (some d) ∧ d.range.startCharacter < d.range.stopCharacter ∧
        line.slice d.range.startCharacter d.range.stopCharacter = of "<word> <n> x" := by
  intro r line document
  have hstep : r.stepLine? (Text.trimEnd line) document 0 = some ⟨of "\t ", of "Given", of " ", of "12 x"⟩ := by decide +kernel
  have hkeyword : ∃ w, IsKeyword r.settings.languages w :=
    ⟨of "Given", _, List.mem_singleton_self _, .given, by decide, by decide +kernel⟩
  obtain ⟨report, hreport, hsome, hcovers⟩ := validate_covers_step r hkeyword line document 0 (by decide) (by decide)
  obtain ⟨d, rfl⟩ := Option.isSome_iff_exists.1 (hsome.2 ⟨_, hstep, rfl⟩)
  obtain ⟨-, -, hlt, -, hslice, -⟩ := hcovers d rfl
  exact ⟨hstep, d, hreport, hlt, hslice.trans (by decide +kernel)⟩

end Editor
end StepCatalog
