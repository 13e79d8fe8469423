import StepCatalog.Proofs.Catalog.Scan
import StepCatalog.Proofs.Definition.Keyword
import StepCatalog.Proofs.Source.Clearing

/-!
# Line numbers of steps

A step carries the number of the line in which its definition begins, among the lines that are left when comments are cleared.
These have the numbers of the physical lines if no blank line stands directly above a line comment, and only then: a line comment
takes the blank lines above it along.

Main statement: `clearComments_keeps_lines`.
-/

namespace StepCatalog.Catalog

open Source
open Text (of)

/-- Definitions are found each in the line with its number, alone or together with the next one. -/
theorem mem_definitionsFrom {rule : Definition.Rule} {k : Nat} {lines : List Text} {l : Located} :
    l ∈ definitionsFrom rule k lines ↔
      ∃ i line, lines[i]? = some line ∧ l.line = k + i ∧ definitionAt rule line lines[i + 1]? = some (l.source, l.found) := by
  induction lines generalizing k with
  | nil => simp [definitionsFrom]
  | cons line rest ih =>
    have hlater : l ∈ definitionsFrom rule (k + 1) rest ↔ ∃ i line', (line :: rest)[i + 1]? = some line' ∧ l.line = k + (i + 1) ∧
        definitionAt rule line' (line :: rest)[i + 1 + 1]? = some (l.source, l.found) := by
      rw [ih]
      simp only [List.getElem?_cons_succ, Nat.add_right_comm k 1, Nat.add_assoc]
    have hfirst : (line :: rest)[0 + 1]? = rest.head? := by rw [List.getElem?_cons_succ, List.head?_eq_getElem?]
    rw [definitionsFrom]
    constructor
    · intro h
      split at h
      · rename_i source found hat
        rcases List.mem_cons.1 h with rfl | h
        · exact ⟨0, line, rfl, rfl, by rw [hfirst]; exact hat⟩
        · obtain ⟨i, hi⟩ := hlater.1 h
          exact ⟨i + 1, hi⟩
      · obtain ⟨i, hi⟩ := hlater.1 h
        exact ⟨i + 1, hi⟩
    · rintro ⟨i, line', hline, hnumber, hat⟩
      cases i with
      | zero =>
        obtain rfl : line = line' := Option.some.inj hline
        obtain ⟨number, source, found⟩ := l
        obtain rfl : number = k := hnumber
        rw [hfirst] at hat
        simp [hat]
      | succ i =>
        have hrest := hlater.2 ⟨i, line', hline, hnumber, hat⟩
        split
        · exact List.mem_cons_of_mem _ hrest
        · exact hrest

/-- A definition that begins in a line is the first in the line alone; or, if neither the line nor the next one holds one by itself, the
first in the two together. -/
theorem definitionAt_eq_some {rule : Definition.Rule} {line source : Text} {next : Option Text} {found : Definition.Found} :
    definitionAt rule line next = some (source, found) ↔ rule.find? source = some found ∧
      (source = line ∨
        ∃ below, next = some below ∧ source = line ++ below ∧ rule.find? line = none ∧ rule.find? below = none) := by
  unfold definitionAt
  cases hline : rule.find? line with
  | some found' =>
    constructor
    · intro h
      obtain ⟨rfl, rfl⟩ := Prod.mk.inj (Option.some.inj h)
      exact ⟨hline, .inl rfl⟩
    · rintro ⟨hfound, rfl | ⟨_, _, _, hnone, _⟩⟩
      · rw [hline] at hfound
        rw [Option.some.inj hfound]
      · cases hnone
  | none =>
    have halone (hfound : rule.find? source = some found) : source ≠ line := by
      rintro rfl
      rw [hline] at hfound
      cases hfound
    cases next with
    | none => simpa using fun hfound => halone hfound
    | some below =>
      simp only [Bool.or_eq_true, List.isEmpty_iff, Option.some.injEq]
      constructor
      · intro h
        split at h
        · cases h
        · rename_i hbelow
          rw [not_or, Option.not_isSome_iff_eq_none] at hbelow
          obtain ⟨found', hfound, heq⟩ := Option.map_eq_some_iff.1 h
          obtain ⟨rfl, rfl⟩ := Prod.mk.inj heq
          exact ⟨hfound, .inr ⟨below, rfl, rfl, trivial, hbelow.2⟩⟩
      · rintro ⟨hfound, rfl | ⟨_, rfl, rfl, -, hbelow⟩⟩
        · exact absurd rfl (halone hfound)
        · rw [if_neg, hfound]
          · rfl
          · -- next to an empty line there would be a definition in the line alone
            rintro (rfl | hsome)
            · exact halone hfound (List.append_nil line)
            · rw [hbelow] at hsome
              cases hsome

/-- What is found in a line and the next one begins in the first, if the rule does not look back. -/
theorem begins_of_definitionAt {rule : Definition.Rule} (hrule : rule.node.looksBack = false) {line source : Text}
    {next : Option Text} {found : Definition.Found} (h : definitionAt rule line next = some (source, found)) :
    source = line ∨ found.start < line.length := by
  obtain ⟨hfound, hline | ⟨below, -, rfl, -, hbelow⟩⟩ := definitionAt_eq_some.1 h
  · exact .inl hline
  · obtain ⟨m, hm, rfl⟩ := Option.map_eq_some_iff.1 hfound
    exact .inr (Regex.start_lt_of_search?_append hrule hm (Option.map_eq_none_iff.1 hbelow))

/-- A step of a file stands at the line with its number: what comments leave of that physical line, parameters replaced, holds its
definition, alone or together with the next line, and its documentation is the one for that number. The definition begins in
the line, if the rule does not look back; under the rule of languages this is where the keyword stands. -/
def StandsAt (s : Settings) (rule : Definition.Rule) (file : Path) (content : Text) (x : Step) : Prop :=
  ∃ physical line source found,
    (splitLines content)[x.line]? = some physical ∧ (splitLines (clearComments content))[x.line]? = some line ∧
    line.Sublist physical ∧
    definitionAt rule (Definition.applyParameters s.customParameters line) (sourceLines s content)[x.line + 1]? =
      some (source, found) ∧
    x.documentation = (documentationIn file content).of ⟨x.line, source, found⟩ ∧
    (rule.node.looksBack = false →
      source = Definition.applyParameters s.customParameters line ∨
      found.start < (Definition.applyParameters s.customParameters line).length) ∧
    (∀ ls, rule = .ofLanguages ls → rule.node.looksBack = false ∧
      ∃ keyword rest, found.keyword? = some keyword ∧ source.drop found.start = keyword ++ rest)

theorem standsAt_of_mem_fileSteps {s : Settings} {rule : Definition.Rule} {w : Workspace} {file : Path} {content : Text}
    {steps : List Step} (hspaced : spaced content = true) (hread : w.read file = .ok content)
    (hsteps : (fileSteps s rule w file).result = .ok steps) {x : Step} (hx : x ∈ steps) : StandsAt s rule file content x := by
  obtain ⟨-, rfl⟩ := (fileSteps_result_eq_ok file steps).1 hsteps
  obtain ⟨content', l, keyword, body, c, hread', hl, -, -, rfl⟩ := mem_listedSteps hx
  obtain rfl : content' = content := Except.ok.inj (hread'.symm.trans hread)
  obtain ⟨i, shown, hshown, hnumber, hat⟩ := mem_definitionsFrom.1 hl
  rw [Nat.zero_add] at hnumber
  unfold sourceLines at hshown
  rw [List.getElem?_map, Option.map_eq_some_iff] at hshown
  obtain ⟨line, hline, rfl⟩ := hshown
  obtain ⟨physical, hphysical, hsublist⟩ := sublist_of_clearComments hspaced hline
  subst hnumber
  refine ⟨physical, line, l.source, l.found, hphysical, hline, hsublist, hat, rfl,
    fun hrule => begins_of_definitionAt hrule hat, ?_⟩
  rintro ls rfl
  exact ⟨(Definition.secluded_ofLanguages ls).1, Definition.keyword_of_find? (definitionAt_eq_some.1 hat).1⟩

/-- Clearing comments keeps the number of lines exactly if no blank line stands directly above a line comment, block comments
cleared. Then every line without comments stays as it is, under its number, and every step of a file stands at the physical line
with its number. -/
theorem clearComments_keeps_lines (content : Text) :
    ((splitLines (clearComments content)).length = (splitLines content).length ↔ spaced content = true) ∧
    (spaced content = true →
      (∀ i line, (splitLines content)[i]? = some line → untouched content i = true → isLineComment line = false →
        (splitLines (clearComments content))[i]? = some line) ∧
      (∀ s rule w file steps, w.read file = .ok content → (fileSteps s rule w file).result = .ok steps →
        ∀ x ∈ steps, StandsAt s rule file content x)) := by
  refine ⟨length_clearComments_eq_iff content, fun hspaced => ⟨fun i line hline huntouched hcomment => ?_, ?_⟩⟩
  · exact getElem?_clearComments_of_untouched hspaced hline huntouched hcomment
  · intro s rule w file steps hread hsteps x hx
    exact standsAt_of_mem_fileSteps hspaced hread hsteps hx

/-- A block comment in front of a definition, a line comment, and a definition over two lines: the lines keep their numbers. -/
theorem clearComments_keeps_lines_two :
    let s : Settings := { languages := [⟨"q", ["Given "], [], [], [], [], []⟩] }
    let rule := Definition.Rule.ofLanguages s.languages
    let content := of "/* a\n*/ Given('x', f)\n // b\nGiven(\n'y', g)"
    let w : Workspace := ⟨[([of "a"], .file (content.map fun c => c.toNat.toUInt8))]⟩
    spaced content = true ∧ w.read [of "a"] = .ok content ∧
      (splitLines (clearComments content)).length = (splitLines content).length ∧
      (splitLines (clearComments content))[4]? = some (of "'y', g)") ∧
      ∃ steps, (fileSteps s rule w [of "a"]).result = .ok steps ∧ steps.map (·.line) = [1, 3] ∧
        ∀ x ∈ steps, StandsAt s rule [of "a"] content x := by
  intro s rule content w
  have hspaced : spaced content = true := by decide +kernel
  have hread : w.read [of "a"] = .ok content := by decide +kernel
  have hlines : ((fileSteps s rule w [of "a"]).result.toOption.map (·.map (·.line))) = some [1, 3] := by decide +kernel
  obtain ⟨hlength, hkept⟩ := clearComments_keeps_lines content
  obtain ⟨hline, hsteps⟩ := hkept hspaced
  cases hscan : (fileSteps s rule w [of "a"]).result with
  | error fault => simp [hscan, Except.toOption] at hlines
  | ok steps =>
    refine ⟨hspaced, hread, hlength.2 hspaced, ?_, steps, rfl, ?_, hsteps s rule w _ steps hread hscan⟩
    · exact hline 4 _ (by decide +kernel) (by decide +kernel) (by decide +kernel)
    · simpa [hscan, Except.toOption] using hlines

/-- A blank line above a line comment is lost, and the definition on the third line is listed with the number of the second. -/
theorem clearComments_loses_blank_line :
    let s : Settings := { languages := [⟨"q", ["Given "], [], [], [], [], []⟩] }
    let content := of "\n// greeting\nGiven('hello', f)"
    (splitLines content).length = 3 ∧ (splitLines (clearComments content)).length = 2 ∧
      (splitLines content)[2]? = some (of "Given('hello', f)") ∧ untouched content 2 = true ∧
      (splitLines (clearComments content))[2]? = none ∧
      (stepsIn s (.ofLanguages s.languages) [of "a"] content).result.toOption.map (·.map (·.line)) = some [1] := by
  decide +kernel

end StepCatalog.Catalog
