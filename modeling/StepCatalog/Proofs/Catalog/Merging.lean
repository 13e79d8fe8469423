import StepCatalog.Proofs.Catalog.Numbering
import StepCatalog.Proofs.Definition.Written

/-!
# Definitions over two lines

A line that holds no definition is looked at once more together with the next one, unless that one holds a definition by itself. Under
the rule of languages, whatever is found in this way begins in the first line and ends in the second: the rule sees nothing but the text
that it takes, so that what begins in the second line or ends in the first would have been found in one of them alone
(`straddles_of_find?`). So a definition is listed under the line in which its keyword begins (`HeldBy.begins`), a line has no two of them
(`pairwise_line_definitionsFrom`), and no keyword is listed twice (`HeldBy.place_lt`).

Main statement: `definitions_straddle_or_stand_alone`.
-/

namespace StepCatalog.Catalog

open Definition
open Text (of)

/-- What the rule of languages finds in two lines that hold no definition alone begins in the first one and ends in the second. -/
theorem straddles_of_find? {ls : List Gherkin.Language} {line next : Text} {found : Found}
    (hfound : (Rule.ofLanguages ls).find? (line ++ next) = some found) (hline : (Rule.ofLanguages ls).find? line = none)
    (hnext : (Rule.ofLanguages ls).find? next = none) : found.start < line.length ∧ line.length < found.stop := by
  obtain ⟨m, hm, rfl⟩ := Option.map_eq_some_iff.1 hfound
  have hrule := secluded_ofLanguages ls
  exact ⟨Regex.start_lt_of_search?_append hrule.1 hm (Option.map_eq_none_iff.1 hnext),
    Regex.stop_gt_of_search?_append hrule.2 hm (Option.map_eq_none_iff.1 hline)⟩

/-- What the rule of languages finds in a line begins in front of its end. -/
theorem start_lt_of_find? {ls : List Gherkin.Language} {line : Text} {found : Found}
    (hfound : (Rule.ofLanguages ls).find? line = some found) : found.start < line.length := by
  have hnil := find?_nil ls
  rw [← List.append_nil line] at hfound
  obtain ⟨m, hm, rfl⟩ := Option.map_eq_some_iff.1 hfound
  exact Regex.start_lt_of_search?_append (secluded_ofLanguages ls).1 hm (Option.map_eq_none_iff.1 hnil)

namespace Located

/-- A definition as lines hold it: the first one in the line with its number alone, or, if neither this line nor the next one holds one
alone, the first one in the two together. -/
def HeldBy (rule : Rule) (lines : List Text) (l : Located) : Prop :=
  ∃ line, lines[l.line]? = some line ∧ rule.find? l.source = some l.found ∧
    (l.source = line ∨ ∃ next, lines[l.line + 1]? = some next ∧ l.source = line ++ next ∧
      rule.find? line = none ∧ rule.find? next = none)

/-- Where a definition begins in all the lines put together. -/
def place (lines : List Text) (l : Located) : Nat := (lines.take l.line).flatten.length + l.found.start

variable {ls : List Gherkin.Language} {lines : List Text} {l l' : Located}

/-- A definition begins in the line with its number, and if it was not found in this line alone, it ends in the next one. -/
theorem HeldBy.begins (h : l.HeldBy (.ofLanguages ls) lines) : ∃ line, lines[l.line]? = some line ∧ l.found.start < line.length ∧
    (l.source = line ∨ ∃ next, lines[l.line + 1]? = some next ∧ l.source = line ++ next ∧ line.length < l.found.stop) := by
  obtain ⟨line, hline, hfound, hsource | ⟨next, hnext, hsource, hnone, hnone'⟩⟩ := h
  · exact ⟨line, hline, start_lt_of_find? (hsource ▸ hfound), .inl hsource⟩
  · obtain ⟨hstart, hstop⟩ := straddles_of_find? (hsource ▸ hfound) hnone hnone'
    exact ⟨line, hline, hstart, .inr ⟨next, hnext, hsource, hstop⟩⟩

/-- Of two definitions, the one with the lower number begins first. -/
theorem HeldBy.place_lt (h : l.HeldBy (.ofLanguages ls) lines) (hlt : l.line < l'.line) : l.place lines < l'.place lines := by
  obtain ⟨line, hline, hstart, -⟩ := h.begins
  -- all of the line stands in front of the lines from the next one on
  have htake : lines.take (l.line + 1) = lines.take l.line ++ [line] := by rw [List.take_add_one, hline]; rfl
  obtain ⟨between, hbetween⟩ : lines.take (l.line + 1) <+: lines.take l'.line := List.take_prefix_take_left hlt
  unfold place
  rw [← hbetween, htake]
  simp only [List.flatten_append, List.flatten_cons, List.flatten_nil, List.append_nil, List.length_append]
  omega

end Located

theorem mem_definitionsIn {s : Settings} {rule : Rule} {content : Text} {l : Located} :
    l ∈ definitionsIn s rule content ↔ l.HeldBy rule (sourceLines s content) := by
  rw [definitionsIn, mem_definitionsFrom]
  simp only [definitionAt_eq_some, Located.HeldBy, Nat.zero_add]
  constructor
  · rintro ⟨i, line, hline, rfl, hfound⟩
    exact ⟨line, hline, hfound⟩
  · rintro ⟨line, hline, hfound⟩
    exact ⟨l.line, line, hline, rfl, hfound⟩

/-- A line has at most one definition, and the lines are in order. -/
theorem pairwise_line_definitionsFrom (rule : Rule) (k : Nat) (lines : List Text) :
    (definitionsFrom rule k lines).Pairwise fun l l' => l.line < l'.line := by
  induction lines generalizing k with
  | nil => exact .nil
  | cons line rest ih =>
    rw [definitionsFrom]
    split
    · refine .cons (fun l hl => ?_) (ih (k + 1))
      obtain ⟨i, -, -, hnumber, -⟩ := mem_definitionsFrom.1 hl
      show k < l.line
      omega
    · exact ih (k + 1)

/-- Without patterns of their own, settings have the rule of their languages. -/
theorem ofSettings?_eq_ok {s : Settings} (hkeyword : given? s.definitionKeyword = none) (hopening : given? s.openingSymbol = none) :
    Rule.ofSettings? s = .ok (.ofLanguages s.languages) := by
  rw [Rule.ofSettings?, hkeyword, hopening]

/-- Without patterns of their own in the settings, the definitions of a file are exactly those that a line holds alone, and those that
two lines hold together of which neither holds one alone. Each begins in the line with its number, with the keyword, and if it was
not found in this line alone, it ends in the next one. Each line has at most one, and each begins further on than the one before. A
step is listed under the number of its definition. -/
theorem definitions_straddle_or_stand_alone (s : Settings) (hkeyword : given? s.definitionKeyword = none)
    (hopening : given? s.openingSymbol = none) :
    ∃ rule, Rule.ofSettings? s = .ok rule ∧ ∀ content,
      let lines := sourceLines s content
      let definitions := definitionsIn s rule content
      (∀ l, l ∈ definitions ↔ l.HeldBy rule lines) ∧
      (∀ l ∈ definitions, ∃ line, lines[l.line]? = some line ∧ l.found.start < line.length ∧
        (∃ keyword rest, l.found.keyword? = some keyword ∧ l.source.drop l.found.start = keyword ++ rest) ∧
        (l.source = line ∨ ∃ next, lines[l.line + 1]? = some next ∧ l.source = line ++ next ∧ line.length < l.found.stop)) ∧
      definitions.Pairwise (fun l l' => l.line < l'.line ∧ l.place lines < l'.place lines) ∧
      ∀ w file steps, w.read file = .ok content → (fileSteps s rule w file).result = .ok steps →
        ∀ x ∈ steps, ∃ l ∈ definitions, x.line = l.line := by
  refine ⟨_, ofSettings?_eq_ok hkeyword hopening, fun content => ⟨fun l => mem_definitionsIn, ?_, ?_, ?_⟩⟩
  · intro l hl
    obtain ⟨-, -, hfound, -⟩ := mem_definitionsIn.1 hl
    obtain ⟨line, hline, hstart, hsource⟩ := (mem_definitionsIn.1 hl).begins
    exact ⟨line, hline, hstart, keyword_of_find? hfound, hsource⟩
  · refine (pairwise_line_definitionsFrom _ 0 _).imp_of_mem fun hl _ hlt => ⟨hlt, ?_⟩
    exact (mem_definitionsIn.1 hl).place_lt hlt
  · intro w file steps hread hsteps x hx
    obtain ⟨-, rfl⟩ := (fileSteps_result_eq_ok file steps).1 hsteps
    obtain ⟨content', l, keyword, body, c, hread', hl, -, -, rfl⟩ := mem_listedSteps hx
    obtain rfl : content' = content := Except.ok.inj (hread'.symm.trans hread)
    exact ⟨l, hl, rfl⟩

/-- A definition over two lines, the second of which a custom parameter writes, between two definitions in a line of their own: three
definitions under the numbers 0, 1 and 3. -/
theorem definitions_straddle_or_stand_alone_between :
    let s : Settings :=
      { languages := [⟨"q", ["Given "], [], [], [], [], []⟩], customParameters := [⟨of "ARG", of "'y', g)"⟩] }
    let content := of "Given('x', f)\nx = Given(\nARG\nGiven('z', h)"
    let lines := sourceLines s content
    given? s.definitionKeyword = none ∧ given? s.openingSymbol = none ∧
      ∃ rule, Rule.ofSettings? s = .ok rule ∧
        (definitionsIn s rule content).map (fun l => (l.line, l.found.start, l.found.stop)) = [(0, 0, 10), (1, 4, 14), (3, 0, 10)] ∧
        (∀ l, l ∈ definitionsIn s rule content ↔ l.HeldBy rule lines) ∧
        (definitionsIn s rule content).Pairwise fun l l' => l.line < l'.line ∧ l.place lines < l'.place lines := by
  intro s content lines
  obtain ⟨rule, hrule, hdefinitions⟩ := definitions_straddle_or_stand_alone s rfl rfl
  obtain rfl : Rule.ofLanguages s.languages = rule := Except.ok.inj hrule
  obtain ⟨hheld, -, hordered, -⟩ := hdefinitions content
  exact ⟨rfl, rfl, _, hrule, by decide +kernel, hheld, hordered⟩

end StepCatalog.Catalog
