import StepCatalog.Proofs.Text.Parts
import StepCatalog.Proofs.Text.Trim
import StepCatalog.Source.Comment

/-!
# Documentation comments

A documentation comment is written with an opening line, every line of the documentation behind a star, and a closing line, all of
them indented alike (`Prose.written`). Reading undoes writing: the comment is found below the lines in front of it
(`blockComments_written`), its marks and margins come off again (`dropMargin_starred`), and since no line is a tag all of it is free
text (`foldl_add_of_untagged`).

Main statement: `documentation_of_written`.
-/

namespace StepCatalog.Source

open Text (of)

/-! ## Written documentation -/

/-- The lines of a documentation, as they can stand in a comment: none of them is broken, closes the comment, ends with a blank or is
a tag. The first line begins with its text, and the last one has a text. -/
structure Prose where
  lines : List Text
  unbroken : ∀ line ∈ lines, ∀ c ∈ line, isLineBoundary c = false
  unclosed : ∀ line ∈ lines, ¬of "*/" <:+: line
  trimmed : ∀ line ∈ lines, Text.trimEnd line = line
  untagged : ∀ line ∈ lines, line.startsWith ['@'] = false
  first : ∃ c rest, lines.head? = some (c :: rest) ∧ isBlank c = false
  last : ∃ line, lines.getLast? = some line ∧ line.isBlankText = false

/-- A line of a documentation with its margin. -/
def starred (indent line : Text) : Text := indent ++ (of " * " ++ line)

namespace Prose

/-- The lines of the comment that holds a documentation. -/
def written (p : Prose) (indent : Text) : List Text :=
  (indent ++ of "/**") :: (p.lines.map (starred indent) ++ [indent ++ of " */"])

/-- A documentation as one text. -/
def text (p : Prose) : Text := Text.join ['\n'] p.lines

end Prose

/-- Indentation with spaces and tabs. -/
def IsIndent (indent : Text) : Prop := ∀ c ∈ indent, c = ' ' ∨ c = '\t'

variable {indent : Text}

theorem IsIndent.blank (h : IsIndent indent) : indent.isBlankText = true := by
  rw [Text.isBlankText, List.all_eq_true]
  intro c hc
  rcases h c hc with rfl | rfl <;> decide

theorem IsIndent.unbroken (h : IsIndent indent) : ∀ c ∈ indent, isLineBoundary c = false := by
  intro c hc
  rcases h c hc with rfl | rfl <;> decide

/-! ## Finding the comment -/

/-- A line that opens no comment is passed over. -/
theorem blockCommentsFrom_skip {line : Text} (h : opensComment line = false) (i : Nat) (rest : List Text) :
    blockCommentsFrom i [] (line :: rest) = blockCommentsFrom (i + 1) [] rest := by
  simp [blockCommentsFrom, h]

/-- A line of a comment that does not close it is collected. -/
theorem blockCommentsFrom_collect {opened : List Text} {line : Text} (hin : opened ≠ [] ∨ opensComment line = true)
    (h : ¬of "*/" <:+: line) (i : Nat) (rest : List Text) :
    blockCommentsFrom i opened (line :: rest) = blockCommentsFrom (i + 1) (opened ++ [line]) rest := by
  have hopen : (opened.isEmpty && !opensComment line) = false := by rcases hin with hin | hin <;> simp [hin]
  have hunclosed : line.hasPart ['*', '/'] = false := Bool.eq_false_iff.2 fun hclosed => h (Text.hasPart_iff.1 hclosed)
  simp [blockCommentsFrom, hopen, hunclosed]

/-- A line that closes a comment ends it. -/
theorem blockCommentsFrom_close {opened : List Text} {line : Text} (hopened : opened ≠ []) (h : of "*/" <:+: line) (i : Nat)
    (rest : List Text) :
    blockCommentsFrom i opened (line :: rest) =
      (i + 1, (opened ++ [line]).flatMap (· ++ ['\n'])) :: blockCommentsFrom (i + 1) [] rest := by
  have hopen : (opened.isEmpty && !opensComment line) = false := by simp [hopened]
  have hclosed : line.hasPart ['*', '/'] = true := Text.hasPart_iff.2 h
  rw [← Text.join_append_sep (by simp)]
  simp [blockCommentsFrom, hopen, hclosed]

theorem infix_of_opensComment {line : Text} (h : opensComment line = true) : of "/*" <:+: line := by
  obtain ⟨rest, hrest⟩ := Text.startsWith_iff.1 h
  have hstart : of "/*" <+: Text.trimStart line := ⟨rest, hrest.symm⟩
  exact hstart.isInfix.trans (List.dropWhile_suffix isBlank).isInfix

/-- Lines without the mark that opens a comment are passed over. -/
theorem blockCommentsFrom_before {before : List Text} (h : ∀ line ∈ before, ¬of "/*" <:+: line) (i : Nat) (rest : List Text) :
    blockCommentsFrom i [] (before ++ rest) = blockCommentsFrom (i + before.length) [] rest := by
  induction before generalizing i with
  | nil => rfl
  | cons line before ih =>
    rw [List.forall_mem_cons] at h
    have hopens : opensComment line = false := Bool.eq_false_iff.2 fun hopens => h.1 (infix_of_opensComment hopens)
    rw [List.cons_append, blockCommentsFrom_skip hopens, ih h.2, List.length_cons, Nat.add_right_comm, Nat.add_assoc]

/-- Lines without the mark that closes an open comment are collected. -/
theorem blockCommentsFrom_inside {lines : List Text} (h : ∀ line ∈ lines, ¬of "*/" <:+: line) (i : Nat) {opened : List Text}
    (hopened : opened ≠ []) (rest : List Text) :
    blockCommentsFrom i opened (lines ++ rest) = blockCommentsFrom (i + lines.length) (opened ++ lines) rest := by
  induction lines generalizing i opened with
  | nil => simp
  | cons line lines ih =>
    rw [List.forall_mem_cons] at h
    rw [List.cons_append, blockCommentsFrom_collect (.inl hopened) h.1, ih h.2 (i + 1) (by simp), List.append_assoc,
      List.singleton_append, List.length_cons, Nat.add_right_comm, Nat.add_assoc]

/-- A mark that begins with no blank does not begin among blanks. -/
theorem infix_of_infix_append {a b : Char} (ha : isBlank a = false) {front s : Text} (hfront : front.isBlankText = true)
    (h : [a, b] <:+: front ++ s) : [a, b] <:+: s := by
  induction front with
  | nil => exact h
  | cons c front ih =>
    rw [Text.isBlankText, List.all_cons, Bool.and_eq_true] at hfront
    rw [List.cons_append, List.infix_cons_iff] at h
    rcases h with ⟨rest, hrest⟩ | h
    · rw [(List.cons.inj hrest).1, hfront.1] at ha
      cases ha
    · exact ih hfront.2 h

/-- The margin of a line does not close the comment. -/
theorem starred_unclosed (hindent : IsIndent indent) {line : Text} (h : ¬of "*/" <:+: line) : ¬of "*/" <:+: starred indent line := by
  intro hclosed
  have hbehind : of "*/" <:+: of " * " ++ line := infix_of_infix_append (by decide) hindent.blank hclosed
  have hline : of "*/" <:+: line := by
    simpa [of, List.infix_cons_iff, List.cons_prefix_cons] using hbehind
  exact h hline

/-- The comment of a documentation is found, with the number of the line below it, where no comment is opened above. -/
theorem blockComments_written (p : Prose) (hindent : IsIndent indent) {text : Text} {before after : List Text}
    (htext : splitLines text = before ++ (p.written indent ++ after)) (hbefore : ∀ line ∈ before, ¬of "/*" <:+: line) :
    ∃ more, blockComments text =
      (before.length + p.lines.length + 2, (p.written indent).flatMap (· ++ ['\n'])) :: more := by
  have hopens : opensComment (indent ++ of "/**") = true := by
    rw [opensComment, Text.trimStart_append hindent.blank]
    rfl
  have hopening : ¬of "*/" <:+: indent ++ of "/**" := fun hclosed => by
    have hmark := infix_of_infix_append (by decide) hindent.blank hclosed
    revert hmark
    decide
  have hlines : ∀ line ∈ p.lines.map (starred indent), ¬of "*/" <:+: line := by
    intro line hline
    obtain ⟨line, hmem, rfl⟩ := List.mem_map.1 hline
    exact starred_unclosed hindent (p.unclosed line hmem)
  have hclosing : of "*/" <:+: indent ++ of " */" := ⟨indent ++ [' '], [], by simp [of]⟩
  rw [blockComments, htext, blockCommentsFrom_before hbefore, Prose.written, List.cons_append,
    blockCommentsFrom_collect (.inr hopens) hopening, List.append_assoc, blockCommentsFrom_inside hlines _ (by simp),
    List.singleton_append, blockCommentsFrom_close (by simp) hclosing, List.length_map]
  have hplace : 0 + before.length + 1 + p.lines.length + 1 = before.length + p.lines.length + 2 := by omega
  exact ⟨blockCommentsFrom (before.length + p.lines.length + 2) [] after, by rw [hplace]; rfl⟩

/-! ## Taking the marks off -/

/-- What stands between the opening and the closing mark. -/
def Prose.body (p : Prose) (indent : Text) : Text :=
  '\n' :: (p.lines.flatMap (fun line => starred indent line ++ ['\n']) ++ (indent ++ [' ']))

/-- A text between characters that are no blanks has no blanks at its ends. -/
theorem trim_of_solid {c d : Char} (hc : isBlank c = false) (hd : isBlank d = false) (s : Text) :
    Text.trim (c :: (s ++ [d])) = c :: (s ++ [d]) := by
  have hstart : Text.trimStart (c :: (s ++ [d])) = c :: (s ++ [d]) := by rw [Text.trimStart, List.dropWhile_cons_of_neg (by simp [hc])]
  have hend : Text.trimEnd [d] = [d] := by simp [Text.trimEnd, Text.dropEndWhile, hd]
  rw [Text.trim, hstart, ← List.cons_append, Text.trimEnd_append_of_ne_nil (by simp [hend]), hend]

theorem trim_written (p : Prose) (hindent : IsIndent indent) :
    Text.trim ((p.written indent).flatMap (· ++ ['\n'])) = of "/**" ++ (p.body indent ++ of "*/") := by
  have hwritten : (p.written indent).flatMap (· ++ ['\n']) = indent ++ ((of "/**" ++ (p.body indent ++ of "*/")) ++ ['\n']) := by
    simp [Prose.written, Prose.body, of, List.flatMap_map]
  have hsolid : Text.trim (of "/**" ++ (p.body indent ++ of "*/")) = of "/**" ++ (p.body indent ++ of "*/") := by
    have hends : of "/**" ++ (p.body indent ++ of "*/") = '/' :: (of "**" ++ (p.body indent ++ ['*']) ++ ['/']) := by simp [of]
    rw [hends, trim_of_solid (by decide) (by decide)]
  rw [hwritten, Text.trim_padded hindent.blank hsolid (by decide)]

theorem dropMarks_written (p : Prose) (indent : Text) :
    dropClosing (dropOpening (of "/**" ++ (p.body indent ++ of "*/"))) = p.body indent := by
  have hopening : dropOpening (of "/**" ++ (p.body indent ++ of "*/")) = p.body indent ++ of "*/" := by
    simp [dropOpening, of, Prose.body]
  rw [hopening]
  simp [dropClosing, of, Prose.body]

/-! ## The lines of the comment -/

theorem proseLines_cons {c : Char} (h : isLineBoundary c = false) (s : Text) :
    proseLines (c :: s) = Text.consFirst c (proseLines s) := by
  rw [proseLines.eq_def]
  split
  · rename_i heq
    cases heq
  · rename_i heq
    cases heq
    exact absurd h (by decide)
  · rename_i heq
    cases heq
    rw [if_neg (by simp [h])]

/-- A line ends at its first boundary. -/
theorem proseLines_append {line : Text} (h : ∀ c ∈ line, isLineBoundary c = false) (rest : Text) :
    proseLines (line ++ '\n' :: rest) = line :: proseLines rest := by
  induction line with
  | nil => rfl
  | cons c line ih =>
    rw [List.forall_mem_cons] at h
    rw [List.cons_append, proseLines_cons h.1, ih h.2, Text.consFirst]

/-- A text without boundaries is one line, unless it is empty. -/
theorem proseLines_of_unbroken {c : Char} {line : Text} (h : ∀ d ∈ c :: line, isLineBoundary d = false) :
    proseLines (c :: line) = [c :: line] := by
  induction line generalizing c with
  | nil => rw [proseLines_cons (h c (by simp))]; rfl
  | cons d line ih =>
    rw [List.forall_mem_cons] at h
    rw [proseLines_cons h.1, ih h.2, Text.consFirst]

theorem proseLines_flatMap {lines : List Text} (h : ∀ line ∈ lines, ∀ c ∈ line, isLineBoundary c = false) (rest : Text) :
    proseLines (lines.flatMap (· ++ ['\n']) ++ rest) = lines ++ proseLines rest := by
  induction lines with
  | nil => rfl
  | cons line lines ih =>
    rw [List.forall_mem_cons] at h
    rw [List.flatMap_cons, List.append_assoc, List.append_assoc, List.singleton_append, proseLines_append h.1, ih h.2,
      List.cons_append]

theorem proseLines_body (p : Prose) (hindent : IsIndent indent) :
    proseLines (p.body indent) = [] :: (p.lines.map (starred indent) ++ [indent ++ [' ']]) := by
  have hlines : ∀ line ∈ p.lines.map (starred indent), ∀ c ∈ line, isLineBoundary c = false := by
    intro line hline c hc
    obtain ⟨line, hmem, rfl⟩ := List.mem_map.1 hline
    rw [starred, List.mem_append, List.mem_append] at hc
    rcases hc with hc | hc | hc
    · exact hindent.unbroken c hc
    · have hstar : (of " * ").all (fun c => !isLineBoundary c) = true := by decide +kernel
      simpa using List.all_eq_true.1 hstar c hc
    · exact p.unbroken line hmem c hc
  have hclosing : proseLines (indent ++ [' ']) = [indent ++ [' ']] := by
    have hunbroken : ∀ c ∈ indent ++ [' '], isLineBoundary c = false := by
      intro c hc
      rcases List.mem_append.1 hc with hc | hc
      · exact hindent.unbroken c hc
      · rw [List.mem_singleton.1 hc]
        decide
    cases hend : indent ++ [' '] with
    | nil => simp at hend
    | cons c rest => exact proseLines_of_unbroken (hend ▸ hunbroken)
  rw [Prose.body, ← List.nil_append ('\n' :: _), proseLines_append (by simp), ← List.flatMap_map (starred indent) (· ++ ['\n']),
    proseLines_flatMap hlines, hclosing]

/-- A line of a documentation is what is left of it without its margin. -/
theorem dropMargin_starred (hindent : IsIndent indent) {line : Text} (h : Text.trimEnd line = line) :
    dropMargin (starred indent line) = line := by
  have hstar : Text.trimStart (starred indent line) = '*' :: ' ' :: line := by
    rw [starred, Text.trimStart_append hindent.blank]
    rfl
  rw [dropMargin, hstar]
  exact h

theorem dropMargin_of_blank {line : Text} (h : line.isBlankText = true) : dropMargin line = [] := by
  have hnil : Text.trimStart line = [] := List.dropWhile_eq_nil_iff.2 (List.all_eq_true.1 h)
  rw [dropMargin, hnil]
  rfl

/-! ## Free text -/

/-- Lines without a tag are free text, up to the first tag. -/
theorem foldl_add_of_untagged {lines : List Text} (h : ∀ line ∈ lines, line.startsWith ['@'] = false) (free : List Text) :
    lines.foldl Parts.add { free } = { free := free ++ lines } := by
  induction lines generalizing free with
  | nil => simp
  | cons line lines ih =>
    rw [List.forall_mem_cons] at h
    have hadd : Parts.add { free } line = { free := free ++ [line] } := by simp [Parts.add, h.1]
    rw [List.foldl_cons, hadd, ih h.2, List.append_assoc, List.singleton_append]

/-- A documentation has no blanks at its ends. -/
theorem trim_text (p : Prose) : Text.trim p.text = p.text := by
  obtain ⟨c, rest, hfirst, hc⟩ := p.first
  obtain ⟨line, hlast, hline⟩ := p.last
  have hstart : Text.trimStart p.text = p.text := by
    obtain ⟨more, hlines⟩ := List.head?_eq_some_iff.1 hfirst
    obtain ⟨tail, htail⟩ := Text.join_append ['\n'] [c :: rest] more
    rw [List.singleton_append, Text.join_singleton, List.cons_append] at htail
    rw [Prose.text, hlines, htail, Text.trimStart, List.dropWhile_cons_of_neg (by simp [hc])]
  have hend : Text.trimEnd p.text = p.text := by
    obtain ⟨front, hfront⟩ := Text.exists_join_eq_append ['\n'] hlast
    have htrimmed := p.trimmed line (List.mem_of_getLast? hlast)
    have hne : Text.trimEnd line ≠ [] := by
      rw [htrimmed]
      rintro rfl
      cases hline
    rw [Prose.text, hfront, Text.trimEnd_append_of_ne_nil hne, htrimmed]
  rw [Text.trim, hstart, hend]

theorem text_ne_nil (p : Prose) : p.text ≠ [] := by
  obtain ⟨line, hlast, hline⟩ := p.last
  obtain ⟨front, hfront⟩ := Text.exists_join_eq_append ['\n'] hlast
  rw [Prose.text, hfront]
  intro hnil
  rw [(List.append_eq_nil_iff.1 hnil).2] at hline
  cases hline

/-- The lines of a comment without their margins: the documentation between two empty lines. -/
theorem map_dropMargin_body (p : Prose) (hindent : IsIndent indent) :
    (proseLines (p.body indent)).map dropMargin = [] :: (p.lines ++ [[]]) := by
  have hlines : p.lines.map (dropMargin ∘ starred indent) = p.lines := by
    conv_rhs => rw [← List.map_id p.lines]
    exact List.map_congr_left fun line hline => dropMargin_starred hindent (p.trimmed line hline)
  have hopening : dropMargin [] = [] := rfl
  have hclosing : dropMargin (indent ++ [' ']) = [] := by
    refine dropMargin_of_blank ?_
    rw [Text.isBlankText, List.all_append, ← Text.isBlankText, hindent.blank]
    rfl
  rw [proseLines_body p hindent, List.map_cons, List.map_append, List.map_map, hlines, List.map_singleton, hopening, hclosing]

/-- Reading a comment undoes writing it. -/
theorem documentation_written (p : Prose) (hindent : IsIndent indent) :
    documentation ((p.written indent).flatMap (· ++ ['\n'])) = p.text := by
  have huntagged : ∀ line ∈ [] :: (p.lines ++ [[]]), Text.startsWith line ['@'] = false := by
    intro line hline
    rcases List.mem_cons.1 hline with rfl | hline
    · rfl
    · rcases List.mem_append.1 hline with hline | hline
      · exact p.untagged line hline
      · rw [List.mem_singleton.1 hline]
        rfl
  have hparts : (proseLines (p.body indent)).foldl (fun parts line => parts.add (dropMargin line)) ({} : Parts) =
      { free := [] :: (p.lines ++ [[]]) } := by
    rw [← List.foldl_map, map_dropMargin_body p hindent, foldl_add_of_untagged huntagged []]
    rfl
  have hlines : p.lines ≠ [] := by
    obtain ⟨line, hlast, -⟩ := p.last
    exact List.ne_nil_of_mem (List.mem_of_getLast? hlast)
  have hfree : Text.join ['\n'] ([] :: (p.lines ++ [[]])) = ['\n'] ++ (p.text ++ ['\n']) := by
    rw [Text.join_cons (by simp), Text.join_append_of_ne_nil hlines (by simp), Text.join_singleton]
    rfl
  have hdescription : Text.trim (Text.join ['\n'] ([] :: (p.lines ++ [[]]))) = p.text := by
    rw [hfree, Text.trim_padded (by decide) (trim_text p) (by decide)]
  unfold documentation
  rw [trim_written p hindent, dropMarks_written]
  dsimp only
  rw [hparts, hdescription, if_pos (by simpa using text_ne_nil p)]

/-- Reading a documentation comment undoes writing it. Wherever the comment stands in a text, below lines that open no comment, it is
found for the line below it, and its documentation is what was written: every line, with the blank lines between them and what the
lines are indented by beyond the first one. -/
theorem documentation_of_written (p : Prose) (indent : Text) (hindent : IsIndent indent) (text : Text) (before after : List Text)
    (htext : splitLines text = before ++ (p.written indent ++ after)) (hbefore : ∀ line ∈ before, ¬of "/*" <:+: line) :
    ∃ raw, (blockComments text).lookup (before.length + p.lines.length + 2) = some raw ∧
      documentation raw = Text.join ['\n'] p.lines := by
  obtain ⟨more, hcomments⟩ := blockComments_written p hindent htext hbefore
  refine ⟨(p.written indent).flatMap (· ++ ['\n']), ?_, documentation_written p hindent⟩
  rw [hcomments, List.lookup_cons_self]

/-- Stars, a mark that would open a comment, a blank line and a line that is indented further, in a comment indented by a tab, in a
text with line ends of both kinds. -/
theorem documentation_of_written_stars :
    let lines := [of "One ** two /*", [], of "  * / @4"]
    let text := of "x\r\n\t/**\n\t * One ** two /*\r\n\t * \n\t *   * / @4\n\t */\nGiven('x')"
    ∃ raw, (blockComments text).lookup 6 = some raw ∧ documentation raw = Text.join ['\n'] lines := by
  intro lines text
  let p : Prose :=
    { lines
      unbroken := by
        have hunbroken : (lines.all fun line => line.all fun c => !isLineBoundary c) = true := by decide +kernel
        simpa only [List.all_eq_true, Bool.not_eq_true'] using hunbroken
      unclosed := by decide +kernel
      trimmed := by decide +kernel
      untagged := by decide +kernel
      first := ⟨'O', of "ne ** two /*", rfl, by decide⟩
      last := ⟨of "  * / @4", rfl, by decide⟩ }
  have hindent : IsIndent (of "\t") := by simp [IsIndent, of]
  have htext : splitLines text = [of "x"] ++ (p.written (of "\t") ++ [of "Given('x')"]) := by decide +kernel
  obtain ⟨raw, hraw, hdocumentation⟩ := documentation_of_written p _ hindent text _ _ htext (by decide +kernel)
  exact ⟨raw, hraw, hdocumentation⟩

end StepCatalog.Source
