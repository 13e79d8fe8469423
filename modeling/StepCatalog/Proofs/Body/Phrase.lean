import StepCatalog.Proofs.Body.Parts

/-!
# Bodies of plain characters and groups

A phrase is a sequence of plain characters and of groups of two or more alternatives, which are phrases again, nested to any depth.
It is written as a body in the usual way (`Phrase.write`), perhaps between anchors (`anchored`). Such a body holds no parameter, so
it is a regular expression as it stands; it compiles, and it takes just what the phrase stands for (`Phrase.Denotes`).

Sequences and alternatives are one family of trees, so that each statement about them is one induction.

Main statement: `compile_anchored`.
-/

namespace StepCatalog.Body

open Regex
open Text (of)

/-! ## Phrases -/

/-- The characters that mean nothing to regular expressions and to the rules for parameters. -/
def isPlain (c : Char) : Bool := c != nul && !(of "\\[()|*+?\x7b\x7d.^$/#").contains c

/-- What a tree of phrases stands for: a sequence, or alternatives. -/
inductive Shape where
  | sequence | choice
  deriving DecidableEq, Repr

/-- Sequences of plain characters and groups, none of them empty, and alternatives. -/
inductive Phrase : Shape → Type where
  | char (c : Char) (plain : isPlain c = true) : Phrase .sequence
  | both (first second : Phrase .sequence) : Phrase .sequence
  /-- A group of alternatives: the first one, and one or more others. -/
  | group (captures : Bool) (first : Phrase .sequence) (others : Phrase .choice) : Phrase .sequence
  | one (alternative : Phrase .sequence) : Phrase .choice
  | more (alternative : Phrase .sequence) (others : Phrase .choice) : Phrase .choice

namespace Phrase

/-- What a parenthesis begins with, by whether it captures. -/
def mark (captures : Bool) : Text := if captures then [] else ['?', ':']

/-- The phrase as a body. -/
def write {k : Shape} : Phrase k → Text
  | .char c _ => [c]
  | .both first second => first.write ++ second.write
  | .group captures first others => '(' :: (mark captures ++ (first.write ++ '|' :: others.write)) ++ [')']
  | .one alternative => alternative.write
  | .more alternative others => alternative.write ++ '|' :: others.write

/-- The texts that the phrase stands for. -/
def Denotes {k : Shape} : Phrase k → Text → Prop
  | .char c _, w => w = [c]
  | .both first second, w => ∃ u v, w = u ++ v ∧ first.Denotes u ∧ second.Denotes v
  | .group _ first others, w => first.Denotes w ∨ others.Denotes w
  | .one alternative, w => alternative.Denotes w
  | .more alternative others, w => alternative.Denotes w ∨ others.Denotes w

end Phrase

/-- A phrase, if there is one, between the anchors that are asked for. -/
def anchored (start stop : Bool) (phrase : Option (Phrase .sequence)) : Text :=
  (if start then ['^'] else []) ++ ((phrase.map Phrase.write).getD [] ++ (if stop then ['$'] else []))

/-- The texts that a phrase stands for, if there is one; without one, the empty text. -/
def PhraseDenotes (phrase : Option (Phrase .sequence)) (w : Text) : Prop :=
  match phrase with
  | some p => p.Denotes w
  | none => w = []

/-! ## The characters of phrases -/

theorem ne_of_isPlain {c x : Char} (hc : isPlain c = true) (hx : isPlain x = false) : c ≠ x := by
  rintro rfl
  rw [hc] at hx
  cases hx

theorem isOperator_of_isPlain {c : Char} (h : isPlain c = true) : isOperator c = false := by
  cases hop : isOperator c
  · rfl
  · have hnot := all_operator (p := fun x => !isPlain x) (by decide) hop
    simp [h] at hnot

namespace Phrase

/-- A phrase holds plain characters, parentheses, bars and the mark of groups that do not capture. -/
theorem mem_write {k : Shape} (p : Phrase k) : ∀ c ∈ p.write, isPlain c = true ∨ c ∈ ['(', ')', '|', '?'] := by
  induction p with
  | char c hc =>
    intro x hx
    obtain rfl : x = c := by simpa [write] using hx
    exact Or.inl hc
  | both first second ih1 ih2 =>
    intro x hx
    rcases List.mem_append.1 hx with hx | hx
    · exact ih1 x hx
    · exact ih2 x hx
  | group captures first others ih1 ih2 =>
    intro x hx
    simp only [write, List.cons_append, List.mem_cons, List.mem_append, List.not_mem_nil, or_false] at hx
    rcases hx with rfl | (hx | hx | rfl | hx) | rfl
    · exact Or.inr (by simp)
    · cases captures
      · obtain rfl | rfl : x = '?' ∨ x = ':' := by simpa [mark] using hx
        · exact Or.inr (by simp)
        · exact Or.inl (by decide)
      · cases hx
    · exact ih1 x hx
    · exact Or.inr (by simp)
    · exact ih2 x hx
    · exact Or.inr (by simp)
  | one alternative ih => exact ih
  | more alternative others ih1 ih2 =>
    intro x hx
    simp only [write, List.mem_append, List.mem_cons] at hx
    rcases hx with hx | rfl | hx
    · exact ih1 x hx
    · exact Or.inr (by simp)
    · exact ih2 x hx

/-- A phrase begins with a plain character or a parenthesis. -/
theorem write_eq_cons {k : Shape} (p : Phrase k) : ∃ c s, p.write = c :: s ∧ (isPlain c = true ∨ c = '(') := by
  induction p with
  | char c hc => exact ⟨c, [], rfl, Or.inl hc⟩
  | both first second ih1 _ =>
    obtain ⟨c, s, hs, hc⟩ := ih1
    exact ⟨c, s ++ second.write, by rw [write, hs, List.cons_append], hc⟩
  | group captures first others => exact ⟨'(', _, rfl, Or.inr rfl⟩
  | one alternative ih => exact ih
  | more alternative others ih1 _ =>
    obtain ⟨c, s, hs, hc⟩ := ih1
    exact ⟨c, s ++ '|' :: others.write, by rw [write, hs, List.cons_append], hc⟩

theorem write_ne_nil {k : Shape} (p : Phrase k) : p.write ≠ [] := by
  obtain ⟨c, s, hs, _⟩ := p.write_eq_cons
  rw [hs]
  exact List.cons_ne_nil _ _

theorem fresh {k : Shape} (p : Phrase k) (s : Text) : Fresh (p.write ++ s) := by
  obtain ⟨c, t, ht, hc⟩ := p.write_eq_cons
  rw [ht]
  rintro x ⟨⟩
  rcases hc with hc | rfl
  · exact ⟨ne_of_isPlain hc (by decide), ne_of_isPlain hc (by decide)⟩
  · decide

/-- The first parenthesis of a phrase, if it has one, is an opening one. -/
theorem first_parenthesis {k : Shape} (p : Phrase k) :
    (∀ c ∈ p.write, isInside c = true) ∨ ∃ u v, p.write = u ++ '(' :: v ∧ ∀ c ∈ u, isInside c = true := by
  induction p with
  | char c hc =>
    left
    intro x hx
    obtain rfl : x = c := by simpa [write] using hx
    simp only [isInside, Bool.and_eq_true, bne_iff_ne]
    exact ⟨ne_of_isPlain hc (by decide), ne_of_isPlain hc (by decide)⟩
  | both first second ih1 ih2 =>
    rcases ih1 with h1 | ⟨u, v, h1, hu⟩
    · rcases ih2 with h2 | ⟨u, v, h2, hu⟩
      · left
        intro x hx
        exact (List.mem_append.1 hx).elim (h1 x) (h2 x)
      · refine Or.inr ⟨first.write ++ u, v, by rw [write, h2, List.append_assoc], ?_⟩
        intro x hx
        exact (List.mem_append.1 hx).elim (h1 x) (hu x)
    · exact Or.inr ⟨u, v ++ second.write, by simp [write, h1], hu⟩
  | group captures first others => exact Or.inr ⟨[], _, rfl, by simp⟩
  | one alternative ih => exact ih
  | more alternative others ih1 ih2 =>
    rcases ih1 with h1 | ⟨u, v, h1, hu⟩
    · rcases ih2 with h2 | ⟨u, v, h2, hu⟩
      · left
        intro x hx
        rcases List.mem_append.1 hx with hx | hx
        · exact h1 x hx
        · rcases List.mem_cons.1 hx with rfl | hx
          · decide
          · exact h2 x hx
      · refine Or.inr ⟨alternative.write ++ '|' :: u, v, by simp [write, h2], ?_⟩
        intro x hx
        rcases List.mem_append.1 hx with hx | hx
        · exact h1 x hx
        · rcases List.mem_cons.1 hx with rfl | hx
          · decide
          · exact hu x hx
    · exact Or.inr ⟨u, v ++ '|' :: others.write, by simp [write, h1], hu⟩

/-! ## What phrases write -/

/-- What it means that a phrase writes what it stands for: as items, or as alternatives. -/
def Reads : {k : Shape} → Phrase k → Prop
  | .sequence, p => Writes p.write (fun _ w _ => p.Denotes w)
  | .choice, p => WritesChoice p.write (fun _ w _ => p.Denotes w)

theorem reads {k : Shape} (p : Phrase k) : p.Reads := by
  induction p with
  | char c hc => exact writes_char (isOperator_of_isPlain hc)
  | both first second ih1 ih2 =>
    have hfresh := second.fresh []
    rw [List.append_nil] at hfresh
    exact Writes.append ih1 ih2 hfresh
  | group captures first others ih1 ih2 =>
    have hchoice : WritesChoice (first.write ++ '|' :: others.write) (fun _ w _ => first.Denotes w ∨ others.Denotes w) :=
      Writes.bar ih1 ih2
    cases captures with
    | false => exact hchoice.plainGroup
    | true =>
      refine hchoice.group ?_
      intro hq
      exact (first.fresh _ _ hq).1 rfl
  | one alternative ih => exact Writes.choice ih
  | more alternative others ih1 ih2 => exact Writes.bar ih1 ih2

/-- Parentheses around alternatives that are cut nowhere inside of them. -/
theorem passes_group {depth : Nat} {u v : Text} (captures : Bool) (hu : Passes (depth + 1) u) (hv : Passes (depth + 1) v) :
    Passes depth ('(' :: (mark captures ++ (u ++ '|' :: v)) ++ [')']) := by
  have hbar : Passes (depth + 1) ['|'] := passes_char (by decide) (by decide) (by decide) nofun
  have hmark : Passes (depth + 1) (mark captures) := by
    cases captures
    · exact fun _ => rfl
    · exact passes_nil _
  exact (hmark.append (hu.append (hbar.append hv))).group

/-- Inside of parentheses, a phrase is cut nowhere. -/
theorem passes {k : Shape} (p : Phrase k) : ∀ depth, Passes (depth + 1) p.write := by
  induction p with
  | char c hc =>
    intro depth
    exact passes_char (ne_of_isPlain hc (by decide)) (ne_of_isPlain hc (by decide)) (ne_of_isPlain hc (by decide))
      fun _ => Nat.succ_ne_zero _
  | both first second ih1 ih2 =>
    intro depth
    exact (ih1 depth).append (ih2 depth)
  | group captures first others ih1 ih2 =>
    intro depth
    exact passes_group captures (ih1 (depth + 1)) (ih2 (depth + 1))
  | one alternative ih => exact ih
  | more alternative others ih1 ih2 =>
    intro depth
    have hbar : Passes (depth + 1) ['|'] := passes_char (by decide) (by decide) (by decide) nofun
    exact (ih1 depth).append (hbar.append (ih2 depth))

/-- The parts of a phrase in front of a text that has parts. -/
theorem divides (p : Phrase .sequence) {s : Text} (h : ∃ L Ls, Divides s (L :: Ls)) :
    ∃ L Ls, Divides (p.write ++ s) (L :: Ls) := by
  match p with
  | .char c hc =>
    obtain ⟨L, Ls, h⟩ := h
    by_cases hspace : c = ' '
    · subst hspace
      exact ⟨_, _, h.space⟩
    · have hpass : Passes 0 [c] :=
        passes_char (ne_of_isPlain hc (by decide)) (ne_of_isPlain hc (by decide)) (ne_of_isPlain hc (by decide))
          fun he => absurd he hspace
      have hfresh : Fresh [c] := (Phrase.char c hc).fresh []
      exact ⟨_, _, Divides.push hpass (writes_char (isOperator_of_isPlain hc)) hfresh h fun _ _ _ => Iff.rfl⟩
  | .both first second =>
    rw [write, List.append_assoc]
    exact first.divides (second.divides h)
  | .group captures first others =>
    obtain ⟨L, Ls, h⟩ := h
    have hfresh := (Phrase.group captures first others).fresh []
    rw [List.append_nil] at hfresh
    have hpass := passes_group captures (first.passes 0) (others.passes 0)
    exact ⟨_, _, Divides.push hpass (Phrase.group captures first others).reads hfresh h fun _ _ _ => Iff.rfl⟩

end Phrase

/-! ## Phrases hold no parameters -/

/-- A rule finds nothing anywhere in the text, whatever stands in front. -/
def Quiet (rule : Rule) (s : Text) : Prop := ∀ back, Piece.hits (piecesFrom rule back 0 s) = []

theorem quiet_nil (rule : Rule) : Quiet rule [] := fun _ => rfl

theorem Quiet.cons {rule : Rule} {c : Char} {s : Text} (hc : ∀ back, rule back (c :: s) = none) (h : Quiet rule s) :
    Quiet rule (c :: s) := by
  intro back
  rw [piecesFrom, hc back]
  exact h (some c)

/-- A rule that finds nothing at the beginning of any text of certain characters finds nothing anywhere in such a text. -/
theorem quiet_of_forall {rule : Rule} {P : Char → Prop} (h : ∀ back c s, P c → (∀ x ∈ s, P x) → rule back (c :: s) = none)
    {s : Text} (hs : ∀ c ∈ s, P c) : Quiet rule s := by
  induction s with
  | nil => exact quiet_nil rule
  | cons c s ih =>
    have htail : ∀ x ∈ s, P x := fun x hx => hs x (List.mem_cons_of_mem _ hx)
    exact (ih htail).cons fun back => h back c s (hs c (by simp)) htail

/-- Without a slash there are no alternatives. -/
theorem alternativeText_eq_none {back : Option Char} {s : Text} (h : '/' ∉ s) : alternativeText back s = none := by
  have hslash : '/' ∉ s.takeWhile fun c => isLetter c || c == '/' := fun hm => h ((List.takeWhile_prefix _).subset hm)
  unfold alternativeText
  simp only
  rw [Text.splitOn_eq_list, List.splitOn_eq_singleton hslash]
  refine if_neg fun hlen => ?_
  have hle := (List.takeWhile_prefix (fun w : Text => !w.isEmpty) (l := [s.takeWhile fun c => isLetter c || c == '/'])).length_le
  rw [List.length_singleton] at hle
  omega

theorem fixedParameter_eq_none {name fragment : Text} {back : Option Char} {c : Char} {s : Text} (h : c ≠ '\x7b') :
    fixedParameter name fragment back (c :: s) = none := by
  simp [fixedParameter, Text.startsWith, braced, Text.after?, Ne.symm h]

/-- Only optional text may be found where there is no hash, brace or slash. -/
theorem quiet_of_plain {rule : Rule} (hr : rule ∈ parameterRules) (hne : rule ≠ optionalText) {s : Text}
    (hs : ∀ c ∈ s, c ≠ '#' ∧ c ≠ '\x7b' ∧ c ≠ '/') : Quiet rule s := by
  refine quiet_of_forall (P := fun c => c ≠ '#' ∧ c ≠ '\x7b' ∧ c ≠ '/') ?_ hs
  intro back c s hc hrest
  simp only [parameterRules, List.mem_cons, List.not_mem_nil, or_false] at hr
  rcases hr with rfl | rfl | rfl | rfl | rfl | rfl | rfl | rfl | rfl | rfl
  · exact interpolation_eq_none hc.1
  · exact fixedParameter_eq_none hc.2.1
  · exact fixedParameter_eq_none hc.2.1
  · exact fixedParameter_eq_none hc.2.1
  · exact fixedParameter_eq_none hc.2.1
  · exact fixedParameter_eq_none hc.2.1
  · exact fixedParameter_eq_none hc.2.1
  · exact absurd rfl hne
  · refine alternativeText_eq_none fun hm => ?_
    rcases List.mem_cons.1 hm with he | hm
    · exact hc.2.2 he.symm
    · exact (hrest _ hm).2.2 rfl
  · exact customParameter_eq_none hc.2.1

/-- Behind the letters at the beginning of a text stands no closing parenthesis, if another character comes first that is no
letter. -/
theorem head?_drop_letters {u v : Text} {x : Char} (hu : ')' ∉ u) (hx : isLowerLetter x = false) (hclose : x ≠ ')') :
    ((u ++ x :: v).drop ((u ++ x :: v).takeWhile isLowerLetter).length).head? ≠ some ')' := by
  induction u with
  | nil => simpa [hx] using hclose
  | cons c u ih =>
    rw [List.mem_cons, not_or] at hu
    by_cases hc : isLowerLetter c = true
    · simpa [hc] using ih hu.2
    · simpa [hc] using Ne.symm hu.1

theorem optionalText_paren_eq_none {back : Option Char} {u v : Text} {x : Char} (hu : ')' ∉ u) (hx : isLowerLetter x = false)
    (hclose : x ≠ ')') : optionalText back ('(' :: (u ++ x :: v)) = none := by
  have hhead := head?_drop_letters (v := v) hu hx hclose
  simp only [optionalText]
  split
  · rename_i hdrop
    rw [hdrop] at hhead
    exact absurd rfl hhead
  · rfl

theorem Quiet.skip {u s : Text} (hu : ∀ c ∈ u, c ≠ '(') (h : Quiet optionalText s) : Quiet optionalText (u ++ s) := by
  induction u with
  | nil => exact h
  | cons c u ih =>
    exact (ih fun x hx => hu x (List.mem_cons_of_mem _ hx)).cons fun back => optionalText_eq_none (hu c (by simp))

namespace Phrase

/-- The inside of a group is not just letters: a bar, a mark or a parenthesis comes first. -/
theorem inside_eq (captures : Bool) (first : Phrase .sequence) (s : Text) :
    ∃ u x v, mark captures ++ (first.write ++ '|' :: s) = u ++ x :: v ∧ ')' ∉ u ∧ isLowerLetter x = false ∧ x ≠ ')' := by
  cases captures with
  | false => exact ⟨[], '?', ':' :: (first.write ++ '|' :: s), rfl, by simp, by decide, by decide⟩
  | true =>
    have hinside : ∀ u : Text, (∀ c ∈ u, isInside c = true) → ')' ∉ u := fun u hu hm => absurd (hu _ hm) (by decide)
    rcases first.first_parenthesis with h | ⟨u, v, h, hu⟩
    · exact ⟨first.write, '|', s, rfl, hinside _ h, by decide, by decide⟩
    · refine ⟨u, '(', v ++ '|' :: s, ?_, hinside _ hu, by decide, by decide⟩
      simp [mark, h]

/-- A phrase holds no optional text. -/
theorem quiet_optionalText {k : Shape} (p : Phrase k) : ∀ {s : Text}, Quiet optionalText s → Quiet optionalText (p.write ++ s) := by
  induction p with
  | char c hc =>
    intro s h
    exact h.cons fun back => optionalText_eq_none (ne_of_isPlain hc (by decide))
  | both first second ih1 ih2 =>
    intro s h
    rw [write, List.append_assoc]
    exact ih1 (ih2 h)
  | group captures first others ih1 ih2 =>
    intro s h
    have hwrite : (group captures first others).write ++ s =
        '(' :: (mark captures ++ (first.write ++ '|' :: (others.write ++ ')' :: s))) := by
      simp [write]
    obtain ⟨u, x, v, hinside, hu, hx, hclose⟩ := inside_eq captures first (others.write ++ ')' :: s)
    have hclosed : Quiet optionalText (')' :: s) := h.cons fun back => optionalText_eq_none (by decide)
    have hbar : Quiet optionalText ('|' :: (others.write ++ ')' :: s)) :=
      (ih2 hclosed).cons fun back => optionalText_eq_none (by decide)
    have hmark : ∀ c ∈ mark captures, c ≠ '(' := by cases captures <;> simp [mark]
    rw [hwrite]
    refine ((ih1 hbar).skip hmark).cons fun back => ?_
    rw [hinside]
    exact optionalText_paren_eq_none hu hx hclose
  | one alternative ih => exact ih
  | more alternative others ih1 ih2 =>
    intro s h
    rw [write, List.append_assoc]
    exact ih1 ((ih2 h).cons fun back => optionalText_eq_none (by decide))

end Phrase

/-- The characters of a phrase between anchors. -/
theorem mem_anchored {start stop : Bool} {phrase : Option (Phrase .sequence)} {c : Char} (h : c ∈ anchored start stop phrase) :
    isPlain c = true ∨ c ∈ ['(', ')', '|', '?', '^', '$'] := by
  simp only [anchored, List.mem_append] at h
  rcases h with h | h | h
  · cases start
    · cases h
    · exact Or.inr (by simp at h; simp [h])
  · cases phrase with
    | none => cases h
    | some p =>
      rcases p.mem_write c h with h | h
      · exact Or.inl h
      · exact Or.inr (by simp at h; rcases h with h | h | h | h <;> simp [h])
  · cases stop
    · cases h
    · exact Or.inr (by simp at h; simp [h])

theorem quiet_anchored (start stop : Bool) (phrase : Option (Phrase .sequence)) :
    Quiet optionalText (anchored start stop phrase) := by
  have hstop : Quiet optionalText (if stop then ['$'] else []) := by cases stop <;> exact fun _ => rfl
  have hstart : ∀ c ∈ (if start then ['^'] else [] : Text), c ≠ '(' := by cases start <;> simp
  refine Quiet.skip hstart ?_
  cases phrase with
  | none => exact hstop
  | some p => exact p.quiet_optionalText hstop

/-- Without slashes, characters are written as they are. -/
theorem renderFrom_pattern_chars {s : Text} (h : '/' ∉ s) : ∀ back, renderFrom .pattern back (s.map .char) = s := by
  induction s with
  | nil => intro back; rfl
  | cons c s ih =>
    intro back
    rw [List.mem_cons, not_or] at h
    have hc : Kind.pattern.escapeChar back c = [c] := by simp [Kind.escapeChar, Ne.symm h.1]
    rw [List.map_cons, renderFrom, hc, ih h.2]
    rfl

/-- A phrase between anchors is a regular expression as it stands. -/
theorem source_anchored (start stop : Bool) (phrase : Option (Phrase .sequence)) :
    source .pattern true (anchored start stop phrase) = .ok (anchored start stop phrase) := by
  have habsent : ∀ x, isPlain x = false → x ∉ ['(', ')', '|', '?', '^', '$'] → x ∉ anchored start stop phrase := by
    intro x hx hother hm
    rcases mem_anchored hm with h | h
    · rw [hx] at h
      cases h
    · exact hother h
  have hn : nul ∉ anchored start stop phrase := habsent nul (by decide) (by decide)
  have hslash : '/' ∉ anchored start stop phrase := habsent '/' (by decide) (by decide)
  have hhits : ∀ rule ∈ parameterRules, Piece.hits (pieces rule (anchored start stop phrase)) = [] := by
    intro rule hr
    by_cases ho : rule = optionalText
    · subst ho
      exact quiet_anchored start stop phrase none
    · refine quiet_of_plain hr ho (fun c hc => ⟨?_, ?_, ?_⟩) none
      · rintro rfl
        exact habsent '#' (by decide) (by decide) hc
      · rintro rfl
        exact habsent '\x7b' (by decide) (by decide) hc
      · rintro rfl
        exact hslash hc
  unfold source
  rw [unanchored_eq_render .pattern hn, tokens_of_hits_nil hn hhits, render_eq_renderFrom, renderFrom_pattern_chars hslash]
  rfl

/-! ## Compiling -/

/-- What is found between anchors, as far as they are asked for. -/
def Between (start stop : Bool) (K : Text → Prop) : Span := fun before w after =>
  (start = true → before = []) ∧ K w ∧ (stop = true → after = [] ∨ after = ['\n'])

theorem writes_anchored (start stop : Bool) (phrase : Option (Phrase .sequence)) :
    Writes (anchored start stop phrase) (Between start stop (PhraseDenotes phrase)) := by
  have hphrase : Writes ((phrase.map Phrase.write).getD []) (fun _ w _ => PhraseDenotes phrase w) := by
    cases phrase with
    | none => exact writes_nil
    | some p => exact p.reads
  have hstop : Writes ((phrase.map Phrase.write).getD [] ++ (if stop then ['$'] else []))
      (fun _ w after => PhraseDenotes phrase w ∧ (stop = true → after = [] ∨ after = ['\n'])) := by
    cases stop with
    | false =>
      rw [if_neg (by decide), List.append_nil]
      exact hphrase.congr fun before w after => by simp
    | true =>
      refine (hphrase.append writes_stop (by decide)).congr fun before w after => ?_
      rw [seq_stop_iff]
      simp
  have hfresh : Fresh ((phrase.map Phrase.write).getD [] ++ (if stop then ['$'] else [])) := by
    cases phrase with
    | none => cases stop <;> decide
    | some p => exact p.fresh _
  cases start with
  | false => exact hstop.congr fun before w after => by simp [Between]
  | true =>
    refine (writes_start.append hstop hfresh).congr fun before w after => ?_
    rw [seq_start_iff]
    simp [Between]

theorem divides_anchored (start stop : Bool) (phrase : Option (Phrase .sequence)) :
    ∃ L Ls, Divides (anchored start stop phrase) (L :: Ls) := by
  have hend : ∃ L Ls, Divides (if stop then ['$'] else []) (L :: Ls) := by
    cases stop with
    | false => exact ⟨_, _, divides_nil⟩
    | true =>
      have hpass : Passes 0 ['$'] := fun _ => rfl
      exact ⟨_, _, Divides.push hpass writes_stop (by decide) divides_nil fun _ _ _ => Iff.rfl⟩
  have hphrase : ∃ L Ls, Divides ((phrase.map Phrase.write).getD [] ++ (if stop then ['$'] else [])) (L :: Ls) := by
    cases phrase with
    | none => exact hend
    | some p => exact p.divides hend
  cases start with
  | false => exact hphrase
  | true =>
    obtain ⟨L, Ls, h⟩ := hphrase
    have hpass : Passes 0 ['^'] := fun _ => rfl
    exact ⟨_, _, Divides.push hpass writes_start (by decide) h fun _ _ _ => Iff.rfl⟩

/-- A phrase between anchors compiles, and it is found where the phrase stands for something. -/
theorem compile_anchored (start stop : Bool) (phrase : Option (Phrase .sequence)) :
    ∃ c, compile .pattern (anchored start stop phrase) = .ok c ∧ c.full.Finds (Between start stop (PhraseDenotes phrase)) := by
  obtain ⟨L, Ls, hparts⟩ := divides_anchored start stop phrase
  obtain ⟨c, hc, _, hfull, _⟩ :=
    compile_of_writes (source_anchored start stop phrase) (writes_anchored start stop phrase).choice hparts
  exact ⟨c, hc, hfull⟩

end StepCatalog.Body
