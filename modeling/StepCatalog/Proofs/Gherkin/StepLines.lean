import Mathlib.Data.List.DropRight
import StepCatalog.Proofs.Gherkin.LinePattern
import StepCatalog.Proofs.Gherkin.Words
import StepCatalog.Proofs.Traversal

/-!
# Lines cut into step lines

A line is a step line if some keyword of the languages stands behind its indentation, with a blank behind it; it is cut at the
longest such keyword (`parse?_eq_some_iff`). The keywords are tried in an order that their set alone decides
(`alternatives_congr`), so neither the order of the languages nor a repetition of one matters to the cut. It does matter to the
category of the keyword, which is that of the first language and category with the word (`lookup_keywordTable`).

Main statement: `parse?_cuts_line`.
-/

namespace StepCatalog

namespace Gherkin

open Regex
open Text (of)

/-! ## Words in order -/

theorem nodup_eraseDups {α : Type} [BEq α] [LawfulBEq α] (xs : List α) : xs.eraseDups.Nodup := by
  induction hlen : xs.length using Nat.strongRecOn generalizing xs with
  | ind n ih =>
    cases xs with
    | nil => simp
    | cons x xs =>
      subst hlen
      rw [List.eraseDups_cons, List.nodup_cons]
      refine ⟨?_, ih _ (Nat.lt_succ_of_le (List.length_filter_le _ xs)) _ rfl⟩
      simp

theorem longestFirst_iff (a b : Text) : longestFirst a b = true ↔ b.length < a.length ∨ a.length = b.length ∧ a ≤ b := by
  rw [longestFirst, Bool.or_eq_true, decide_eq_true_eq, Bool.and_eq_true, beq_iff_eq, Text.le_iff]

/-- The words come longest first, in an order that leaves no choice. -/
theorem pairwise_alternatives (words : List Text) : (alternatives words).Pairwise fun a b => longestFirst a b = true := by
  refine List.pairwise_mergeSort ?_ ?_ _
  · intro a b c hab hbc
    rw [longestFirst_iff] at *
    rcases hab with hab | ⟨hab, hle⟩ <;> rcases hbc with hbc | ⟨hbc, hle'⟩
    · exact .inl (by omega)
    · exact .inl (by omega)
    · exact .inl (by omega)
    · exact .inr ⟨by omega, le_trans hle hle'⟩
  · intro a b
    rw [Bool.or_eq_true, longestFirst_iff, longestFirst_iff]
    rcases Nat.lt_trichotomy a.length b.length with hlt | heq | hgt
    · exact .inr (.inl hlt)
    · rcases le_total a b with hle | hle
      · exact .inl (.inr ⟨heq, hle⟩)
      · exact .inr (.inr ⟨heq.symm, hle⟩)
    · exact .inl (.inl hgt)

theorem mem_alternatives {words : List Text} {w : Text} : w ∈ alternatives words ↔ w ∈ words := by
  rw [alternatives, List.mem_mergeSort, List.mem_eraseDups]

/-- The order of the words depends on their set only. -/
theorem alternatives_congr {xs ys : List Text} (h : ∀ w, w ∈ xs ↔ w ∈ ys) : alternatives xs = alternatives ys := by
  have hnodup : ∀ words, (alternatives words).Nodup := fun words =>
    (List.mergeSort_perm _ _).nodup_iff.2 (nodup_eraseDups words)
  have hperm : (alternatives xs).Perm (alternatives ys) := by
    rw [List.perm_ext_iff_of_nodup (hnodup xs) (hnodup ys)]
    intro w
    rw [mem_alternatives, mem_alternatives, h]
  refine List.Perm.eq_of_pairwise ?_ (pairwise_alternatives xs) (pairwise_alternatives ys) hperm
  intro a b _ _ hab hba
  rw [longestFirst_iff] at hab hba
  rcases hab with hab | ⟨_, hle⟩ <;> rcases hba with hba | ⟨_, hle'⟩
  · omega
  · omega
  · omega
  · exact le_antisymm hle hle'

/-! ## Keywords -/

/-- A word that some language lists for some category. -/
def IsKeyword (ls : List Language) (w : Text) : Prop := ∃ l ∈ ls, ∃ t ∈ StepType.ofKeywords, w ∈ l.words t

/-- The text begins with a word, and a blank follows the word. -/
def BlankFollows (w s : Text) : Prop := ∃ c rest, s = w ++ c :: rest ∧ isBlank c = true

variable {ls : List Language}

/-- A keyword has no blanks at its ends, and is not empty. -/
theorem IsKeyword.trimmed {w : Text} (h : IsKeyword ls w) : w.trim = w ∧ ∃ c rest, w = c :: rest ∧ isBlank c = false := by
  obtain ⟨l, _, t, _, hw⟩ := h
  simp only [Language.words, cleanWords, List.mem_filter, List.mem_map, Bool.and_eq_true, Bool.not_eq_true'] at hw
  obtain ⟨⟨listed, _, rfl⟩, hne, -⟩ := hw
  refine ⟨Text.trim_trim _, ?_⟩
  cases htrim : Text.trim listed.toList with
  | nil => simp [htrim] at hne
  | cons c rest => exact ⟨c, rest, rfl, Text.isBlank_of_trim_eq_cons htrim⟩

theorem isKeyword_of_mem {w : Text} (h : w ∈ stepKeywords ls) : IsKeyword ls w := mem_stepKeywords.1 h

theorem stepKeywords_ne_nil (h : ∃ w, IsKeyword ls w) : stepKeywords ls ≠ [] := by
  obtain ⟨w, hw⟩ := h
  exact List.ne_nil_of_mem (mem_stepKeywords.2 hw)

/-! ## Cutting a line -/

/-- The step line is a line cut into parts: all leading blanks, the longest keyword there that a blank follows, all blanks behind
the keyword, and what follows them up to the first line feed. -/
structure StepLine.Cuts (ls : List Language) (line : Text) (s : StepLine) : Prop where
  indent : s.indent = line.takeWhile isBlank
  keyword : IsKeyword ls s.keyword
  longest : ∀ w, IsKeyword ls w → BlankFollows w (line.dropWhile isBlank) → w.length ≤ s.keyword.length
  rest : ∃ rest, line.dropWhile isBlank = s.keyword ++ rest ∧ s.gap = rest.takeWhile isBlank ∧ s.gap ≠ [] ∧
    s.text = (rest.dropWhile isBlank).takeWhile (· != '\n')

/-- The step line with a keyword. -/
theorem bind_ofRest?_eq_some {indent keyword s : Text} {l : StepLine} :
    (Text.after? keyword s).bind (StepLine.ofRest? indent keyword) = some l ↔
      l.indent = indent ∧ l.keyword = keyword ∧ ∃ rest, s = keyword ++ rest ∧ l.gap = rest.takeWhile isBlank ∧ l.gap ≠ [] ∧
        l.text = (rest.dropWhile isBlank).takeWhile (· != '\n') := by
  rw [Option.bind_eq_some_iff]
  constructor
  · rintro ⟨rest, hafter, hl⟩
    unfold StepLine.ofRest? at hl
    split at hl
    · cases hl
    · rename_i hgap
      cases hl
      exact ⟨rfl, rfl, rest, Text.after?_eq_some_iff.1 hafter, rfl, hgap, rfl⟩
  · rintro ⟨rfl, rfl, rest, hs, hgap, hne, htext⟩
    refine ⟨rest, Text.after?_eq_some_iff.2 hs, ?_⟩
    unfold StepLine.ofRest?
    split
    · rename_i hnil
      exact absurd (hgap.trans hnil) hne
    · rw [untilNewline, ← hgap, ← htext]

theorem blankFollows_iff {keyword s : Text} :
    BlankFollows keyword s ↔ ∃ rest, s = keyword ++ rest ∧ rest.takeWhile isBlank ≠ [] := by
  constructor
  · rintro ⟨c, rest, rfl, hc⟩
    exact ⟨c :: rest, rfl, by simp [hc]⟩
  · rintro ⟨rest, rfl, hne⟩
    cases rest with
    | nil => exact absurd rfl hne
    | cons c rest =>
      refine ⟨c, rest, rfl, ?_⟩
      by_contra hc
      rw [List.takeWhile_cons, if_neg hc] at hne
      exact hne rfl

theorem bind_ofRest?_isSome {indent keyword s : Text} :
    ((Text.after? keyword s).bind (StepLine.ofRest? indent keyword)).isSome = true ↔ BlankFollows keyword s := by
  rw [Option.isSome_iff_exists, blankFollows_iff]
  constructor
  · rintro ⟨l, hl⟩
    obtain ⟨-, -, rest, hs, hgap, hne, -⟩ := bind_ofRest?_eq_some.1 hl
    exact ⟨rest, hs, hgap ▸ hne⟩
  · rintro ⟨rest, hs, hne⟩
    exact ⟨⟨indent, keyword, _, _⟩, bind_ofRest?_eq_some.2 ⟨rfl, rfl, rest, hs, rfl, hne, rfl⟩⟩

/-- A line is a step line if a keyword with a blank behind it follows its indentation. -/
theorem parse?_isSome_iff (h : ∃ w, IsKeyword ls w) (line : Text) :
    (StepLine.parse? ls line).isSome = true ↔ ∃ w, IsKeyword ls w ∧ BlankFollows w (line.dropWhile isBlank) := by
  rw [StepLine.parse?, withKeywords?_eq (stepKeywords_ne_nil h), List.findSome?_isSome_iff]
  simp only [bind_ofRest?_isSome, mem_stepKeywords, IsKeyword]

/-- The cut of a step line is made at the longest keyword. -/
theorem cuts_of_parse? (h : ∃ w, IsKeyword ls w) {line : Text} {s : StepLine} (hs : StepLine.parse? ls line = some s) :
    s.Cuts ls line := by
  rw [StepLine.parse?, withKeywords?_eq (stepKeywords_ne_nil h), List.findSome?_eq_some_iff] at hs
  obtain ⟨earlier, w, later, hwords, hcut, hearlier⟩ := hs
  obtain ⟨hindent, rfl, hrest⟩ := bind_ofRest?_eq_some.1 hcut
  refine ⟨hindent, isKeyword_of_mem (by rw [hwords]; simp), fun w hw hblank => ?_, hrest⟩
  have hmem := mem_stepKeywords.2 hw
  rw [hwords, List.mem_append, List.mem_cons] at hmem
  rcases hmem with hmem | rfl | hmem
  · have hcut' : ((Text.after? w (line.dropWhile isBlank)).bind (StepLine.ofRest? (line.takeWhile isBlank) w)).isSome = true :=
      bind_ofRest?_isSome.2 hblank
    rw [hearlier w hmem] at hcut'
    cases hcut'
  · exact Nat.le_refl _
  · have hsorted : (stepKeywords ls).Pairwise fun a b => longestFirst a b = true := pairwise_alternatives _
    rw [hwords] at hsorted
    have hfirst := (List.pairwise_cons.1 (List.pairwise_append.1 hsorted).2.1).1 w hmem
    rcases (longestFirst_iff _ _).1 hfirst with hlt | ⟨heq, _⟩ <;> omega

/-- A line can be cut in one way only. -/
theorem StepLine.Cuts.unique {line : Text} {s s' : StepLine} (h : s.Cuts ls line) (h' : s'.Cuts ls line) : s = s' := by
  obtain ⟨rest, hline, hgap, hne, htext⟩ := h.rest
  obtain ⟨rest', hline', hgap', hne', htext'⟩ := h'.rest
  have hle := h'.longest s.keyword h.keyword (blankFollows_iff.2 ⟨rest, hline, hgap ▸ hne⟩)
  have hge := h.longest s'.keyword h'.keyword (blankFollows_iff.2 ⟨rest', hline', hgap' ▸ hne'⟩)
  obtain ⟨hkeyword, rfl⟩ := List.append_inj (hline.symm.trans hline') (Nat.le_antisymm hle hge)
  have hindent := h.indent.trans h'.indent.symm
  have hsameGap := hgap.trans hgap'.symm
  have hsameText := htext.trans htext'.symm
  cases s
  cases s'
  rw [StepLine.mk.injEq]
  exact ⟨hindent, hkeyword, hsameGap, hsameText⟩

theorem parse?_eq_some_iff (h : ∃ w, IsKeyword ls w) {line : Text} {s : StepLine} :
    StepLine.parse? ls line = some s ↔ s.Cuts ls line := by
  refine ⟨cuts_of_parse? h, fun hcuts => ?_⟩
  obtain ⟨rest, hline, hgap, hne, -⟩ := hcuts.rest
  have hsome := (parse?_isSome_iff h line).2 ⟨s.keyword, hcuts.keyword, blankFollows_iff.2 ⟨rest, hline, hgap ▸ hne⟩⟩
  obtain ⟨s', hs'⟩ := Option.isSome_iff_exists.1 hsome
  rw [hs', (cuts_of_parse? h hs').unique hcuts]

/-! ## Languages by their codes -/

/-- Neither the order of codes nor a repetition changes which languages they stand for. -/
theorem resolveLanguages_congr {table : List Language} {codes codes' : List Text} (h : resolveLanguages table codes = .ok ls)
    (hcodes : ∀ code, code ∈ codes' ↔ code ∈ codes) :
    ∃ ls', resolveLanguages table codes' = .ok ls' ∧ ∀ l, l ∈ ls' ↔ l ∈ ls := by
  have hfound := exists_mapM_eq_ok_iff.1 ⟨ls, h⟩
  obtain ⟨ls', h'⟩ := exists_mapM_eq_ok_iff.2 fun code hcode => hfound code ((hcodes code).1 hcode)
  refine ⟨ls', h', fun l => ?_⟩
  rw [mem_of_mapM_eq_ok h', mem_of_mapM_eq_ok h]
  simp only [hcodes]

theorem parse?_congr {ls' : List Language} (h : ∀ l, l ∈ ls' ↔ l ∈ ls) (line : Text) :
    StepLine.parse? ls' line = StepLine.parse? ls line := by
  have hwords : stepKeywords ls' = stepKeywords ls := by
    refine alternatives_congr fun w => ?_
    simp only [List.mem_flatMap, h]
  rw [StepLine.parse?, StepLine.parse?, hwords]

/-! ## The category of a keyword -/

/-- The language lists the word for the category, in upper or lower case. -/
def Lists (l : Language) (t : StepType) (word : Text) : Prop := ∃ w ∈ l.words t, Text.lower w = Text.lower word

/-- The languages with their categories, in order of precedence. -/
def categories (ls : List Language) : List (Language × StepType) := ls.flatMap fun l => StepType.ofKeywords.map fun t => (l, t)

/-- A category is the first one, in the order of the languages, for which a word is listed. -/
def IsFirstCategory (ls : List Language) (word : Text) (t : StepType) : Prop :=
  ∃ earlier l later, categories ls = earlier ++ (l, t) :: later ∧ Lists l t word ∧ ∀ p ∈ earlier, ¬Lists p.1 p.2 word

theorem keywordTable_eq (ls : List Language) :
    keywordTable ls = (categories ls).flatMap fun p => (p.1.words p.2).map fun w => (Text.lower w, p.2) := by
  simp only [keywordTable, categories, Language.keywords, List.flatMap_assoc, List.map_flatMap, List.flatMap_map, List.map_map,
    Function.comp_def]

theorem lookup_flatMap {κ α β : Type} [BEq κ] (key : κ) (xs : List α) (f : α → List (κ × β)) :
    (xs.flatMap f).lookup key = xs.findSome? fun x => (f x).lookup key := by
  induction xs with
  | nil => rfl
  | cons x xs ih =>
    rw [List.flatMap_cons, List.lookup_append, ih, List.findSome?_cons]
    cases (f x).lookup key <;> rfl

/-- Under the lower case of a word stands the category it is listed for. -/
theorem lookup_words_eq_some {words : List Text} {t u : StepType} {key : Text} :
    (words.map fun w => (Text.lower w, t)).lookup key = some u ↔ t = u ∧ ∃ w ∈ words, Text.lower w = key := by
  induction words with
  | nil => simp
  | cons w words ih =>
    rw [List.map_cons, List.lookup_cons]
    by_cases hw : key = Text.lower w
    · simp [hw]
    · have hother : (key == Text.lower w) = false := by simpa using hw
      rw [hother, ih]
      simp [Ne.symm hw]

/-- The category of a word that some language lists is the first one for which it is listed. -/
theorem lookup_keywordTable {word : Text} {t : StepType} :
    (keywordTable ls).lookup (Text.lower word) = some t ↔ IsFirstCategory ls word t := by
  have hnone : ∀ p : Language × StepType, ((p.1.words p.2).map fun w => (Text.lower w, p.2)).lookup (Text.lower word) = none ↔
      ¬Lists p.1 p.2 word := by
    intro p
    rw [Option.eq_none_iff_forall_ne_some]
    constructor
    · exact fun h hlists => h p.2 (lookup_words_eq_some.2 ⟨rfl, hlists⟩)
    · exact fun h u hu => h (lookup_words_eq_some.1 hu).2
  rw [keywordTable_eq, lookup_flatMap, List.findSome?_eq_some_iff, IsFirstCategory]
  simp only [hnone, lookup_words_eq_some]
  constructor
  · rintro ⟨earlier, ⟨l, u⟩, later, hsplit, ⟨rfl, hlists⟩, hearlier⟩
    exact ⟨earlier, l, later, hsplit, hlists, hearlier⟩
  · rintro ⟨earlier, l, later, hsplit, hlists, hearlier⟩
    exact ⟨earlier, (l, t), later, hsplit, ⟨rfl, hlists⟩, hearlier⟩

/-- A keyword has a category. -/
theorem stepTypeOf_of_isKeyword {w : Text} (h : IsKeyword ls w) :
    stepTypeOf ls w ≠ .other ∧ IsFirstCategory ls w (stepTypeOf ls w) := by
  rw [stepTypeOf, h.trimmed.1]
  cases hlookup : (keywordTable ls).lookup (Text.lower w) with
  | none =>
    obtain ⟨l, hl, t, ht, hw⟩ := h
    have hmem : (l, t) ∈ categories ls := List.mem_flatMap.2 ⟨l, hl, List.mem_map.2 ⟨t, ht, rfl⟩⟩
    rw [keywordTable_eq, lookup_flatMap, List.findSome?_eq_none_iff] at hlookup
    have hnone := hlookup (l, t) hmem
    rw [lookup_words_eq_some.2 ⟨rfl, w, hw, rfl⟩] at hnone
    cases hnone
  | some t =>
    have hfirst := lookup_keywordTable.1 hlookup
    refine ⟨?_, hfirst⟩
    obtain ⟨earlier, l, later, hsplit, -, -⟩ := hfirst
    have hmem : (l, t) ∈ categories ls := by rw [hsplit]; simp
    obtain ⟨l', -, hpair⟩ := List.mem_flatMap.1 hmem
    obtain ⟨t', ht', heq⟩ := List.mem_map.1 hpair
    cases heq
    rintro (rfl : t = .other)
    revert ht'
    decide

/-- A line is a step line if a keyword stands behind its indentation with a blank behind it, and then it is cut at the longest such
keyword; this is what the pattern of step lines matches. Only the set of the languages matters to it. The keyword has the first
category for which it is listed. -/
theorem parse?_cuts_line (table : List Language) (codes : List Text) (ls : List Language)
    (hls : resolveLanguages table codes = .ok ls) (hkeyword : ∃ w, IsKeyword ls w) (line : Text) :
    (∃ node, Node.ofText? (linePattern ls) {} = .ok node ∧
      node.match? line = (StepLine.parse? ls line).map StepLine.asMatch) ∧
    ((StepLine.parse? ls line).isSome = true ↔ ∃ w, IsKeyword ls w ∧ BlankFollows w (line.dropWhile isBlank)) ∧
    (∀ s, StepLine.parse? ls line = some s ↔ s.Cuts ls line) ∧
    (∀ codes', (∀ code, code ∈ codes' ↔ code ∈ codes) →
      ∃ ls', resolveLanguages table codes' = .ok ls' ∧ StepLine.parse? ls' line = StepLine.parse? ls line) ∧
    ∀ s, StepLine.parse? ls line = some s →
      stepTypeOf ls s.keyword ≠ .other ∧ IsFirstCategory ls s.keyword (stepTypeOf ls s.keyword) := by
  have hne := stepKeywords_ne_nil hkeyword
  have hwords : ∀ w ∈ stepKeywords ls, ∃ c rest, w = c :: rest ∧ isBlank c = false :=
    fun w hw => (isKeyword_of_mem hw).trimmed.2
  have hread : Node.ofText? (linePattern ls) {} = .ok (lineNode (stepKeywords ls)) := by
    refine ofText?_linePattern hne fun w hw => ?_
    obtain ⟨c, rest, rfl, -⟩ := hwords w hw
    exact List.cons_ne_nil c rest
  refine ⟨⟨_, hread, match?_lineNode hne hwords line⟩, parse?_isSome_iff hkeyword line, fun s => parse?_eq_some_iff hkeyword,
    fun codes' hcodes => ?_, fun s hs => stepTypeOf_of_isKeyword (cuts_of_parse? hkeyword hs).keyword⟩
  obtain ⟨ls', hls', hsame⟩ := resolveLanguages_congr hls hcodes
  exact ⟨ls', hls', parse?_congr hsame line⟩

/-- Two languages of which one has a longer form of a keyword of the other: the question mark and the space in it stand for
themselves, and the order of the languages does not matter. -/
theorem parse?_cuts_line_longer :
    let table : List Language := [⟨"p", ["Given "], [], [], [], [], []⟩, ⟨"q", [], ["given ", "Given a? "], [], ["* "], [], []⟩]
    let line := of " Given a?  x"
    ∃ ls ls', resolveLanguages table [of "q", of "p"] = .ok ls ∧ resolveLanguages table [of "p", of "q", of "p"] = .ok ls' ∧
      StepLine.parse? ls line = some ⟨of " ", of "Given a?", of "  ", of "x"⟩ ∧
      StepLine.parse? ls' line = StepLine.parse? ls line ∧ stepTypeOf ls (of "Given a?") ≠ .other := by
  intro table line
  have hls : resolveLanguages table [of "q", of "p"] = .ok table.reverse := by rfl
  have hlonger : IsKeyword table.reverse (of "Given a?") :=
    ⟨_, List.mem_cons_self, .action, by decide, by decide +kernel⟩
  obtain ⟨-, -, hcuts, hsame, htype⟩ := parse?_cuts_line table _ _ hls ⟨_, hlonger⟩ line
  obtain ⟨ls', hls', hline⟩ := hsame [of "p", of "q", of "p"] (by simp)
  have hlength : ∀ l ∈ table.reverse, ∀ t ∈ StepType.ofKeywords, ∀ w ∈ l.words t, w.length ≤ (of "Given a?").length := by
    decide +kernel
  have hparse := (hcuts ⟨of " ", of "Given a?", of "  ", of "x"⟩).2
    { indent := by decide +kernel
      keyword := hlonger
      longest := fun w ⟨l, hl, t, ht, hw⟩ _ => hlength l hl t ht w hw
      rest := ⟨of "  x", by decide +kernel⟩ }
  exact ⟨table.reverse, ls', hls, hls', hparse, hline, (htype _ hparse).1⟩

end Gherkin
end StepCatalog
