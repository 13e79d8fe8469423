import Mathlib.Algebra.BigOperators.Group.List.Basic
import Mathlib.Data.List.GetD
import Mathlib.Logic.Function.Iterate
import StepCatalog.Proofs.Body.Expanding
import StepCatalog.Proofs.Body.Leading

/-!
# The expansion as a product of choices

The expansion takes the first body of a list in each round and puts its variants in its place (`Work.round`). Every round makes the
list lighter and leaves alone what it will come to (`Work.weights_round_lt`, `Work.result_round`), so the list is empty after
finitely many rounds (`Work.exists_rounds`). What it has come to by then is a recursion on the first group of the body, where a group
is what the regular expression `groupPattern` takes (`expand_of_no_group`, `expand_of_firstGroup`).

For a body of plain groups next to each other the recursion runs through all ways to choose one alternative of each group; the ways
are listed in lexicographic order (`expand_body`).

Main statement: `expand_lists_choices`.
-/

namespace StepCatalog

namespace Regex

/-! ## Characters that are no parentheses -/

/-- Every character but parentheses, as the set is written in two orders. -/
theorem writesSet_noParenthesis : WritesSet ['[', '^', '(', ')', ']'] ⟨.exact, true, [.code 40, .code 41]⟩ := by
  intro d hd
  rw [Draft.feedAll_cons_of_ok (feed_bracket hd)]
  show Except.ok (Draft.pushSet { d with mode := .set ⟨true, [.code 40]⟩ (.after (.code 41)) } true [.code 40, .code 41]) = _
  rw [pushSet_ready hd]
  rfl

theorem writesSet_noParenthesis_twice : WritesSet ['[', '^', ')', '(', ')', ']'] ⟨.exact, true, [.code 41, .code 40]⟩ := by
  intro d hd
  rw [Draft.feedAll_cons_of_ok (feed_bracket hd)]
  show Except.ok (Draft.pushSet { d with mode := .set ⟨true, [.code 40, .code 41]⟩ (.after (.code 41)) } true
    [.code 41, .code 40, .code 41]) = _
  rw [pushSet_ready hd]
  rfl

end Regex

namespace Body

open Regex
open Text (of)
open Phrase (mark)

/-! ## Groups in a text -/

/-- The regular expression of a group of alternatives without parentheses inside. -/
def groupPattern : Text := of "(\\([^)()]+\\|[^()]+\\))"

/-- The inside of a group: no parenthesis, and a bar with something on both sides. -/
structure IsGroupInside (inside : Text) : Prop where
  plain : ∀ c ∈ inside, isInside c = true
  bar : hasInnerBar inside = true

theorem hasInnerBar_iff (inside : Text) : hasInnerBar inside = true ↔ ∃ u v, inside = u ++ '|' :: v ∧ u ≠ [] ∧ v ≠ [] := by
  constructor
  · intro h
    cases inside with
    | nil => cases h
    | cons c s =>
      obtain ⟨u, v, huv⟩ := List.append_of_mem (List.contains_iff_mem.1 h)
      rcases List.eq_nil_or_concat s with rfl | ⟨init, last, rfl⟩
      · simp at huv
      · rw [List.concat_eq_append, List.dropLast_concat] at huv
        refine ⟨c :: u, v ++ [last], ?_, List.cons_ne_nil _ _, by simp⟩
        rw [List.concat_eq_append, huv]
        simp
  · rintro ⟨u, v, rfl, hu, hv⟩
    exact hasInnerBar_append hu hv

theorem noParenthesis_holds (c : Char) {codes : List Member} (h : codes = [.code 40, .code 41] ∨ codes = [.code 41, .code 40]) :
    CharSet.holds ⟨.exact, true, codes⟩ c = true ↔ isInside c = true := by
  have hcode : ∀ d : Char, (d.toNat == c.toNat) = (c == d) := by
    intro d
    rw [Bool.eq_iff_iff, beq_iff_eq, beq_iff_eq, Char.toNat_inj, eq_comm]
  have hopen : (40 == c.toNat) = (c == '(') := hcode '('
  have hclose : (41 == c.toNat) = (c == ')') := hcode ')'
  rcases h with rfl | rfl <;> simp [CharSet.holds, Member.holds, CaseFold.code, isInside, hopen, hclose, and_comm]

theorem writes_groupPattern : Writes groupPattern (fun _ w _ => ∃ inside, w = '(' :: (inside ++ [')']) ∧ IsGroupInside inside) := by
  rw [show groupPattern = '(' :: (['\\', '('] ++ ((['[', '^', ')', '(', ')', ']'] ++ ['+']) ++ (['\\', '|'] ++
    ((['[', '^', '(', ')', ']'] ++ ['+']) ++ ['\\', ')'])))) ++ [')'] by decide]
  have hclose := writes_escaped (c := ')') (by decide)
  have hsecond := (writesSet_noParenthesis.quantified feed_plus nofun).append hclose (by decide)
  have hbar := (writes_escaped (c := '|') (by decide)).append hsecond (by decide)
  have hfirst := (writesSet_noParenthesis_twice.quantified feed_plus nofun).append hbar (by decide)
  have hopen := (writes_escaped (c := '(') (by decide)).append hfirst (by decide)
  refine (hopen.choice.group (by decide)).congr fun before w after => ?_
  simp only [Span.seq, many_plus, noParenthesis_holds _ (.inl rfl), noParenthesis_holds _ (.inr rfl)]
  constructor
  · rintro ⟨_, _, rfl, rfl, u, _, rfl, ⟨hu, hu'⟩, _, _, rfl, rfl, v, _, rfl, ⟨hv, hv'⟩, rfl⟩
    refine ⟨u ++ '|' :: v, by simp, ?_, hasInnerBar_append hu hv⟩
    intro c hc
    rcases List.mem_append.1 hc with hc | hc
    · exact hu' c hc
    · rcases List.mem_cons.1 hc with rfl | hc
      · decide
      · exact hv' c hc
  · rintro ⟨inside, rfl, hplain, hbar⟩
    obtain ⟨u, v, rfl, hu, hv⟩ := (hasInnerBar_iff inside).1 hbar
    refine ⟨['('], _, rfl, rfl, u, '|' :: (v ++ [')']), by simp, ⟨hu, fun c hc => hplain c (by simp [hc])⟩, ?_⟩
    exact ⟨['|'], _, rfl, rfl, v, [')'], rfl, ⟨hv, fun c hc => hplain c (by simp [hc])⟩, rfl⟩

theorem spells_groupPattern_iff (w : Text) :
    Spells groupPattern w ↔ ∃ inside, w = '(' :: (inside ++ [')']) ∧ IsGroupInside inside :=
  spells_iff writes_groupPattern w

/-- What stands between `before` and `after` in the text is a group of alternatives. -/
def GroupAt (s before group after : Text) : Prop := s = before ++ (group ++ after) ∧ Spells groupPattern group

/-- The group of alternatives that begins first. -/
structure FirstGroup (s before group after : Text) : Prop where
  stands : GroupAt s before group after
  first : ∀ before' group' after', GroupAt s before' group' after' → before.length ≤ before'.length

theorem GroupAt.cons {s before group after : Text} (h : GroupAt s before group after) (c : Char) :
    GroupAt (c :: s) (c :: before) group after :=
  ⟨by rw [h.1]; rfl, h.2⟩

/-- Where no group begins with the text, no inside of a group begins behind its first parenthesis. -/
theorem groupInside?_of_no_group {s : Text} (h : ∀ group after, ¬GroupAt ('(' :: s) [] group after) : groupInside? s = none := by
  cases hs : groupInside? s with
  | none => rfl
  | some found =>
    obtain ⟨inside, rfl, hplain, -⟩ := groupInside?_eq_some hs
    rw [groupInside?_append hplain] at hs
    split at hs
    · rename_i hbar
      have hgroup : Spells groupPattern ('(' :: (inside ++ [')'])) := (spells_groupPattern_iff _).2 ⟨inside, rfl, hplain, hbar⟩
      exact absurd ⟨by simp, hgroup⟩ (h _ found.2)
    · cases hs

theorem variants?_of_no_group {s : Text} (h : ∀ before group after, ¬GroupAt s before group after) : variants? s = none := by
  induction s with
  | nil => rfl
  | cons c s ih =>
    have hfirst : c = '(' → groupInside? s = none := by
      rintro rfl
      exact groupInside?_of_no_group (h [])
    rw [variants?_cons hfirst, ih fun before group after hgroup => h _ _ _ (hgroup.cons c)]
    rfl

theorem variants?_of_firstGroup {s before inside after : Text} (h : FirstGroup s before ('(' :: (inside ++ [')'])) after)
    (hinside : IsGroupInside inside) : variants? s = some ((alternativesOf inside).map fun a => before ++ (a ++ after)) := by
  induction before generalizing s with
  | nil =>
    have hs : s = '(' :: (inside ++ ')' :: after) := by simpa using h.stands.1
    rw [hs, variants?_group hinside.plain hinside.bar]
    rfl
  | cons c before ih =>
    obtain ⟨rfl, hspells⟩ := h.stands
    -- the first group begins behind this character, so none begins with it
    have hnone : c = '(' → groupInside? (before ++ ('(' :: (inside ++ [')']) ++ after)) = none := by
      rintro rfl
      refine groupInside?_of_no_group fun group after' hgroup => ?_
      exact absurd (h.first _ _ _ hgroup) (by simp)
    have hrest : FirstGroup (before ++ ('(' :: (inside ++ [')']) ++ after)) before ('(' :: (inside ++ [')'])) after :=
      ⟨⟨rfl, hspells⟩, fun _ _ _ hgroup => Nat.le_of_succ_le_succ (h.first _ _ _ (hgroup.cons c))⟩
    rw [List.cons_append, variants?_cons hnone, ih hrest, Option.map_some, List.map_map]
    rfl

/-! ## The recursion -/

/-- The group holds the alternatives with bars between them, perhaps behind the mark of a group that does not capture. -/
structure Alternatives (group : Text) (alternatives : List Text) : Prop where
  nonempty : alternatives ≠ []
  noBar : ∀ a ∈ alternatives, '|' ∉ a
  written : ∃ captures, group = '(' :: (mark captures ++ Text.join ['|'] alternatives ++ [')']) ∧
    (captures = true → ¬of "?:" <+: Text.join ['|'] alternatives)

theorem alternatives_of_split (captures : Bool) {s : Text} (h : captures = true → ¬of "?:" <+: s) :
    Alternatives ('(' :: (mark captures ++ s ++ [')'])) (Text.splitOn '|' s) := by
  refine ⟨Text.splitOn_ne_nil _ _, fun a ha => Text.not_mem_of_mem_splitOn ha, captures, ?_⟩
  rw [Text.join_splitOn]
  exact ⟨rfl, h⟩

/-- What a group holds between its parentheses is written with its alternatives. -/
theorem alternatives_of_inside (inside : Text) : Alternatives ('(' :: (inside ++ [')'])) (alternativesOf inside) := by
  unfold alternativesOf
  split
  · exact alternatives_of_split false nofun
  · rename_i hmark
    refine alternatives_of_split true fun _ hbegins => ?_
    obtain ⟨s, hs⟩ := hbegins
    exact hmark s hs.symm

theorem expand_of_no_group {s : Text} (h : ∀ before group after, ¬GroupAt s before group after) : expand s = [s] :=
  expand_of_variants?_none (variants?_of_no_group h)

/-- The expansions of a body with a group are those of the bodies with each alternative in the place of the first group. -/
theorem expand_of_firstGroup {s before group after : Text} (h : FirstGroup s before group after) :
    ∃ alternatives, Alternatives group alternatives ∧ expand s = alternatives.flatMap fun a => expand (before ++ (a ++ after)) := by
  obtain ⟨inside, rfl, hinside⟩ := (spells_groupPattern_iff group).1 h.stands.2
  refine ⟨alternativesOf inside, alternatives_of_inside inside, ?_⟩
  rw [expand_of_variants?_some (variants?_of_firstGroup h hinside), List.flatMap_map]

/-! ## Rounds -/

/-- The expansion under way: the bodies to work on, and those that are finished. -/
structure Work where
  pending : List Text
  finished : List Text
  deriving DecidableEq, Repr

namespace Work

/-- One round: the first body is finished if it has no group of alternatives, and otherwise its variants take its place. -/
def round (w : Work) : Work :=
  match w.pending with
  | [] => w
  | s :: rest =>
    match cutGroup? s with
    | none => ⟨rest, w.finished ++ [s]⟩
    | some cut => ⟨cut.variants ++ rest, w.finished⟩

/-- A round does not change what the work will come to. -/
theorem result_round (w : Work) : w.round.finished ++ expandAll w.round.pending = w.finished ++ expandAll w.pending := by
  obtain ⟨pending, finished⟩ := w
  cases pending with
  | nil => rfl
  | cons s rest =>
    cases hcut : cutGroup? s with
    | none => simp [round, hcut, expandAll_cons_none hcut]
    | some cut => simp [round, hcut, expandAll_cons_some hcut]

/-- A round makes the work lighter. -/
theorem weights_round_lt {w : Work} (h : w.pending ≠ []) : weights w.round.pending < weights w.pending := by
  obtain ⟨pending, finished⟩ := w
  cases pending with
  | nil => exact absurd rfl h
  | cons s rest =>
    cases hcut : cutGroup? s with
    | none =>
      have hpos := weight_pos s
      simp only [round, hcut, weights]
      omega
    | some cut =>
      have hlt := weights_variants_lt hcut
      simp only [round, hcut, weights, weights_append]
      omega

/-- After finitely many rounds nothing is left to do. -/
theorem exists_rounds (w : Work) : ∃ n ≤ weights w.pending, round^[n] w = ⟨[], w.finished ++ expandAll w.pending⟩ := by
  -- the list of bodies grows with every group that is replaced, so the induction is on its weight
  induction hweight : weights w.pending using Nat.strongRecOn generalizing w with
  | ind weight ih =>
    by_cases hpending : w.pending = []
    · refine ⟨0, Nat.zero_le _, ?_⟩
      obtain ⟨pending, finished⟩ := w
      obtain rfl : pending = [] := hpending
      rw [expandAll, List.append_nil]
      rfl
    · have hlt := hweight ▸ weights_round_lt hpending
      obtain ⟨n, hn, hrounds⟩ := ih _ hlt w.round rfl
      refine ⟨n + 1, by omega, ?_⟩
      rw [Function.iterate_succ_apply, hrounds, result_round]

end Work

/-! ## Choices -/

/-- All ways to choose one number below each bound, the first choice varying slowest. -/
def choices : List Nat → List (List Nat)
  | [] => [[]]
  | size :: sizes => (List.range size).flatMap fun i => (choices sizes).map (i :: ·)

theorem mem_choices_iff (sizes picks : List Nat) : picks ∈ choices sizes ↔ List.Forall₂ (· < ·) picks sizes := by
  induction sizes generalizing picks with
  | nil => cases picks <;> simp [choices]
  | cons size sizes ih => cases picks <;> simp [choices, ih]

theorem choices_pairwise_lt (sizes : List Nat) : (choices sizes).Pairwise (· < ·) := by
  induction sizes with
  | nil => exact List.pairwise_singleton _ _
  | cons size sizes ih =>
    refine List.pairwise_flatMap.2 ⟨fun i _ => ?_, ?_⟩
    · exact List.pairwise_map.2 (ih.imp fun hlt => List.cons_lt_cons_iff.2 (.inr ⟨rfl, hlt⟩))
    · refine List.pairwise_lt_range.imp fun hij x hx y hy => ?_
      obtain ⟨_, _, rfl⟩ := List.mem_map.1 hx
      obtain ⟨_, _, rfl⟩ := List.mem_map.1 hy
      exact List.cons_lt_cons_iff.2 (.inl hij)

theorem length_choices (sizes : List Nat) : (choices sizes).length = sizes.prod := by
  induction sizes with
  | nil => rfl
  | cons size sizes ih => simp [choices, ih]

/-! ## Bodies of plain groups -/

/-- A group of two or more alternatives, none of them empty and none with parentheses, bars or question marks. -/
structure PlainGroup where
  captures : Bool
  alternatives : List Text
  several : 2 ≤ alternatives.length
  plain : ∀ a ∈ alternatives, a ≠ [] ∧ ∀ c ∈ a, c ∉ of "()|?"

namespace PlainGroup

/-- What stands between the parentheses. -/
def inside (g : PlainGroup) : Text := mark g.captures ++ Text.join ['|'] g.alternatives

theorem exists_two (g : PlainGroup) : ∃ first second rest, g.alternatives = first :: second :: rest := by
  have hseveral := g.several
  match halternatives : g.alternatives with
  | first :: second :: rest => exact ⟨first, second, rest, rfl⟩
  | [_] | [] => simp [halternatives] at hseveral

theorem isInside_of_mem (g : PlainGroup) {a : Text} (ha : a ∈ g.alternatives) {c : Char} (hc : c ∈ a) : isInside c = true := by
  have hplain := (g.plain a ha).2 c hc
  simp only [of, String.reduceToList, List.mem_cons, not_or] at hplain
  simp [isInside, hplain]

/-- The inside of a group has no parenthesis, and a bar between its first two alternatives. -/
theorem isGroupInside (g : PlainGroup) : IsGroupInside g.inside := by
  refine ⟨fun c hc => ?_, ?_⟩
  · rcases List.mem_append.1 hc with hc | hc
    · exact Phrase.isInside_of_mem_mark g.captures c hc
    · rcases Text.mem_join hc with hc | ⟨a, ha, hc⟩
      · obtain rfl := List.mem_singleton.1 hc
        decide
      · exact g.isInside_of_mem ha hc
  · obtain ⟨first, second, rest, htwo⟩ := g.exists_two
    have hfirst : first ≠ [] := (g.plain first (by simp [htwo])).1
    have hsecond : second ≠ [] := (g.plain second (by simp [htwo])).1
    obtain ⟨tail, htail⟩ := Text.join_append ['|'] [second] rest
    rw [List.singleton_append, Text.join_singleton] at htail
    rw [inside, htwo, Text.join_cons (List.cons_ne_nil _ _), htail, ← List.append_assoc]
    exact hasInnerBar_append (by simp [hfirst]) (by simp [hsecond])

/-- The alternatives of a group are found again in its inside. -/
theorem alternativesOf_inside (g : PlainGroup) : alternativesOf g.inside = g.alternatives := by
  obtain ⟨first, second, rest, htwo⟩ := g.exists_two
  have hhead : (Text.join ['|'] g.alternatives).head? ≠ some '?' := by
    obtain ⟨c, first', hc⟩ := List.exists_cons_of_ne_nil (g.plain first (by simp [htwo])).1
    rw [htwo, Text.join_cons (List.cons_ne_nil _ _), hc]
    rintro ⟨⟩
    exact (g.plain first (by simp [htwo])).2 '?' (by simp [hc]) (by decide)
  rw [inside, Phrase.alternativesOf_mark g.captures hhead]
  refine Text.splitOn_join (fun a ha hbar => ?_) (by simp [htwo])
  exact (g.plain a ha).2 '|' hbar (by decide)

end PlainGroup

/-- A group with the text behind it, up to the next group. -/
structure Link where
  group : PlainGroup
  behind : Text
  inside : ∀ c ∈ behind, isInside c = true

namespace Link

def write (l : Link) : Text := '(' :: (l.group.inside ++ ')' :: l.behind)

/-- The number of alternatives. -/
def size (l : Link) : Nat := l.group.alternatives.length

/-- The text with one alternative in the place of the group. -/
def choose (l : Link) (i : Nat) : Text := l.group.alternatives.getD i [] ++ l.behind

theorem isInside_of_mem_choose (l : Link) {i : Nat} (hi : i < l.size) {c : Char} (hc : c ∈ l.choose i) : isInside c = true := by
  rcases List.mem_append.1 hc with hc | hc
  · rw [List.getD_eq_getElem _ _ hi] at hc
    exact l.group.isInside_of_mem (List.getElem_mem hi) hc
  · exact l.inside c hc

end Link

/-- A body of groups, with text in front of the first one. -/
def bodyOf (lead : Text) (links : List Link) : Text := lead ++ links.flatMap Link.write

/-- The body with one alternative of each group. -/
def chosen (lead : Text) (links : List Link) (picks : List Nat) : Text := lead ++ (List.zipWith Link.choose links picks).flatten

/-- The first group of a body, behind text without parentheses. -/
theorem expand_link {lead : Text} (hlead : ∀ c ∈ lead, isInside c = true) (l : Link) (s : Text) :
    expand (lead ++ (l.write ++ s)) = l.group.alternatives.flatMap fun a => expand (lead ++ (a ++ l.behind) ++ s) := by
  have hvariants : variants? (lead ++ (l.write ++ s)) =
      some (l.group.alternatives.map fun a => lead ++ (a ++ l.behind) ++ s) := by
    have hwrite : l.write ++ s = '(' :: (l.group.inside ++ ')' :: (l.behind ++ s)) := by simp [Link.write]
    rw [variants?_skip hlead, hwrite, variants?_group l.group.isGroupInside.plain l.group.isGroupInside.bar,
      l.group.alternativesOf_inside, Option.map_some, List.map_map]
    simp [Function.comp_def]
  rw [expand_of_variants?_some hvariants, List.flatMap_map]

/-- The alternatives one after the other are those with the numbers below their number. -/
theorem flatMap_alternatives {α : Type} (alternatives : List Text) (f : Text → List α) :
    alternatives.flatMap f = (List.range alternatives.length).flatMap fun i => f (alternatives.getD i []) := by
  induction alternatives with
  | nil => rfl
  | cons a alternatives ih =>
    rw [List.length_cons, List.range_succ_eq_map, List.flatMap_cons, List.flatMap_cons, List.flatMap_map, ih]
    rfl

/-- The expansions of a body of plain groups: all choices, in order. -/
theorem expand_body (links : List Link) {lead : Text} (hlead : ∀ c ∈ lead, isInside c = true) :
    expand (bodyOf lead links) = (choices (links.map Link.size)).map (chosen lead links) := by
  induction links generalizing lead with
  | nil =>
    have hnone : variants? lead = none := by simpa [variants?, cutGroup?] using variants?_skip hlead []
    rw [bodyOf, List.flatMap_nil, List.append_nil, expand_of_variants?_none hnone]
    simp [choices, chosen]
  | cons l links ih =>
    rw [bodyOf, List.flatMap_cons, expand_link hlead, flatMap_alternatives, List.map_cons, choices, List.map_flatMap]
    refine List.flatMap_congr fun i hi => ?_
    -- what is in front of the next group is the old front with the alternative and what follows it
    have hfront : ∀ c ∈ lead ++ l.choose i, isInside c = true := by
      intro c hc
      rcases List.mem_append.1 hc with hc | hc
      · exact hlead c hc
      · exact l.isInside_of_mem_choose (List.mem_range.1 hi) hc
    have hrest := ih hfront
    rw [bodyOf] at hrest
    rw [← Link.choose, hrest, List.map_map]
    refine List.map_congr_left fun picks _ => ?_
    simp [chosen]

/-- The expansion is a recursion on the first group. In rounds that always take the first body of a list it ends; a body without
groups is its only expansion; the expansions of a body with groups are those of the bodies with each alternative in the place of the
first group, in order; and a body of plain groups has one expansion for each way to choose an alternative of every group, in
lexicographic order. -/
theorem expand_lists_choices (s : Text) :
    (∃ n ≤ weight s, Work.round^[n] ⟨[s], []⟩ = ⟨[], expand s⟩) ∧
      ((∀ before group after, ¬GroupAt s before group after) → expand s = [s]) ∧
      (∀ before group after, FirstGroup s before group after → ∃ alternatives, Alternatives group alternatives ∧
        expand s = alternatives.flatMap fun a => expand (before ++ (a ++ after))) ∧
      ∀ lead links, s = bodyOf lead links → (∀ c ∈ lead, isInside c = true) →
        (∃ picked : List (List Nat), picked.Pairwise (· < ·) ∧
          (∀ picks, picks ∈ picked ↔ List.Forall₂ (fun i (l : Link) => i < l.size) picks links) ∧
          expand s = picked.map (chosen lead links)) ∧
        (expand s).length = (links.map Link.size).prod := by
  refine ⟨?_, expand_of_no_group, fun before group after => expand_of_firstGroup, ?_⟩
  · obtain ⟨n, hn, hrounds⟩ := Work.exists_rounds ⟨[s], []⟩
    exact ⟨n, hn, hrounds⟩
  · rintro lead links rfl hlead
    rw [expand_body links hlead, List.length_map, length_choices]
    refine ⟨⟨_, choices_pairwise_lt _, fun picks => ?_, rfl⟩, rfl⟩
    rw [mem_choices_iff, List.forall₂_map_right_iff]

/-- A choice of two verbs in a group that does not capture, and one of three numbers in one that does. -/
def verbAndNumber : List Link :=
  [⟨⟨false, [of "see", of "hear"], by decide, by simp [of]⟩, of " ", by simp [of, isInside]⟩,
    ⟨⟨true, [of "one", of "two", of "three"], by decide, by simp [of]⟩, [], by simp⟩]

/-- A body with a parenthesis that opens no group, one whose first group ends with an empty alternative, and one of plain groups. -/
theorem expand_lists_choices_six :
    ((∀ before group after, ¬GroupAt (of "a (b") before group after) ∧ expand (of "a (b") = [of "a (b"]) ∧
      (FirstGroup (of "(a|b|)c") [] (of "(a|b|)") (of "c") ∧ ∃ alternatives, Alternatives (of "(a|b|)") alternatives ∧
        expand (of "(a|b|)c") = alternatives.flatMap fun a => expand ([] ++ (a ++ of "c"))) ∧
      (of "I (?:see|hear) (one|two|three)" = bodyOf (of "I ") verbAndNumber ∧ (∀ c ∈ of "I ", isInside c = true) ∧
        (expand (of "I (?:see|hear) (one|two|three)")).length = 6) := by
  have hnone : ∀ before group after, ¬GroupAt (of "a (b") before group after := by
    rintro before group after ⟨hs, hspells⟩
    obtain ⟨inside, rfl, hinside⟩ := (spells_groupPattern_iff group).1 hspells
    obtain ⟨u, v, rfl, _⟩ := (hasInnerBar_iff inside).1 hinside.bar
    have hbar : '|' ∈ of "a (b" := by simp [hs]
    exact absurd hbar (by decide)
  have hfirst : FirstGroup (of "(a|b|)c") [] (of "(a|b|)") (of "c") := by
    refine ⟨⟨by decide, (spells_groupPattern_iff _).2 ⟨of "a|b|", by decide, by simp [of, isInside], by decide⟩⟩, ?_⟩
    exact fun _ _ _ _ => Nat.zero_le _
  have hbody : of "I (?:see|hear) (one|two|three)" = bodyOf (of "I ") verbAndNumber := by decide
  have hlead : ∀ c ∈ of "I ", isInside c = true := by simp [of, isInside]
  refine ⟨⟨hnone, (expand_lists_choices _).2.1 hnone⟩, ⟨hfirst, (expand_lists_choices _).2.2.1 _ _ _ hfirst⟩, hbody, hlead, ?_⟩
  exact ((expand_lists_choices _).2.2.2 _ _ hbody hlead).2

end Body
end StepCatalog
