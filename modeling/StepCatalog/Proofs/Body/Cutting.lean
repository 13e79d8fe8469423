import Mathlib.Algebra.Group.Nat.Even
import StepCatalog.Body.Parts
import StepCatalog.Proofs.Text.Parts

/-!
# Where a text is cut into parts

A text is cut with a depth of parentheses and a mark for a backslash carried along. Both can be read off the characters in front of
a place: whether it is escaped is a matter of how many backslashes stand directly in front of it, and the depth counts the
parentheses in front of it that are not escaped. So cutting can be said one character at a time (`partsBehind_cons`): a space begins
a new part exactly if it is not escaped and stands at depth zero, and any other character goes on with the first part.

A cut leaves nothing behind: what follows is cut like a text of its own (`splitParts_append_space`), and every way to divide the
parts comes from such a space (`exists_space_of_splitParts`).

Main statement: `splitParts_keeps_runs` (parts put end to end are the text, runs of them are cut into the same parts again, and
which spaces stand between two parts).
-/

namespace StepCatalog.Body

open Text (of)

/-! ## What stands in front of a place -/

/-- The number of backslashes directly in front of a place, given the characters in front of it, nearest first. -/
def backslashes (back : Text) : Nat := (back.takeWhile (· = '\\')).length

/-- The depth of parentheses behind characters, nearest first. Escaped parentheses do not count, and a closing one with nothing to
close does not either. -/
def depthBehind : Text → Nat
  | [] => 0
  | c :: back =>
    if c = '(' ∧ Even (backslashes back) then depthBehind back + 1
    else if c = ')' ∧ Even (backslashes back) then depthBehind back - 1
    else depthBehind back

/-- A space behind these characters, nearest first, stands between two parts. -/
def Separates (back : Text) : Prop := Even (backslashes back) ∧ depthBehind back = 0

instance (back : Text) : Decidable (Separates back) := inferInstanceAs (Decidable (_ ∧ _))

theorem backslashes_backslash (back : Text) : backslashes ('\\' :: back) = backslashes back + 1 := by
  simp [backslashes]

theorem backslashes_other {c : Char} (hc : c ≠ '\\') (back : Text) : backslashes (c :: back) = 0 := by
  simp [backslashes, hc]

/-- The parts of a text, with characters in front of it, nearest first. -/
def partsBehind (back s : Text) : List Text := splitPartsFrom (depthBehind back) (!decide (Even (backslashes back))) s

theorem partsBehind_of_even {back : Text} (h : Even (backslashes back)) (s : Text) :
    partsBehind back s = splitPartsFrom (depthBehind back) false s := by
  rw [partsBehind, decide_eq_true h, Bool.not_true]

theorem partsBehind_of_not_even {back : Text} (h : ¬Even (backslashes back)) (s : Text) :
    partsBehind back s = splitPartsFrom (depthBehind back) true s := by
  rw [partsBehind, decide_eq_false h, Bool.not_false]

/-- A character at an escaped place, or one that is no parenthesis, leaves the depth alone. -/
theorem depthBehind_same {back : Text} {c : Char} (h : Even (backslashes back) → c ≠ '(' ∧ c ≠ ')') :
    depthBehind (c :: back) = depthBehind back := by
  rw [depthBehind, if_neg fun hc => (h hc.2).1 hc.1, if_neg fun hc => (h hc.2).2 hc.1]

/-- A space between two parts leads back to where a text begins. -/
theorem partsBehind_separated {back : Text} (h : Separates back) (s : Text) : partsBehind (' ' :: back) s = splitParts s := by
  have heven : Even (backslashes (' ' :: back)) := by simp [backslashes]
  rw [partsBehind_of_even heven, depthBehind_same fun _ => by decide, h.2]
  rfl

/-- At an escaped place any character goes on with the first part, and nothing behind it is escaped by the same backslash. -/
theorem partsBehind_cons_escaped {back : Text} (h : ¬Even (backslashes back)) (c : Char) (s : Text) :
    partsBehind back (c :: s) = Text.consFirst c (partsBehind (c :: back) s) := by
  have heven : Even (backslashes (c :: back)) := by
    by_cases hc : c = '\\'
    · rw [hc, backslashes_backslash, Nat.even_add_one]
      exact h
    · rw [backslashes_other hc]
      exact Even.zero
  rw [partsBehind_of_not_even h, partsBehind_of_even heven, depthBehind_same fun he => absurd he h]
  rfl

/-- One character: a space that separates begins a new part, everything else goes on with the first part of what follows. -/
theorem partsBehind_cons (back : Text) (c : Char) (s : Text) :
    partsBehind back (c :: s) =
      if c = ' ' ∧ Separates back then [] :: partsBehind (c :: back) s else Text.consFirst c (partsBehind (c :: back) s) := by
  by_cases h : Even (backslashes back)
  case neg => rw [if_neg fun hc => h hc.2.1, partsBehind_cons_escaped h]
  -- the characters that mean something, in the order in which they are looked for: each leaves the depth and the mark for a
  -- backslash that are read off the longer text in front
  rw [partsBehind_of_even h, splitPartsFrom]
  by_cases hslash : c = '\\'
  · have hodd : ¬Even (backslashes (c :: back)) := by rwa [hslash, backslashes_backslash, Nat.even_add_one, not_not]
    rw [if_pos hslash, if_neg (by simp [hslash]), partsBehind_of_not_even hodd, depthBehind_same fun _ => by simp [hslash]]
  have heven : Even (backslashes (c :: back)) := by rw [backslashes_other hslash]; exact Even.zero
  rw [if_neg hslash, partsBehind_of_even heven]
  by_cases hopen : c = '('
  · rw [if_pos hopen, if_neg (by simp [hopen]), depthBehind, if_pos ⟨hopen, h⟩]
  rw [if_neg hopen]
  by_cases hclose : c = ')'
  · rw [if_pos hclose, if_neg (by simp [hclose]), depthBehind, if_neg fun hc => hopen hc.1, if_pos ⟨hclose, h⟩]
  rw [if_neg hclose, depthBehind_same fun _ => ⟨hopen, hclose⟩]
  by_cases hspace : c = ' ' ∧ depthBehind back = 0
  · rw [if_pos (by simpa using hspace), if_pos ⟨hspace.1, h, hspace.2⟩, hspace.2]
  · rw [if_neg (by simpa using hspace), if_neg fun hc => hspace ⟨hc.1, hc.2.2⟩]

/-! ## Cuts -/

theorem partsBehind_ne_nil (back s : Text) : partsBehind back s ≠ [] := by
  cases s with
  | nil => exact List.cons_ne_nil _ _
  | cons c s =>
    rw [partsBehind_cons]
    split
    · exact List.cons_ne_nil _ _
    · exact Text.consFirst_ne_nil _ _

/-- The parts of a text put end to end, with spaces between them, are the text. -/
theorem join_partsBehind (back s : Text) : Text.join [' '] (partsBehind back s) = s := by
  induction s generalizing back with
  | nil => rfl
  | cons c s ih =>
    rw [partsBehind_cons]
    split
    · rename_i hspace
      rw [hspace.1, Text.join_cons (partsBehind_ne_nil _ _), ih]
      rfl
    · rw [Text.join_consFirst, ih]

theorem splitParts_ne_nil (s : Text) : splitParts s ≠ [] := partsBehind_ne_nil [] s

theorem join_splitParts (s : Text) : Text.join [' '] (splitParts s) = s := join_partsBehind [] s

/-- A space that separates divides the parts: those of what is in front of it, and those of what follows. -/
theorem partsBehind_append_space (back : Text) {u : Text} (h : Separates (u.reverse ++ back)) (s : Text) :
    partsBehind back (u ++ ' ' :: s) = partsBehind back u ++ splitParts s := by
  induction u generalizing back with
  | nil =>
    have hback : Separates back := h
    rw [List.nil_append, partsBehind_cons, if_pos ⟨rfl, hback⟩, partsBehind_separated hback]
    rfl
  | cons c u ih =>
    have hrest : Separates (u.reverse ++ c :: back) := by simpa using h
    rw [List.cons_append, partsBehind_cons, partsBehind_cons, ih _ hrest]
    split
    · rfl
    · exact Text.consFirst_append c (partsBehind_ne_nil _ _) _

theorem splitParts_append_space {before : Text} (h : Separates before.reverse) (after : Text) :
    splitParts (before ++ ' ' :: after) = splitParts before ++ splitParts after :=
  partsBehind_append_space [] (by simpa using h) after

/-- Where the parts of a text are divided, a space separates: in front of it stand the parts on one side, behind it the others. -/
theorem exists_space_of_partsBehind (back : Text) {s : Text} {xs ys : List Text} (h : partsBehind back s = xs ++ ys)
    (hxs : xs ≠ []) (hys : ys ≠ []) :
    ∃ u v, s = u ++ ' ' :: v ∧ Separates (u.reverse ++ back) ∧ partsBehind back u = xs ∧ splitParts v = ys := by
  induction s generalizing back xs with
  | nil =>
    -- one part cannot be divided
    obtain ⟨x, xs, rfl⟩ := List.exists_cons_of_ne_nil hxs
    obtain ⟨-, hnil⟩ := List.cons.inj h
    exact absurd (List.append_eq_nil_iff.1 hnil.symm).2 hys
  | cons c s ih =>
    obtain ⟨x, xs, rfl⟩ := List.exists_cons_of_ne_nil hxs
    rw [partsBehind_cons] at h
    split at h
    · rename_i hspace
      obtain ⟨rfl, hrest⟩ := List.cons.inj h
      by_cases hnil : xs = []
      · -- the parts are divided at this very space
        refine ⟨[], s, by rw [hspace.1]; rfl, hspace.2, by rw [hnil]; rfl, ?_⟩
        rw [← partsBehind_separated hspace.2, ← hspace.1, hrest, hnil]
        rfl
      · obtain ⟨u, v, rfl, hsep, hu, hv⟩ := ih _ hrest hnil
        refine ⟨c :: u, v, rfl, by simpa using hsep, ?_, hv⟩
        rw [partsBehind_cons, if_pos hspace, hu]
    · rename_i hspace
      obtain ⟨part, parts, hparts⟩ := List.exists_cons_of_ne_nil (partsBehind_ne_nil (c :: back) s)
      rw [hparts] at h
      obtain ⟨rfl, hrest⟩ := List.cons.inj h
      have hdivided : partsBehind (c :: back) s = part :: xs ++ ys := by
        rw [hparts, hrest]
        rfl
      obtain ⟨u, v, rfl, hsep, hu, hv⟩ := ih _ hdivided (List.cons_ne_nil _ _)
      refine ⟨c :: u, v, rfl, by simpa using hsep, ?_, hv⟩
      rw [partsBehind_cons, if_neg hspace, hu]
      rfl

/-- Between any two parts of a text stands a space that separates. -/
theorem exists_space_of_splitParts {s : Text} {k : Nat} (hk : 0 < k) (hlt : k < (splitParts s).length) :
    ∃ before after, s = before ++ ' ' :: after ∧ Separates before.reverse ∧
      splitParts before = (splitParts s).take k ∧ splitParts after = (splitParts s).drop k := by
  have htake : (splitParts s).take k ≠ [] := by
    rw [Ne, List.take_eq_nil_iff, not_or]
    exact ⟨by omega, splitParts_ne_nil s⟩
  have hdrop : (splitParts s).drop k ≠ [] := by
    rw [Ne, List.drop_eq_nil_iff]
    omega
  obtain ⟨before, after, hs, hsep, hbefore, hafter⟩ :=
    exists_space_of_partsBehind [] (List.take_append_drop k (splitParts s)).symm htake hdrop
  exact ⟨before, after, hs, by simpa using hsep, hbefore, hafter⟩

/-! ## Runs of parts -/

/-- The texts are what some text is cut into. -/
def IsCut (parts : List Text) : Prop := ∃ s, splitParts s = parts

/-- Parts put end to end are cut into the same parts again. -/
theorem IsCut.splitParts_join {parts : List Text} (h : IsCut parts) : splitParts (Text.join [' '] parts) = parts := by
  obtain ⟨s, rfl⟩ := h
  rw [join_splitParts]

theorem IsCut.take {parts : List Text} (h : IsCut parts) {j : Nat} (hj : 0 < j) : IsCut (parts.take j) := by
  obtain ⟨s, rfl⟩ := h
  by_cases hlt : j < (splitParts s).length
  · obtain ⟨before, _, _, _, hbefore, _⟩ := exists_space_of_splitParts hj hlt
    exact ⟨before, hbefore⟩
  · exact ⟨s, (List.take_of_length_le (by omega)).symm⟩

theorem IsCut.drop {parts : List Text} (h : IsCut parts) {i : Nat} (hi : i < parts.length) : IsCut (parts.drop i) := by
  obtain ⟨s, rfl⟩ := h
  cases i with
  | zero => exact ⟨s, rfl⟩
  | succ i =>
    obtain ⟨_, after, _, _, _, hafter⟩ := exists_space_of_splitParts (Nat.succ_pos i) hi
    exact ⟨after, hafter⟩

/-! ## Spaces between parts -/

/-- The space between `before` and `after` stands between two parts of the text: the parts on each side, put end to end, are what is
in front of it and what follows. -/
def StandsBetween (text before after : Text) : Prop :=
  ∃ k, 0 < k ∧ k < (splitParts text).length ∧
    before = Text.join [' '] ((splitParts text).take k) ∧ after = Text.join [' '] ((splitParts text).drop k)

theorem standsBetween_iff (before after : Text) :
    StandsBetween (before ++ ' ' :: after) before after ↔ Separates before.reverse := by
  constructor
  · rintro ⟨k, hk, hlt, hbefore, _⟩
    obtain ⟨u, v, _, hsep, hu, _⟩ := exists_space_of_splitParts hk hlt
    rw [hbefore, ← hu, join_splitParts]
    exact hsep
  · intro hsep
    have hbefore : 0 < (splitParts before).length := List.length_pos_iff.2 (splitParts_ne_nil before)
    have hafter : 0 < (splitParts after).length := List.length_pos_iff.2 (splitParts_ne_nil after)
    refine ⟨(splitParts before).length, hbefore, ?_, ?_, ?_⟩
    · rw [splitParts_append_space hsep, List.length_append]
      omega
    · rw [splitParts_append_space hsep, List.take_left, join_splitParts]
    · rw [splitParts_append_space hsep, List.drop_left, join_splitParts]

/-- Parts put end to end are the text, each run of parts put end to end is cut into the same parts again, and a space stands between
two parts exactly if the backslashes directly in front of it are even in number and the depth of parentheses in front of it is
zero. -/
theorem splitParts_keeps_runs (text : Text) :
    Text.join [' '] (splitParts text) = text ∧
      (∀ i j, i < j → j ≤ (splitParts text).length →
        splitParts (Text.join [' '] (((splitParts text).take j).drop i)) = ((splitParts text).take j).drop i) ∧
      ∀ before after, text = before ++ ' ' :: after →
        (StandsBetween text before after ↔ Even (backslashes before.reverse) ∧ depthBehind before.reverse = 0) := by
  refine ⟨join_splitParts text, ?_, ?_⟩
  · intro i j hij hj
    have htake : IsCut ((splitParts text).take j) := IsCut.take ⟨text, rfl⟩ (by omega)
    exact (htake.drop (by rw [List.length_take]; omega)).splitParts_join
  · rintro before after rfl
    exact standsBetween_iff before after

/-- A text with a parenthesis that closes nothing, an escaped space, a parenthesis that stays open and a backslash at its end. -/
theorem splitParts_keeps_runs_unbalanced :
    splitParts (of "a) b\\ c (d e\\") = [of "a)", of "b\\ c", of "(d e\\"] ∧
      splitParts (of "b\\ c (d e\\") = [of "b\\ c", of "(d e\\"] ∧
      StandsBetween (of "a) b\\ c (d e\\") (of "a) b\\ c") (of "(d e\\") ∧
      ¬StandsBetween (of "a) b\\ c (d e\\") (of "a) b\\") (of "c (d e\\") := by
  obtain ⟨-, hruns, hspaces⟩ := splitParts_keeps_runs (of "a) b\\ c (d e\\")
  refine ⟨by decide, hruns 1 3 (by decide) (by decide), ?_, ?_⟩
  · exact (hspaces _ _ (by decide)).2 (by decide)
  · exact fun h => absurd ((hspaces _ _ (by decide)).1 h) (by decide)

end StepCatalog.Body
