import Mathlib.Data.Char
import Mathlib.Data.List.Lex
import StepCatalog.Text.Basic

/-!
# Texts cut, put together and compared

What follows a beginning of a text, what `Text.splitOn` and `Text.join` do with its parts, and the order of texts.
-/

namespace StepCatalog.Text

/-! ## Beginnings -/

/-- What follows a beginning. -/
theorem after?_eq_some_iff {lead s rest : Text} : after? lead s = some rest ↔ s = lead ++ rest := by
  fun_induction after? lead s with
  | case1 s => simp
  | case2 => simp
  | case3 a lead s ih => simp [ih]
  | case4 a lead c s hne => simp [Ne.symm hne]

theorem startsWith_iff {s lead : Text} : startsWith s lead = true ↔ ∃ rest, s = lead ++ rest := by
  unfold startsWith
  rw [Option.isSome_iff_exists]
  simp only [after?_eq_some_iff]

/-- A part of a text stands somewhere in it. -/
theorem hasPart_iff {s part : Text} : hasPart s part = true ↔ part <:+: s := by
  induction s with
  | nil => simp [hasPart, indexOf?]
  | cons c s ih =>
    rw [List.infix_cons_iff, ← ih, hasPart, indexOf?]
    split
    · rename_i hstarts
      obtain ⟨rest, hrest⟩ := startsWith_iff.1 hstarts
      simp [hrest]
    · rename_i hstarts
      have hno : ¬part <+: c :: s := fun ⟨rest, hrest⟩ => hstarts (startsWith_iff.2 ⟨rest, hrest.symm⟩)
      simp [hasPart, hno]

/-- A part without a certain character stands on one side of it. -/
theorem infix_append_cons_iff {c : Char} {part : Text} (hc : c ∉ part) (u v : Text) :
    part <:+: u ++ c :: v ↔ part <:+: u ∨ part <:+: v := by
  -- what of the part begins behind the character's left side would begin with the character
  have hnil : ∀ {w : Text}, c ∉ w → w <+: c :: v → w = [] := by
    rintro (_ | ⟨d, w⟩) hw ⟨rest, hrest⟩
    · rfl
    · exact absurd ((List.cons.inj hrest).1 ▸ List.mem_cons_self) hw
  constructor
  · rw [List.infix_append_iff, List.infix_cons_iff]
    rintro (h | (h | h) | ⟨w, w', rfl, hw, hw'⟩)
    · exact .inl h
    · exact .inl (hnil hc h ▸ List.nil_infix)
    · exact .inr h
    · obtain rfl := hnil (fun hmem => hc (List.mem_append_right w hmem)) hw'
      exact .inl (by simpa using hw.isInfix)
  · rintro (h | h)
    · exact List.infix_append_of_infix_left h
    · exact List.infix_append_of_infix_right (List.infix_cons h)

/-! ## Cutting at a character -/

/-- The parts of a text at a character are those of the list. -/
theorem splitOn_eq_list (sep : Char) (s : Text) : splitOn sep s = List.splitOn sep s := by
  induction s with
  | nil => rfl
  | cons c s ih =>
    rw [List.splitOn_cons_eq_if_modifyHead, splitOn, ih]
    by_cases hc : c = sep
    · simp [hc]
    · rw [if_neg hc, if_neg (by simpa using hc)]
      cases hs : List.splitOn sep s with
      | nil => exact absurd hs (List.splitOn_ne_nil _ _)
      | cons part parts => rfl

theorem splitOn_ne_nil (sep : Char) (s : Text) : splitOn sep s ≠ [] := by
  rw [splitOn_eq_list]
  exact List.splitOn_ne_nil _ _

/-- The parts of a text at a character do not hold the character. -/
theorem not_mem_of_mem_splitOn {sep : Char} {s part : Text} (h : part ∈ splitOn sep s) : sep ∉ part := by
  induction s generalizing part with
  | nil =>
    obtain rfl : part = [] := by simpa [splitOn] using h
    simp
  | cons x s ih =>
    unfold splitOn at h
    split at h
    · rcases List.mem_cons.1 h with rfl | h
      · simp
      · exact ih h
    · rename_i hx
      cases hparts : splitOn sep s with
      | nil =>
        rw [hparts, consFirst, List.mem_singleton] at h
        subst h
        simpa using fun h => hx h.symm
      | cons first rest =>
        rw [hparts, consFirst] at h
        rcases List.mem_cons.1 h with rfl | h
        · intro hsep
          rcases List.mem_cons.1 hsep with rfl | hsep
          · exact hx rfl
          · exact ih (by rw [hparts]; simp) hsep
        · exact ih (by rw [hparts]; exact List.mem_cons_of_mem _ h)

/-- A text without the character is its only part. -/
theorem splitOn_of_not_mem {sep : Char} {s : Text} (h : sep ∉ s) : splitOn sep s = [s] := by
  induction s with
  | nil => rfl
  | cons c s ih =>
    rw [List.mem_cons, not_or] at h
    rw [splitOn, if_neg (Ne.symm h.1), ih h.2]
    rfl

/-- The first part of a text ends at the first occurrence. -/
theorem splitOn_append_cons {sep : Char} {u : Text} (hu : sep ∉ u) (s : Text) :
    splitOn sep (u ++ sep :: s) = u :: splitOn sep s := by
  induction u with
  | nil => simp [splitOn]
  | cons c u ih =>
    rw [List.mem_cons, not_or] at hu
    rw [List.cons_append, splitOn, if_neg (Ne.symm hu.1), ih hu.2, consFirst]

/-- Induction on the parts of a text. -/
theorem parts_induction (sep : Char) {P : Text → Prop} (last : ∀ part, sep ∉ part → P part)
    (more : ∀ part rest, sep ∉ part → P rest → P (part ++ sep :: rest)) (s : Text) : P s := by
  generalize hn : s.length = n
  induction n using Nat.strongRecOn generalizing s with
  | ind n ih =>
    by_cases hs : sep ∈ s
    · obtain ⟨part, rest, rfl, hpart⟩ := List.eq_append_cons_of_mem hs
      refine more part rest hpart (ih rest.length ?_ rest rfl)
      rw [List.length_append, List.length_cons] at hn
      omega
    · exact last s hs

/-! ## Putting parts end to end -/

theorem join_singleton (sep word : Text) : join sep [word] = word := by simp [join]

/-- The first of several parts. -/
theorem join_cons {sep word : Text} {words : List Text} (h : words ≠ []) :
    join sep (word :: words) = word ++ (sep ++ join sep words) := by
  cases words with
  | nil => exact absurd rfl h
  | cons next rest => simp [join]

theorem consFirst_ne_nil (c : Char) (parts : List Text) : consFirst c parts ≠ [] := by
  cases parts <;> exact List.cons_ne_nil _ _

theorem consFirst_append (c : Char) {xs : List Text} (hxs : xs ≠ []) (ys : List Text) :
    consFirst c (xs ++ ys) = consFirst c xs ++ ys := by
  cases xs with
  | nil => exact absurd rfl hxs
  | cons x xs => rfl

theorem join_consFirst (sep : Text) (c : Char) (parts : List Text) : join sep (consFirst c parts) = c :: join sep parts := by
  cases parts with
  | nil => rw [consFirst, join_singleton]; rfl
  | cons part parts =>
    cases parts with
    | nil => rw [consFirst, join_singleton, join_singleton]
    | cons next rest =>
      have hne : next :: rest ≠ [] := List.cons_ne_nil _ _
      rw [consFirst, join_cons hne, join_cons hne, List.cons_append]

/-- Parts put end to end, with what stands between them behind the last one too. -/
theorem join_append_sep {sep : Text} {parts : List Text} (h : parts ≠ []) : join sep parts ++ sep = parts.flatMap (· ++ sep) := by
  induction parts with
  | nil => exact absurd rfl h
  | cons part parts ih =>
    by_cases hparts : parts = []
    · simp [hparts, join]
    · rw [join_cons hparts, List.flatMap_cons, ← ih hparts]
      simp only [List.append_assoc]

/-- A character of parts put end to end is one of a part or of what stands between them. -/
theorem mem_join {c : Char} {sep : Text} {parts : List Text} (h : c ∈ join sep parts) :
    c ∈ sep ∨ ∃ part ∈ parts, c ∈ part := by
  induction parts with
  | nil => cases h
  | cons part parts ih =>
    cases parts with
    | nil => exact Or.inr ⟨part, by simp, by simpa [join] using h⟩
    | cons next rest =>
      simp only [join, List.intercalate_cons_cons, List.mem_append] at h ih
      rcases h with (h | h) | h
      · exact Or.inr ⟨part, by simp, h⟩
      · exact Or.inl h
      · rcases ih h with h | ⟨q, hq, hc⟩
        · exact Or.inl h
        · exact Or.inr ⟨q, List.mem_cons_of_mem _ hq, hc⟩

/-- Parts put end to end in two steps. -/
theorem join_append_of_ne_nil {sep : Text} {xs ys : List Text} (hxs : xs ≠ []) (hys : ys ≠ []) :
    join sep (xs ++ ys) = join sep xs ++ (sep ++ join sep ys) := by
  induction xs with
  | nil => exact absurd rfl hxs
  | cons x xs ih =>
    cases xs with
    | nil => rw [List.singleton_append, join_cons hys, join_singleton]
    | cons x' xs =>
      rw [List.cons_append, join_cons (by simp), ih (List.cons_ne_nil _ _), join_cons (List.cons_ne_nil _ _)]
      simp only [List.append_assoc]

/-- Leaving out parts makes no text longer. -/
theorem length_join_le_of_sublist {sep : Text} {xs ys : List Text} (h : xs.Sublist ys) :
    (join sep xs).length ≤ (join sep ys).length := by
  induction h with
  | slnil => exact Nat.le_refl _
  | @cons xs ys y h ih =>
    by_cases hys : ys = []
    · rw [hys, List.sublist_nil] at h
      rw [h]
      exact Nat.zero_le _
    · rw [join_cons hys, List.length_append, List.length_append]
      omega
  | @cons_cons xs ys y h ih =>
    by_cases hxs : xs = []
    · rw [hxs, join_singleton]
      by_cases hys : ys = []
      · rw [hys, join_singleton]
      · rw [join_cons hys, List.length_append]
        omega
    · have hys : ys ≠ [] := fun hys => hxs (List.sublist_nil.1 (hys ▸ h))
      simp only [join_cons hxs, join_cons hys, List.length_append]
      omega

/-- Parts put end to end begin with the first of them put end to end. -/
theorem join_append (sep : Text) (xs ys : List Text) : ∃ rest, join sep (xs ++ ys) = join sep xs ++ rest := by
  by_cases hxs : xs = []
  · exact ⟨join sep ys, by rw [hxs]; rfl⟩
  · by_cases hys : ys = []
    · exact ⟨[], by rw [hys, List.append_nil, List.append_nil]⟩
    · exact ⟨sep ++ join sep ys, join_append_of_ne_nil hxs hys⟩

/-- Parts put end to end end with the last of them. -/
theorem exists_join_eq_append (sep : Text) {last : Text} {parts : List Text} (h : parts.getLast? = some last) :
    ∃ front, join sep parts = front ++ last := by
  obtain ⟨init, rfl⟩ := List.getLast?_eq_some_iff.1 h
  by_cases hinit : init = []
  · exact ⟨[], by rw [hinit]; simp [join]⟩
  · refine ⟨join sep init ++ sep, ?_⟩
    rw [join_append_of_ne_nil hinit (by simp), join_singleton, List.append_assoc]

/-- The parts of a text at a character, put end to end again, are the text. -/
theorem join_splitOn (sep : Char) (s : Text) : join [sep] (splitOn sep s) = s := by
  rw [splitOn_eq_list]
  exact List.intercalate_splitOn sep

/-- Parts without a certain character are found again between its occurrences. -/
theorem splitOn_join {sep : Char} {parts : List Text} (hparts : ∀ part ∈ parts, sep ∉ part) (hne : parts ≠ []) :
    splitOn sep (join [sep] parts) = parts := by
  rw [splitOn_eq_list]
  exact List.splitOn_intercalate sep hparts hne

/-- A text begins with any number of its first parts, put end to end again. -/
theorem join_takeWhile_splitOn (sep : Char) (p : Text → Bool) (u : Text) :
    ∃ rest, u = join [sep] ((splitOn sep u).takeWhile p) ++ rest := by
  obtain ⟨rest, h⟩ := join_append [sep] ((splitOn sep u).takeWhile p) ((splitOn sep u).dropWhile p)
  refine ⟨rest, ?_⟩
  rw [← h, List.takeWhile_append_dropWhile, join_splitOn]

/-! ## The order of texts -/

/-- The order of texts is the lexicographic one. -/
theorem le_iff (s t : Text) : s.le t = true ↔ s ≤ t := by
  rw [le_iff_lt_or_eq]
  induction s generalizing t with
  | nil => cases t <;> simp [le]
  | cons a s ih =>
    cases t with
    | nil => simp [le]
    | cons b t =>
      rw [le, List.cons_lt_cons_iff, List.cons.injEq]
      split
      · rename_i hab
        simp [hab, ih]
      · rename_i hab
        simp [hab, Char.lt_def, UInt32.lt_iff_toNat_lt]

end StepCatalog.Text
