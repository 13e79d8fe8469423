import Mathlib.Data.List.TakeWhile
import StepCatalog.Proofs.Body.Parking
import StepCatalog.Source.Comment

/-!
# Clearing comments line by line

A text is cut into the parts between its line feeds, and clearing is followed part by part. A block comment leaves its line feeds
behind, so that what stays of a part is what is visible of it (`segments`, `splitOn_clearBlocks`). A line comment takes the blank
parts directly above it along (`collapse`, `splitOn_clearComments`). Unless there are such parts (`spaced`), every line keeps its
number, and a line without comments is kept as it is.

Main statements: `length_clearComments_eq_iff` and `getElem?_clearComments_of_untouched`.
-/

namespace StepCatalog

/-! ## Lines and the parts between line feeds -/

namespace Text

/-- A line without a carriage return at its end. -/
def dropReturn (line : Text) : Text := if line.getLast? = some '\r' then line.dropLast else line

/-- The lines that parts between line feeds make: each but the last loses a carriage return at its end. -/
def linesOf : List Text → List Text
  | part :: next :: rest => dropReturn part :: linesOf (next :: rest)
  | parts => parts

theorem dropReturn_cons {c : Char} {line : Text} (h : c = '\r' → line ≠ []) : dropReturn (c :: line) = c :: dropReturn line := by
  cases line with
  | nil =>
    have hc : c ≠ '\r' := fun hc => h hc rfl
    simp [dropReturn, hc]
  | cons d line =>
    unfold dropReturn
    rw [List.getLast?_cons_cons]
    split <;> rfl

theorem dropReturn_append_return (line : Text) : dropReturn (line ++ ['\r']) = line := by simp [dropReturn]

/-- A line has a carriage return at its end, or it keeps all it has. -/
theorem dropReturn_cases (line : Text) : line = dropReturn line ++ ['\r'] ∨ dropReturn line = line := by
  unfold dropReturn
  split
  · rename_i h
    exact .inl (List.dropLast_append_getLast? _ h).symm
  · exact .inr rfl

theorem dropReturn_sublist {a b : Text} (h : a.Sublist b) : (dropReturn a).Sublist (dropReturn b) := by
  have ha : (dropReturn a).Sublist a := by
    unfold dropReturn
    split
    · exact List.dropLast_sublist a
    · exact List.Sublist.refl a
  rcases dropReturn_cases b with hb | hb
  · rw [hb, List.sublist_append_iff] at h
    obtain ⟨u, v, rfl, hu, hv⟩ := h
    rcases List.sublist_singleton.1 hv with rfl | rfl
    · rw [List.append_nil] at ha ⊢
      exact ha.trans hu
    · rw [dropReturn_append_return]
      exact hu
  · rw [hb]
    exact ha.trans h

/-- A part stands where it is found. -/
theorem indexOf?_eq_some {part s : Text} {n : Nat} (h : indexOf? part s = some n) :
    ∃ rest, s = s.take n ++ (part ++ rest) ∧ n ≤ s.length := by
  induction s generalizing n with
  | nil =>
    unfold indexOf? at h
    split at h
    · rename_i hpart
      rw [List.isEmpty_iff.1 hpart]
      exact ⟨[], by simp, by simpa using h.symm⟩
    · cases h
  | cons c s ih =>
    unfold indexOf? at h
    split at h
    · rename_i hstart
      obtain ⟨rest, hrest⟩ := startsWith_iff.1 hstart
      obtain rfl := Option.some.inj h
      exact ⟨rest, hrest, Nat.zero_le _⟩
    · obtain ⟨m, hm, rfl⟩ := Option.map_eq_some_iff.1 h
      obtain ⟨rest, hrest, hlen⟩ := ih hm
      refine ⟨rest, ?_, Nat.succ_le_succ hlen⟩
      rw [List.take_succ_cons, List.cons_append, ← hrest]

theorem length_linesOf (parts : List Text) : (linesOf parts).length = parts.length := by
  fun_induction linesOf parts with
  | case1 part next rest ih => simp [ih]
  | case2 parts h => rfl

/-- Line by line, parts lose a carriage return unless they are the last one. -/
theorem getElem?_linesOf (parts : List Text) (i : Nat) :
    (linesOf parts)[i]? = parts[i]?.map fun part => if i + 1 = parts.length then part else dropReturn part := by
  fun_induction linesOf parts generalizing i with
  | case1 part next rest ih =>
    cases i with
    | zero => simp
    | succ i =>
      rw [List.getElem?_cons_succ, ih, List.getElem?_cons_succ]
      simp
  | case2 parts h =>
    match parts, h with
    | [], _ => rfl
    | [part], _ => cases i <;> rfl
    | part :: next :: rest, h => exact (h part next rest rfl).elim

theorem splitLines_eq (s : Text) : splitLines s = linesOf (splitOn '\n' s) := by
  fun_induction splitLines s with
  | case1 => rfl
  | case2 s ih =>
    rw [splitOn, if_pos rfl, ih]
    cases h : splitOn '\n' s with
    | nil => exact absurd h (splitOn_ne_nil _ _)
    | cons part rest => rfl
  | case3 s ih =>
    rw [splitOn, if_neg (by decide), splitOn, if_pos rfl, ih]
    cases h : splitOn '\n' s with
    | nil => exact absurd h (splitOn_ne_nil _ _)
    | cons part rest => rfl
  | case4 c s hc hreturn ih =>
    have hc' : c ≠ '\n' := by
      rintro rfl
      exact hc rfl
    rw [splitOn, if_neg hc', ih]
    cases h : splitOn '\n' s with
    | nil => exact absurd h (splitOn_ne_nil _ _)
    | cons part rest =>
      cases rest with
      | nil => rfl
      | cons next rest =>
        -- an empty part in front of another one means that a line feed comes next
        have hpart : c = '\r' → part ≠ [] := by
          rintro rfl rfl
          cases s with
          | nil => simp [splitOn] at h
          | cons d s =>
            by_cases hd : d = '\n'
            · subst hd
              exact hreturn s rfl rfl
            · rw [splitOn, if_neg hd] at h
              cases hs : splitOn '\n' s with
              | nil => exact splitOn_ne_nil _ _ hs
              | cons x xs => simp [hs, consFirst] at h
        simp only [consFirst, linesOf, dropReturn_cons hpart]

end Text

namespace Source

open Text (splitOn)

/-! ## Block comments -/

/-- The text without its block comments, whose line feeds stay. -/
def clearBlocks (s : Text) : Text := substitute blockComment (fun n => List.replicate n '\n') s

/-- Every character of a text, with whether it belongs to a block comment, of the last of which `skip` characters are still to
come. -/
def marksFrom : Nat → Text → List (Char × Bool)
  | _, [] => []
  | skip + 1, c :: s => (c, true) :: marksFrom skip s
  | 0, c :: s =>
    match blockComment none (c :: s) with
    | some (_, size) => (c, true) :: marksFrom (size - 1) s
    | none => (c, false) :: marksFrom 0 s

/-- The parts of a text between line feeds, every character with whether it belongs to a block comment. -/
def segments (s : Text) : List (List (Char × Bool)) := (marksFrom 0 s).splitOnP (·.1 == '\n')

/-- What stays of a character when block comments are cleared. -/
def cleared : Char × Bool → Option Char
  | (c, inside) => if inside && c != '\n' then none else some c

/-- What stays of a part when block comments are cleared. -/
def visible (part : List (Char × Bool)) : Text := part.filterMap cleared

/-- A block comment has a length, and it counts its line feeds; what stands in front does not matter. -/
theorem blockComment_eq_some {back : Option Char} {s : Text} {n size : Nat} (h : blockComment back s = some (n, size)) :
    ∃ c comment rest, s = c :: (comment ++ rest) ∧ size - 1 = comment.length ∧ n = (c :: comment).count '\n' := by
  unfold blockComment at h
  split at h
  · rename_i s'
    obtain ⟨k, hk, heq⟩ := Option.map_eq_some_iff.1 h
    obtain ⟨rfl, rfl⟩ := Prod.mk.inj heq
    obtain ⟨rest, hs', hlen⟩ := Text.indexOf?_eq_some hk
    refine ⟨'/', '*' :: (s'.take k ++ ['*', '/']), rest, ?_, ?_, ?_⟩
    · conv_lhs => rw [hs']
      simp
    · simp only [List.length_cons, List.length_append, List.length_take, List.length_nil, Nat.min_eq_left hlen]
      omega
    · simp
  · cases h

theorem blockComment_back (back : Option Char) (s : Text) : blockComment back s = blockComment none s := by
  unfold blockComment
  split <;> rfl

theorem marksFrom_skip (u s : Text) : marksFrom u.length (u ++ s) = u.map (·, true) ++ marksFrom 0 s := by
  induction u with
  | nil => rfl
  | cons c u ih =>
    rw [List.length_cons, List.cons_append, marksFrom, ih]
    rfl

theorem map_fst_marksFrom (skip : Nat) (s : Text) : (marksFrom skip s).map (·.1) = s := by
  fun_induction marksFrom skip s with
  | case1 => rfl
  | case2 skip c s ih => simp [ih]
  | case3 c s _ _ _ ih => simp [ih]
  | case4 c s _ ih => simp [ih]

theorem eq_of_cleared {x : Char × Bool} {c : Char} (h : cleared x = some c) : c = x.1 := by
  obtain ⟨d, inside⟩ := x
  simp only [cleared] at h
  split at h
  · cases h
  · exact (Option.some.inj h).symm

theorem filterMap_cleared_comment (u : Text) :
    (u.map (·, true)).filterMap cleared = List.replicate (u.count '\n') '\n' := by
  rw [← List.filter_beq, List.filterMap_map, ← List.filterMap_eq_filter]
  congr 1
  funext c
  by_cases hc : c = '\n' <;> simp [cleared, hc, Option.guard]

/-- Clearing block comments is done character by character. -/
theorem clearBlocks_eq (s : Text) : clearBlocks s = (marksFrom 0 s).filterMap cleared := by
  suffices h : ∀ n back (s : Text), s.length ≤ n →
      Piece.render (fun n => List.replicate n '\n') (piecesFrom blockComment back 0 s) = (marksFrom 0 s).filterMap cleared from
    h s.length none s (Nat.le_refl _)
  intro n
  induction n with
  | zero =>
    intro back s hs
    rw [List.length_eq_zero_iff.1 (Nat.le_zero.1 hs)]
    rfl
  | succ n ih =>
    intro back s hs
    cases s with
    | nil => rfl
    | cons c s =>
      rw [List.length_cons] at hs
      rw [piecesFrom, marksFrom, blockComment_back]
      cases hfind : blockComment none (c :: s) with
      | none =>
        simp only [Piece.render, List.flatMap_cons, List.filterMap_cons]
        rw [← Piece.render, ih _ s (by omega)]
        rfl
      | some found =>
        obtain ⟨k, size⟩ := found
        obtain ⟨c', comment, rest, heq, hsize, rfl⟩ := blockComment_eq_some hfind
        obtain ⟨rfl, rfl⟩ := List.cons.inj heq
        rw [List.length_append] at hs
        simp only [hsize, Body.piecesFrom_skip, marksFrom_skip]
        rw [← List.cons_append, ← List.map_cons (f := (·, true)), List.filterMap_append, filterMap_cleared_comment,
          ← ih _ rest (by omega)]
        rfl

/-! ## Parts -/

/-- Characters that are dropped or changed one by one leave the parts of a text in their places, if those between which it is cut
stay and no others come up. -/
theorem splitOnP_filterMap {α β : Type} {f : α → Option β} {p : α → Bool} {q : β → Bool}
    (hp : ∀ a, p a = true → ∃ b, f a = some b ∧ q b = true) (hq : ∀ a b, p a = false → f a = some b → q b = false)
    (l : List α) : (l.filterMap f).splitOnP q = (l.splitOnP p).map (List.filterMap f) := by
  induction l with
  | nil => rfl
  | cons a l ih =>
    rw [List.splitOnP_cons_eq_if_modifyHead]
    by_cases ha : p a = true
    · obtain ⟨b, hb, hqb⟩ := hp a ha
      rw [if_pos ha, List.filterMap_cons_some hb, List.splitOnP_cons_eq_if_modifyHead, if_pos hqb, ih]
      rfl
    · rw [if_neg ha]
      cases hl : l.splitOnP p with
      | nil => exact absurd hl (List.splitOnP_ne_nil _ _)
      | cons part parts =>
        rw [hl] at ih
        cases hb : f a with
        | none =>
          rw [List.filterMap_cons_none hb, ih]
          simp [hb]
        | some b =>
          have hqb : q b = false := hq a b (by simpa using ha) hb
          rw [List.filterMap_cons_some hb, List.splitOnP_cons_eq_if_modifyHead, hqb, ih]
          simp [hb]

/-- The parts of a text, marks apart. -/
theorem splitOn_eq_segments (s : Text) : splitOn '\n' s = (segments s).map (List.map (·.1)) := by
  have h := splitOnP_filterMap (f := fun x : Char × Bool => some x.1) (p := (·.1 == '\n')) (q := (· == '\n'))
    (fun a ha => ⟨a.1, rfl, ha⟩) (fun a b ha hb => by rw [← Option.some.inj hb]; exact ha) (marksFrom 0 s)
  rw [List.filterMap_eq_map', map_fst_marksFrom] at h
  rw [Text.splitOn_eq_list, List.splitOn_eq_splitOnP, h, segments]

/-- Clearing block comments leaves what is visible of every part. -/
theorem splitOn_clearBlocks (s : Text) : splitOn '\n' (clearBlocks s) = (segments s).map visible := by
  rw [Text.splitOn_eq_list, List.splitOn_eq_splitOnP, clearBlocks_eq]
  refine splitOnP_filterMap ?_ ?_ _
  · rintro ⟨c, inside⟩ hc
    rw [beq_iff_eq] at hc
    exact ⟨'\n', by simp [cleared, show c = '\n' from hc], rfl⟩
  · rintro ⟨c, inside⟩ b hc hb
    rw [eq_of_cleared hb]
    exact hc

theorem visible_sublist (part : List (Char × Bool)) : (visible part).Sublist (part.map (·.1)) := by
  unfold visible
  induction part with
  | nil => exact .slnil
  | cons x part ih =>
    cases hx : cleared x with
    | none =>
      rw [List.filterMap_cons_none hx]
      exact ih.cons _
    | some c =>
      rw [List.filterMap_cons_some hx, eq_of_cleared hx]
      exact ih.cons_cons _

/-- A part that holds nothing of a block comment is visible as a whole. -/
theorem visible_eq {part : List (Char × Bool)} (h : ∀ x ∈ part, x.2 = false) : visible part = part.map (·.1) := by
  unfold visible
  rw [← List.filterMap_eq_map']
  refine List.filterMap_congr fun x hx => ?_
  simp [cleared, h x hx]

/-! ## Line comments -/

/-- Whether a text begins with the mark of a line comment. -/
def beginsComment (s : Text) : Bool := s.startsWith ['/', '/'] || s.startsWith ['#']

/-- Whether a line is a line comment: behind its blanks comes a mark. -/
def isLineComment (line : Text) : Bool := beginsComment (line.dropWhile isBlank)

/-- What stays of a line when line comments are cleared. -/
def blankComment (line : Text) : Text := if isLineComment line then [] else line

/-- Whether the first of the lines that is not blank is a line comment. -/
def commentAhead : List Text → Bool
  | [] => false
  | line :: rest => if Text.isBlankText line then commentAhead rest else isLineComment line

/-- The lines that stay when line comments are cleared: blank lines above a line comment go. -/
def collapse : List Text → List Text
  | [] => []
  | line :: rest =>
    if Text.isBlankText line && commentAhead rest then collapse rest else blankComment line :: collapse rest

/-- Whether no blank line stands directly above a line comment. -/
def spacedLines : List Text → Bool
  | line :: next :: rest => !(Text.isBlankText line && isLineComment next) && spacedLines (next :: rest)
  | _ => true

/-- What a character leaves to be read decides nothing about a comment, unless it belongs to a mark. -/
theorem beginsComment_append {c : Char} (hslash : c ≠ '/') (hhash : c ≠ '#') (u rest : Text) :
    beginsComment (u ++ c :: rest) = beginsComment u := by
  match u with
  | [] => simp [beginsComment, Text.startsWith, Text.after?, Ne.symm hslash, Ne.symm hhash]
  | [a] =>
    simp only [beginsComment, Text.startsWith, List.cons_append, List.nil_append, Text.after?, Ne.symm hslash, if_false,
      ite_self]
    split_ifs <;> rfl
  | a :: b :: u =>
    simp only [beginsComment, Text.startsWith, List.cons_append, Text.after?]
    split_ifs <;> rfl

theorem dropWhile_eq_nil_of_blank {line : Text} (h : Text.isBlankText line = true) : line.dropWhile isBlank = [] := by
  rw [List.dropWhile_eq_nil_iff]
  exact List.all_eq_true.1 h

theorem isLineComment_of_blank {line : Text} (h : Text.isBlankText line = true) : isLineComment line = false := by
  rw [isLineComment, dropWhile_eq_nil_of_blank h]
  rfl

/-- Blanks at the beginning of a text, up to where a line ends. -/
theorem dropWhile_line (line rest : Text) : (line ++ '\n' :: rest).dropWhile isBlank =
    if Text.isBlankText line then rest.dropWhile isBlank else line.dropWhile isBlank ++ '\n' :: rest := by
  have hnewline : ('\n' :: rest).dropWhile isBlank = rest.dropWhile isBlank := List.dropWhile_cons_of_pos (by decide)
  rw [List.dropWhile_append, hnewline]
  congr 1
  rw [List.isEmpty_iff, List.dropWhile_eq_nil_iff, eq_iff_iff]
  exact List.all_eq_true.symm

/-- Whether a text begins with a comment, blanks and the marks of lines apart, can be told from its first line if that is not
blank. -/
theorem beginsComment_line {line : Text} (h : Text.isBlankText line = false) (rest : Text) :
    beginsComment ((line ++ '\n' :: rest).dropWhile isBlank) = isLineComment line := by
  rw [dropWhile_line, h, if_neg Bool.false_ne_true, beginsComment_append (by decide) (by decide)]
  rfl

/-- Induction on the lines of a text. -/
theorem line_induction {P : Text → Prop} (last : ∀ line, '\n' ∉ line → P line)
    (more : ∀ line rest, '\n' ∉ line → P rest → P (line ++ '\n' :: rest)) (s : Text) : P s :=
  Text.parts_induction '\n' last more s

/-- A comment is ahead in the lines of a text if the text begins with it, blanks apart. -/
theorem commentAhead_splitOn (s : Text) : commentAhead (splitOn '\n' s) = beginsComment (s.dropWhile isBlank) := by
  induction s using line_induction with
  | last line hline =>
    rw [Text.splitOn_of_not_mem hline, commentAhead, commentAhead]
    split
    · rename_i hblank
      rw [← isLineComment, isLineComment_of_blank hblank]
    · rfl
  | more line rest hline ih =>
    rw [Text.splitOn_append_cons hline, commentAhead, ih]
    cases hblank : Text.isBlankText line with
    | true => rw [dropWhile_line, hblank, if_pos rfl, if_pos rfl]
    | false => rw [beginsComment_line hblank, if_neg Bool.false_ne_true]

/-! ## Clearing line comments -/

/-- The rest of a text without its line comments, behind a character. -/
def clearLines (back : Option Char) (s : Text) : Text := Piece.render (fun _ => []) (piecesFrom lineComment back 0 s)

/-- The rest of a text without its line comments, from the end of a line on. -/
def clearTail : Text → Text
  | [] => []
  | _ :: rest => '\n' :: clearLines (some '\n') rest

/-- Whether a line begins behind a character, if there is one. -/
def AtLineStart (back : Option Char) : Prop := back = none ∨ back = some '\n'

/-- Whether a text is at its end or at the end of a line. -/
def AtLineEnd (s : Text) : Prop := s = [] ∨ ∃ rest, s = '\n' :: rest

theorem clearLines_of_none {back : Option Char} {c : Char} {s : Text} (h : lineComment back (c :: s) = none) :
    clearLines back (c :: s) = c :: clearLines (some c) s := by
  rw [clearLines, piecesFrom, h]
  rfl

theorem lineComment_of_start {back : Option Char} (hback : AtLineStart back) (s : Text) :
    lineComment back s =
      if beginsComment (s.dropWhile isBlank) then
        some ((), (s.takeWhile isBlank).length + ((s.dropWhile isBlank).takeWhile (· != '\n')).length)
      else none := by
  rcases hback with rfl | rfl <;> rfl

/-- Within a line no comment begins. -/
theorem clearLines_inside {d : Char} (hd : d ≠ '\n') {line tail : Text} (hline : '\n' ∉ line) (htail : AtLineEnd tail) :
    clearLines (some d) (line ++ tail) = line ++ clearTail tail := by
  have hnone : ∀ (d : Char) (s : Text), d ≠ '\n' → lineComment (some d) s = none := by
    intro d s hd
    simp [lineComment, hd]
  induction line generalizing d with
  | nil =>
    rcases htail with rfl | ⟨rest, rfl⟩
    · rfl
    · exact clearLines_of_none (hnone d _ hd)
  | cons c line ih =>
    rw [List.mem_cons, not_or] at hline
    rw [List.cons_append, clearLines_of_none (hnone d _ hd), ih (Ne.symm hline.1) hline.2]
    rfl

/-- A line at whose beginning no comment begins stays. -/
theorem clearLines_quiet {back : Option Char} (hback : AtLineStart back) {line tail : Text} (hline : '\n' ∉ line)
    (htail : AtLineEnd tail) (hquiet : beginsComment ((line ++ tail).dropWhile isBlank) = false) :
    clearLines back (line ++ tail) = line ++ clearTail tail := by
  have hnone : lineComment back (line ++ tail) = none := by
    rw [lineComment_of_start hback, hquiet, if_neg Bool.false_ne_true]
  cases line with
  | nil =>
    rcases htail with rfl | ⟨rest, rfl⟩
    · rfl
    · exact clearLines_of_none hnone
  | cons c line =>
    rw [List.mem_cons, not_or] at hline
    calc clearLines back (c :: (line ++ tail)) = c :: clearLines (some c) (line ++ tail) := clearLines_of_none hnone
      _ = c :: (line ++ clearTail tail) := by rw [clearLines_inside (Ne.symm hline.1) hline.2 htail]

/-- A comment goes up to the end of its line, with all blanks in front of it. -/
theorem clearLines_comment {back : Option Char} (hback : AtLineStart back) {s : Text}
    (h : beginsComment (s.dropWhile isBlank) = true) :
    clearLines back s = clearTail ((s.dropWhile isBlank).dropWhile (· != '\n')) := by
  set rest := s.dropWhile isBlank with hrest
  set tail := rest.dropWhile (· != '\n') with htail
  have hsplit : s = s.takeWhile isBlank ++ rest.takeWhile (· != '\n') ++ tail := by
    rw [List.append_assoc, List.takeWhile_append_dropWhile, List.takeWhile_append_dropWhile]
  have hend : AtLineEnd tail := by
    cases htl : tail with
    | nil => exact .inl rfl
    | cons c tl =>
      have hc := List.head?_dropWhile_not (· != '\n') rest
      rw [← htail, htl] at hc
      exact .inr ⟨tl, by simpa using hc⟩
  -- the comment has a last character, and that is no line feed
  obtain ⟨d, hd, hlast⟩ : ∃ d, d ≠ '\n' ∧ (rest.takeWhile (· != '\n')).getLast? = some d := by
    obtain ⟨c, rest', hc, hrest'⟩ : ∃ c rest', c ≠ '\n' ∧ rest = c :: rest' := by
      rcases Bool.or_eq_true _ _ ▸ h with h | h
      · obtain ⟨rest', hrest'⟩ := Text.startsWith_iff.1 h
        exact ⟨'/', '/' :: rest', by decide, hrest'⟩
      · obtain ⟨rest', hrest'⟩ := Text.startsWith_iff.1 h
        exact ⟨'#', rest', by decide, hrest'⟩
    have hne : rest.takeWhile (· != '\n') ≠ [] := by simp [hrest', hc]
    refine ⟨_, ?_, List.getLast?_eq_getLast_of_ne_nil hne⟩
    simpa using List.mem_takeWhile_imp (List.getLast_mem hne)
  set taken := s.takeWhile isBlank ++ rest.takeWhile (· != '\n') with htaken
  have htakenLast : taken.getLast? = some d := by rw [htaken, List.getLast?_append, hlast, Option.some_or]
  have hfind : lineComment back s = some ((), taken.length) := by
    rw [lineComment_of_start hback, if_pos h, htaken, List.length_append]
  clear_value taken
  cases taken with
  | nil => simp at htakenLast
  | cons c taken =>
    rw [List.cons_append] at hsplit
    rw [hsplit] at hfind ⊢
    rw [clearLines, piecesFrom, hfind]
    have hback' : Body.lastOf (some c) taken = some d := by
      rw [← htakenLast, Body.lastOf, List.getLast?_cons]
      cases taken.getLast? <;> rfl
    have hskip : piecesFrom lineComment (some c) ((c :: taken).length - 1) (taken ++ tail) =
        piecesFrom lineComment (some d) 0 tail := by
      rw [← hback']
      exact Body.piecesFrom_skip lineComment taken tail (some c)
    have htail' : clearLines (some d) ([] ++ tail) = [] ++ clearTail tail := clearLines_inside hd List.not_mem_nil hend
    simp only [hskip]
    exact htail'

theorem ne_newline_of_mem_dropWhile {line : Text} (hline : '\n' ∉ line) :
    ∀ c ∈ line.dropWhile isBlank, (c != '\n') = true := by
  intro c hc
  have hmem : c ∈ line := (List.dropWhile_sublist _).subset hc
  simpa using fun heq : c = '\n' => hline (heq ▸ hmem)

/-- Clearing line comments leaves the lines that stay. -/
theorem splitOn_clearLines (s : Text) :
    ∀ back, AtLineStart back → splitOn '\n' (clearLines back s) = collapse (splitOn '\n' s) := by
  induction s using line_induction with
  | last line hline =>
    intro back hback
    rw [Text.splitOn_of_not_mem hline, collapse, commentAhead, Bool.and_false, if_neg Bool.false_ne_true, collapse, blankComment]
    cases hcomment : isLineComment line with
    | true =>
      rw [clearLines_comment hback hcomment, List.dropWhile_eq_nil_iff.2 (ne_newline_of_mem_dropWhile hline)]
      rfl
    | false =>
      have hstays := clearLines_quiet hback hline (.inl rfl) (by rw [List.append_nil]; exact hcomment)
      rw [List.append_nil] at hstays
      rw [hstays, clearTail, List.append_nil, Text.splitOn_of_not_mem hline]
      rfl
  | more line rest hline ih =>
    intro back hback
    rw [Text.splitOn_append_cons hline, collapse, commentAhead_splitOn]
    cases hcomment : beginsComment ((line ++ '\n' :: rest).dropWhile isBlank) with
    | true =>
      rw [clearLines_comment hback hcomment]
      rw [dropWhile_line] at hcomment ⊢
      cases hblank : Text.isBlankText line with
      | true =>
        -- the comment stands further down and is reached from the next line just as well
        rw [hblank, if_pos rfl] at hcomment
        rw [if_pos rfl, hcomment, Bool.true_and, if_pos rfl, ← clearLines_comment (.inr rfl) hcomment]
        exact ih _ (.inr rfl)
      | false =>
        have hline' : isLineComment line = true := by
          rw [← beginsComment_line hblank rest, dropWhile_line]
          exact hcomment
        have hend : (line.dropWhile isBlank ++ '\n' :: rest).dropWhile (· != '\n') = '\n' :: rest := by
          rw [List.dropWhile_append_of_pos (ne_newline_of_mem_dropWhile hline), List.dropWhile_cons_of_neg (by simp)]
        rw [if_neg Bool.false_ne_true, hend, Bool.false_and, if_neg Bool.false_ne_true, blankComment, hline', if_pos rfl,
          ← ih _ (.inr rfl)]
        rfl
    | false =>
      have hswallowed : (Text.isBlankText line && beginsComment (rest.dropWhile isBlank)) = false := by
        cases hblank : Text.isBlankText line with
        | true =>
          rw [dropWhile_line, hblank, if_pos rfl] at hcomment
          rw [hcomment]
          rfl
        | false => rfl
      have hline' : isLineComment line = false := by
        cases hblank : Text.isBlankText line with
        | true => exact isLineComment_of_blank hblank
        | false => rw [← beginsComment_line hblank rest, hcomment]
      rw [clearLines_quiet hback hline (.inr ⟨rest, rfl⟩) hcomment, clearTail, Text.splitOn_append_cons hline, ih _ (.inr rfl),
        hswallowed, if_neg Bool.false_ne_true, blankComment, hline', if_neg Bool.false_ne_true]

/-- Clearing comments part by part. -/
theorem splitOn_clearComments (s : Text) : splitOn '\n' (clearComments s) = collapse ((segments s).map visible) := by
  rw [← splitOn_clearBlocks]
  exact splitOn_clearLines _ _ (.inl rfl)

/-! ## Lines that keep their numbers -/

/-- Whether no blank line stands directly above a line comment once block comments are cleared. -/
def spaced (s : Text) : Bool := spacedLines (splitOn '\n' (clearBlocks s))

/-- Whether a line of a text holds nothing of a block comment. -/
def untouched (s : Text) (i : Nat) : Bool := ((segments s)[i]?.getD []).all (!·.2)

theorem commentAhead_of_spaced {line : Text} {rest : List Text} (h : spacedLines (line :: rest) = true)
    (hblank : Text.isBlankText line = true) : commentAhead rest = false := by
  induction rest generalizing line with
  | nil => rfl
  | cons next rest ih =>
    simp only [spacedLines, hblank, Bool.true_and, Bool.and_eq_true, Bool.not_eq_true'] at h
    rw [commentAhead]
    split
    · rename_i hnext
      exact ih h.2 hnext
    · exact h.1

theorem spacedLines_tail {line : Text} {rest : List Text} (h : spacedLines (line :: rest) = true) : spacedLines rest = true := by
  cases rest with
  | nil => rfl
  | cons next rest =>
    rw [spacedLines, Bool.and_eq_true] at h
    exact h.2

/-- Spaced lines all stay. -/
theorem collapse_of_spaced {lines : List Text} (h : spacedLines lines = true) : collapse lines = lines.map blankComment := by
  induction lines with
  | nil => rfl
  | cons line rest ih =>
    have hstays : (Text.isBlankText line && commentAhead rest) = false := by
      cases hblank : Text.isBlankText line with
      | true => exact commentAhead_of_spaced h hblank
      | false => rfl
    rw [collapse, hstays, if_neg Bool.false_ne_true, ih (spacedLines_tail h)]
    rfl

theorem length_collapse_le (lines : List Text) : (collapse lines).length ≤ lines.length := by
  induction lines with
  | nil => exact Nat.le_refl _
  | cons line rest ih =>
    rw [collapse]
    split
    · exact Nat.le_succ_of_le ih
    · exact Nat.succ_le_succ ih

/-- Lines all stay only if they are spaced. -/
theorem length_collapse_eq_iff (lines : List Text) : (collapse lines).length = lines.length ↔ spacedLines lines = true := by
  constructor
  · intro h
    induction lines with
    | nil => rfl
    | cons line rest ih =>
      rw [collapse] at h
      split at h
      · have hle := length_collapse_le rest
        rw [h, List.length_cons] at hle
        omega
      · rename_i hstays
        have hrest := ih (Nat.succ.inj h)
        cases rest with
        | nil => rfl
        | cons next rest =>
          rw [spacedLines, hrest, Bool.and_true, Bool.not_eq_true']
          by_contra hdirect
          rw [Bool.not_eq_false, Bool.and_eq_true] at hdirect
          have hnext : Text.isBlankText next = false := by
            by_contra hblank
            rw [Bool.not_eq_false] at hblank
            rw [isLineComment_of_blank hblank] at hdirect
            exact Bool.false_ne_true hdirect.2
          refine hstays ?_
          rw [hdirect.1, commentAhead, hnext, if_neg Bool.false_ne_true, hdirect.2]
          rfl
  · intro h
    rw [collapse_of_spaced h, List.length_map]

/-- As many lines stay as there were exactly if no blank line stands directly above a line comment. -/
theorem length_clearComments_eq_iff (s : Text) :
    (splitLines (clearComments s)).length = (splitLines s).length ↔ spaced s = true := by
  rw [Text.splitLines_eq, Text.splitLines_eq, Text.length_linesOf, Text.length_linesOf, splitOn_clearComments,
    splitOn_eq_segments, List.length_map, spaced, splitOn_clearBlocks, ← length_collapse_eq_iff, List.length_map]

/-- The lines that comments leave of a spaced text, by number. -/
theorem getElem?_clearComments {s : Text} (h : spaced s = true) (i : Nat) :
    (splitLines (clearComments s))[i]? = (segments s)[i]?.map fun part =>
      if i + 1 = (segments s).length then blankComment (visible part) else Text.dropReturn (blankComment (visible part)) := by
  rw [spaced, splitOn_clearBlocks] at h
  rw [Text.splitLines_eq, Text.getElem?_linesOf, splitOn_clearComments, collapse_of_spaced h]
  simp only [List.getElem?_map, List.length_map, Option.map_map]
  rfl

theorem getElem?_splitLines (s : Text) (i : Nat) :
    (splitLines s)[i]? = (segments s)[i]?.map fun part =>
      if i + 1 = (segments s).length then part.map (·.1) else Text.dropReturn (part.map (·.1)) := by
  rw [Text.splitLines_eq, Text.getElem?_linesOf, splitOn_eq_segments]
  simp only [List.getElem?_map, List.length_map, Option.map_map]
  rfl

/-- A carriage return at the end of a line has no part in whether it is a line comment. -/
theorem isLineComment_dropReturn (line : Text) : isLineComment (Text.dropReturn line) = isLineComment line := by
  rcases Text.dropReturn_cases line with h | h
  · set u := Text.dropReturn line
    rw [h, isLineComment, isLineComment, List.dropWhile_append]
    split
    · rename_i hblank
      rw [List.isEmpty_iff.1 hblank]
      rfl
    · rw [beginsComment_append (by decide) (by decide)]
  · rw [h]

/-- Every line that stays is what comments leave of the line with its number. -/
theorem sublist_of_clearComments {s : Text} (h : spaced s = true) {i : Nat} {line : Text}
    (hline : (splitLines (clearComments s))[i]? = some line) : ∃ whole, (splitLines s)[i]? = some whole ∧ line.Sublist whole := by
  rw [getElem?_clearComments h, Option.map_eq_some_iff] at hline
  obtain ⟨part, hpart, rfl⟩ := hline
  have hvisible : (blankComment (visible part)).Sublist (part.map (·.1)) := by
    refine List.Sublist.trans ?_ (visible_sublist part)
    unfold blankComment
    split
    · exact List.nil_sublist _
    · exact List.Sublist.refl _
  refine ⟨_, by rw [getElem?_splitLines, hpart]; rfl, ?_⟩
  split
  · exact hvisible
  · exact Text.dropReturn_sublist hvisible

/-- A line without comments keeps its number and stays as it is. -/
theorem getElem?_clearComments_of_untouched {s : Text} (h : spaced s = true) {i : Nat} {line : Text}
    (hline : (splitLines s)[i]? = some line) (huntouched : untouched s i = true) (hcomment : isLineComment line = false) :
    (splitLines (clearComments s))[i]? = some line := by
  rw [getElem?_splitLines, Option.map_eq_some_iff] at hline
  obtain ⟨part, hpart, rfl⟩ := hline
  have hvisible : visible part = part.map (·.1) := by
    refine visible_eq fun x hx => ?_
    rw [untouched, hpart, Option.getD_some, List.all_eq_true] at huntouched
    simpa using huntouched x hx
  have hstays : blankComment (visible part) = part.map (·.1) := by
    have hpart' : isLineComment (part.map (·.1)) = false := by
      split at hcomment
      · exact hcomment
      · rw [← isLineComment_dropReturn]
        exact hcomment
    rw [hvisible, blankComment, hpart', if_neg Bool.false_ne_true]
  rw [getElem?_clearComments h, hpart, Option.map_some, hstays]

end Source
end StepCatalog
