import Mathlib.Data.List.DropRight
import Mathlib.Data.List.TakeWhile
import StepCatalog.Text.Blank

/-!
# Texts without the blanks around them

Trimming takes blanks off the ends of a text and nothing else, so that whatever blanks are put around a trimmed text, trimming gives
it back (`trim_padded`).
-/

namespace StepCatalog.Text

theorem dropEndWhile_isPrefix (p : Char → Bool) (s : Text) : s.dropEndWhile p <+: s := by
  rw [← List.reverse_suffix, dropEndWhile, List.reverse_reverse]
  exact List.dropWhile_suffix p

theorem mem_of_mem_trimStart {c : Char} {s : Text} (h : c ∈ trimStart s) : c ∈ s := (List.dropWhile_suffix isBlank).subset h

theorem mem_of_mem_trim {c : Char} {s : Text} (h : c ∈ s.trim) : c ∈ s :=
  mem_of_mem_trimStart ((dropEndWhile_isPrefix isBlank (trimStart s)).subset h)

theorem mem_dropWhile {p : Char → Bool} {c : Char} (hc : p c = false) {s : Text} (h : c ∈ s) : c ∈ s.dropWhile p := by
  rw [← List.takeWhile_append_dropWhile (p := p) (l := s)] at h
  refine (List.mem_append.1 h).resolve_left fun htake => ?_
  rw [List.mem_takeWhile_imp htake] at hc
  cases hc

/-- Trimming loses blanks only. -/
theorem mem_trim {c : Char} (hc : isBlank c = false) {s : Text} (h : c ∈ s) : c ∈ s.trim :=
  List.mem_reverse.2 (mem_dropWhile hc (List.mem_reverse.2 (mem_dropWhile hc h)))

/-- A text without the blanks at its ends begins with another character, if there is one. -/
theorem isBlank_of_trim_eq_cons {c : Char} {s rest : Text} (h : s.trim = c :: rest) : isBlank c = false := by
  obtain ⟨ending, hsplit⟩ := dropEndWhile_isPrefix isBlank (trimStart s)
  have htrim : trimStart s = c :: (rest ++ ending) := by
    rw [← hsplit, ← trimEnd, ← trim, h]
    rfl
  have hhead := List.head?_dropWhile_not isBlank s
  rw [← trimStart, htrim] at hhead
  exact hhead

theorem trimStart_trim (s : Text) : trimStart s.trim = s.trim := by
  cases htrim : s.trim with
  | nil => rfl
  | cons c rest =>
    rw [trimStart, List.dropWhile_cons, isBlank_of_trim_eq_cons htrim]
    rfl

theorem trimEnd_trim (s : Text) : trimEnd s.trim = s.trim := by
  simp only [trim, trimEnd, dropEndWhile, List.reverse_reverse]
  rw [List.dropWhile_idempotent]

theorem trim_trim (s : Text) : s.trim.trim = s.trim := by rw [trim, trimStart_trim, trimEnd_trim]

/-- Leading blanks are taken off. -/
theorem trimStart_append {front : Text} (h : front.isBlankText = true) (s : Text) : trimStart (front ++ s) = trimStart s :=
  List.dropWhile_append_of_pos (List.all_eq_true.1 h)

/-- Leading blanks are taken off in front of a character that is none. -/
theorem trimStart_append_cons {c : Char} (hc : isBlank c = false) (s rest : Text) :
    trimStart (s ++ c :: rest) = trimStart s ++ c :: rest := by
  have hstart : (c :: rest).dropWhile isBlank = c :: rest := by rw [List.dropWhile_cons, hc]; rfl
  rw [trimStart, List.dropWhile_append, hstart]
  split
  · rename_i hnil
    rw [trimStart, List.isEmpty_iff.1 hnil]
    rfl
  · rfl

/-- Trailing blanks are taken off. -/
theorem trimEnd_append {back : Text} (h : back.isBlankText = true) (s : Text) : trimEnd (s ++ back) = trimEnd s := by
  have hback : ∀ c ∈ back.reverse, isBlank c = true := fun c hc => List.all_eq_true.1 h c (List.mem_reverse.1 hc)
  rw [trimEnd, dropEndWhile, List.reverse_append, List.dropWhile_append_of_pos hback]
  rfl

/-- The first character of a text that is not blank stays at its place. -/
theorem trimEnd_cons {c : Char} {s : Text} (h : isBlankText (c :: s) = false) : trimEnd (c :: s) = c :: trimEnd s := by
  unfold trimEnd dropEndWhile
  rw [List.reverse_cons, List.dropWhile_append]
  split
  · rename_i hblank
    rw [List.isEmpty_iff] at hblank
    have hall : ∀ d ∈ s, isBlank d = true := fun d hd => List.dropWhile_eq_nil_iff.1 hblank d (List.mem_reverse.2 hd)
    have hc : isBlank c = false := by
      rw [isBlankText, List.all_cons, List.all_eq_true.2 hall, Bool.and_true] at h
      exact h
    simp [hblank, hc]
  · simp

/-- Where something is left of the end of a text, what stands in front of it stays. -/
theorem trimEnd_append_of_ne_nil {t : Text} (h : trimEnd t ≠ []) (s : Text) : trimEnd (s ++ t) = s ++ trimEnd t := by
  have hleft : t.reverse.dropWhile isBlank ≠ [] := fun hnil => h (by rw [trimEnd, dropEndWhile, hnil]; rfl)
  rw [trimEnd, dropEndWhile, List.reverse_append, List.dropWhile_append, if_neg (by simpa using hleft)]
  simp [trimEnd, dropEndWhile]

/-- The blanks at the two ends of a text can be taken off in either order. -/
theorem trimStart_trimEnd (s : Text) : trimStart (trimEnd s) = trim s := by
  induction s with
  | nil => rfl
  | cons c s ih =>
    by_cases hblank : isBlankText (c :: s) = true
    · -- nothing but blanks: both sides are empty
      have hstart : trimStart (c :: s) = [] := List.dropWhile_eq_nil_iff.2 (List.all_eq_true.1 hblank)
      have hend : trimEnd (c :: s) = [] := trimEnd_append hblank []
      rw [trim, hstart, hend]
      rfl
    · rw [Bool.not_eq_true] at hblank
      rw [trimEnd_cons hblank, trim]
      by_cases hc : isBlank c = true
      · rw [trimStart, trimStart, List.dropWhile_cons_of_pos hc, List.dropWhile_cons_of_pos hc]
        exact ih
      · rw [trimStart, trimStart, List.dropWhile_cons_of_neg hc, List.dropWhile_cons_of_neg hc, trimEnd_cons hblank]

theorem trim_trimEnd (s : Text) : trim (trimEnd s) = trim s := by rw [trim, trimStart_trimEnd, trimEnd_trim]

/-- A trimmed text is what is left of it between blanks. -/
theorem trim_padded {front text back : Text} (hfront : front.isBlankText = true) (htext : text.trim = text)
    (hback : back.isBlankText = true) : trim (front ++ (text ++ back)) = text := by
  rw [trim, trimStart_append hfront]
  cases text with
  | nil =>
    have hnil : trimStart back = [] := by rw [← List.append_nil back, trimStart_append hback]; rfl
    rw [List.nil_append, hnil]
    rfl
  | cons c rest =>
    have hstart : trimStart (c :: rest ++ back) = c :: rest ++ back := by
      rw [List.cons_append, trimStart, List.dropWhile_cons, isBlank_of_trim_eq_cons htext]
      rfl
    rw [hstart, trimEnd_append hback, ← htext, trimEnd_trim]

end StepCatalog.Text
