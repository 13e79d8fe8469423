import StepCatalog.Editor.InsertText
import StepCatalog.Proofs.Body.Cutting
import StepCatalog.Proofs.Body.Harmless

/-!
# Texts that can be inserted

What of a step is still to be typed is found by reading leading runs of the parts of its text as bodies. These runs are beginnings
of the text (`join_splitParts`), and the beginnings of a harmless text are harmless (`harmless_of_append`): each of them gives a
regular expression or is passed over. So there is always something to insert for a step with a harmless text.

Main statement: `insertText_of_harmless`.
-/

namespace StepCatalog

namespace Regex

/-! ## The beginnings of a text -/

theorem digitsAhead_append_le (u v : Text) : digitsAhead u ≤ digitsAhead (u ++ v) := by
  induction u with
  | nil => exact Nat.zero_le _
  | cons c u ih =>
    rw [List.cons_append]
    cases hc : c.isDigit with
    | true =>
      rw [digitsAhead_digit hc, digitsAhead_digit hc]
      exact Nat.succ_le_succ ih
    | false =>
      rw [digitsAhead_other hc]
      exact Nat.zero_le _

/-- The beginning of a text has no longer counts. -/
theorem shortCounts_of_append_left {u v : Text} (h : shortCounts (u ++ v) = true) : shortCounts u = true := by
  induction u with
  | nil => rfl
  | cons c u ih =>
    rw [List.cons_append, shortCounts, Bool.and_eq_true] at h
    rw [shortCounts, Bool.and_eq_true]
    exact ⟨fewAhead_of_le (digitsAhead_append_le u v) h.1, ih h.2⟩

theorem opensFlags_of_append {u v : Text} (h : opensFlags (u ++ v) = false) : opensFlags u = false := by
  cases hopens : opensFlags u with
  | false => rfl
  | true =>
    unfold opensFlags at hopens
    split at hopens
    · exact hopens.symm.trans h
    · cases hopens

end Regex

namespace Body

open Regex

/-! ## Harmless beginnings -/

/-- The beginnings of a harmless text are harmless. -/
theorem harmless_of_append {kind : Kind} {u v : Text} (h : harmless kind (u ++ v) = true) : harmless kind u = true := by
  simp only [harmless, Bool.and_eq_true, Bool.or_eq_true, Bool.not_eq_true', beq_iff_eq, List.contains_eq_mem,
    decide_eq_false_iff_not, List.mem_append, not_or] at h ⊢
  refine ⟨h.1.1, h.2.imp_right fun hpattern => ?_⟩
  exact ⟨shortCounts_of_append_left hpattern.1, opensFlags_of_append hpattern.2⟩

/-- Pure text without an anchor at its end gives a regular expression, which matches at the beginning of the texts that begin with
something the tokens stand for. -/
theorem beginning_pureText {body : Text} (h : nul ∉ body) :
    ∃ src p, source .pureText false body = .ok src ∧ Pattern.ofText? src = .ok p ∧
      ∀ s, p.begins s = true ↔ ∃ w after, s = w ++ after ∧ Spelling (tokens body) w := by
  have hsource : source .pureText false body = .ok ('^' :: (tokens body).flatMap Token.source) := by
    rw [source, unanchored_eq_render .pureText h, render_pureText]
    exact congrArg Except.ok (List.append_nil _)
  have hwrites := writes_start.append (writes_tokens (tokens_valid body)) (fresh_tokens _)
  obtain ⟨p, hp, hregular, htakes⟩ := pattern_of_writesChoice hwrites.choice
  refine ⟨_, p, hsource, hp, fun s => ?_⟩
  rw [Pattern.begins, Node.match?, matchAt_isSome_iff hregular]
  simp only [htakes, seq_start_iff, true_and]

/-- A harmless body without an anchor at its end gives a regular expression, or it is malformed. -/
theorem source_of_harmless {kind : Kind} {body : Text} (h : harmless kind body = true) :
    ∃ src, source kind false body = .ok src ∧ ∀ e, Pattern.ofText? src = .error e → e = .malformed := by
  simp only [harmless, Bool.and_eq_true, Bool.or_eq_true, Bool.not_eq_true', beq_iff_eq] at h
  have hnul : nul ∉ body := by simpa using h.1
  have hvalid := tokens_valid body
  cases kind with
  | pureText =>
    obtain ⟨src, p, hsource, hp, -⟩ := beginning_pureText hnul
    refine ⟨src, hsource, fun e he => ?_⟩
    cases hp.symm.trans he
  | pattern =>
    obtain ⟨hcounts, hflags⟩ : shortCounts body = true ∧ opensFlags body = false := by simpa using h.2
    have hcovers := covers_tokens body
    refine ⟨_, source_pattern hnul, fun e he => ?_⟩
    exact Pattern.malformed_of_error (shortCounts_renderFrom hcovers hvalid none hcounts)
      (opensFlags_renderFrom hcovers hvalid hflags) he

end Body

namespace Editor

/-! ## What is inserted -/

/-- Going through the parts of a harmless text comes to an end. -/
theorem unreached_of_harmless {kind : Body.Kind} (typed : Text) (parts : List Text) : ∀ done,
    Body.harmless kind (Text.join [' '] (done ++ parts)) = true → ∃ o, unreached kind typed done parts = .ok o := by
  induction parts with
  | nil => exact fun done _ => ⟨none, rfl⟩
  | cons part rest ih =>
    intro done h
    have hsplit : done ++ part :: rest = (done ++ [part]) ++ rest := by rw [List.append_assoc, List.singleton_append]
    rw [hsplit] at h
    have hnext := ih (done ++ [part]) h
    obtain ⟨ending, hjoin⟩ := Text.join_append [' '] (done ++ [part]) rest
    rw [hjoin] at h
    obtain ⟨src, hsource, hmalformed⟩ := Body.source_of_harmless (Body.harmless_of_append h)
    rw [unreached, hsource]
    dsimp only
    cases hp : Body.Pattern.ofText? src with
    | error e =>
      obtain rfl := hmalformed e hp
      exact hnext
    | ok p =>
      dsimp only
      split
      · exact hnext
      · exact ⟨_, rfl⟩

/-- There is a text to insert for every step whose text is harmless. -/
theorem insertText_of_harmless {style : InsertStyle} {text : Text} (h : Body.harmless style.kind text = true) (typed : Text) :
    ∃ t, insertText style text typed = .ok t := by
  rw [← Body.join_splitParts text] at h
  obtain ⟨parts, hparts⟩ := unreached_of_harmless typed (Body.splitParts text) [] h
  rw [insertText, remaining, hparts]
  exact ⟨_, rfl⟩

/-- A stack with room for the runs that are read makes no difference to what is inserted. -/
theorem insertTextOn_of_nesting_le {stack : Stack} {style : InsertStyle} {text typed t : Text}
    (h : ∀ source ∈ runsRead style.kind typed [] (Body.splitParts text), Regex.nesting source ≤ stack.room)
    (ht : insertText style text typed = .ok t) : insertTextOn stack style text typed = some t := by
  have hholds : (runsRead style.kind typed [] (Body.splitParts text)).all stack.holds = true :=
    List.all_eq_true.2 fun source hsource => stack.holds_of_nesting_le source (h source hsource)
  rw [insertTextOn, if_pos hholds, ht]
  rfl

end Editor
end StepCatalog
