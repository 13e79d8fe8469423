import StepCatalog.Proofs.Body.Leading

/-!
# What pure text matches

Pure text always compiles, and its full pattern is found in just those texts that its tokens stand for, with or without a final line
feed. So every character outside of parameters stands for itself, whatever it means in a regular expression.

Main statement: `full_occursIn_iff`.
-/

namespace StepCatalog.Body

open Regex
open Text (of)

/-- What is found between the beginning and the end of a text. -/
theorem exists_between_anchors_iff (K : Text → Prop) (s : Text) :
    (∃ pre w after, s = pre ++ (w ++ after) ∧
      Span.seq Span.start (Span.seq (fun _ w _ => K w) Span.stop) pre.reverse w after) ↔
    K s ∨ ∃ w, s = w ++ ['\n'] ∧ K w := by
  simp only [seq_start_iff, seq_stop_iff, List.reverse_eq_nil_iff]
  constructor
  · rintro ⟨pre, w, after, rfl, rfl, hK, rfl | rfl⟩
    · rw [List.nil_append, List.append_nil]
      exact Or.inl hK
    · exact Or.inr ⟨w, rfl, hK⟩
  · rintro (hK | ⟨w, rfl, hK⟩)
    · exact ⟨[], s, [], by simp, rfl, hK, Or.inl rfl⟩
    · exact ⟨[], w, ['\n'], rfl, rfl, hK, Or.inr rfl⟩

/-- Pure text compiles, and its full pattern is found in just those texts that its tokens stand for, up to a final line feed. If no
rule finds a parameter in it, that is the text itself. -/
theorem full_occursIn_iff (body : Text) (h : nul ∉ body) :
    ∃ c, compile .pureText body = .ok c ∧ c.fellBack = false ∧
      (∀ s, c.full.occursIn s = true ↔ Spelling (tokens body) s ∨ ∃ w, s = w ++ ['\n'] ∧ Spelling (tokens body) w) ∧
      ((∀ rule ∈ parameterRules, Piece.hits (pieces rule body) = []) →
        ∀ s, c.full.occursIn s = true ↔ s = body ∨ s = body ++ ['\n']) := by
  obtain ⟨c, hc, hback, hfull, _⟩ := compile_pureText h
  have hiff : ∀ s, c.full.occursIn s = true ↔
      Spelling (tokens body) s ∨ ∃ w, s = w ++ ['\n'] ∧ Spelling (tokens body) w := by
    intro s
    rw [hfull s]
    exact exists_between_anchors_iff _ s
  refine ⟨c, hc, hback, hiff, fun hplain s => ?_⟩
  rw [hiff s, tokens_of_hits_nil h hplain]
  simp only [spelling_chars]
  constructor
  · rintro (hs | ⟨w, hs, rfl⟩)
    · exact Or.inl hs
    · exact Or.inr hs
  · rintro (hs | hs)
    · exact Or.inl hs
    · exact Or.inr ⟨body, hs, rfl⟩

/-- A body made of operators matches itself. -/
theorem full_occursIn_iff_operators :
    ∃ c, compile .pureText (of "(1+1)*^[$|.?]") = .ok c ∧ c.fellBack = false ∧
      ∀ s, c.full.occursIn s = true ↔ s = of "(1+1)*^[$|.?]" ∨ s = of "(1+1)*^[$|.?]" ++ ['\n'] := by
  obtain ⟨c, hc, hback, _, hplain⟩ := full_occursIn_iff (of "(1+1)*^[$|.?]") (by decide)
  exact ⟨c, hc, hback, hplain (by decide)⟩

end StepCatalog.Body
