import StepCatalog.Proofs.Body.Leading
import StepCatalog.Proofs.Regex.Refusal

/-!
# Bodies that compile or are rejected

A body that gives no regular expression is rejected, which a scan takes in its stride. Any other failure ends the scan. It cannot
arise from a body without NUL that is pure text, or that has short counts only and does not begin with flags (`harmless`): what is
written for parameters brings no counts and no flags (`shortCounts_renderFrom`, `opensFlags_renderFrom`), and the leading pattern
has the counts of the full one (`shortCounts_leadingOf`).

Main statement: `compile_of_harmless`.
-/

namespace StepCatalog

namespace Regex

/-! ## Texts with short counts -/

theorem fewAhead_of_le {c : Char} {s s' : Text} (hle : digitsAhead s' ≤ digitsAhead s) (h : fewAhead c s = true) :
    fewAhead c s' = true := by
  simp only [fewAhead, Bool.or_eq_true, decide_eq_true_eq] at h ⊢
  rcases h with hc | hdigits
  · exact .inl hc
  · exact .inr (by omega)

/-- The end of a text has no longer counts. -/
theorem shortCounts_of_append {u s : Text} (h : shortCounts (u ++ s) = true) : shortCounts s = true := by
  induction u with
  | nil => exact h
  | cons c u ih =>
    rw [List.cons_append, shortCounts, Bool.and_eq_true] at h
    exact ih h.2

/-- Characters that no count follows make no difference in front of a text. -/
theorem shortCounts_append {u : Text} (hu : u.any opensCount = false) (s : Text) : shortCounts (u ++ s) = shortCounts s := by
  induction u with
  | nil => rfl
  | cons c u ih =>
    rw [List.any_cons, Bool.or_eq_false_iff] at hu
    rw [List.cons_append, shortCounts, ih hu.2, fewAhead, hu.1]
    rfl

end Regex

namespace Body

open Regex
open Text (of)

/-! ## Tokens and the text they stand for -/

/-- Tokens stand for a text: a character for itself, a parameter for some stretch. -/
inductive Covers : List Token → Text → Prop
  | nil : Covers [] []
  | char (c : Char) {ts : List Token} {s : Text} : Covers ts s → Covers (.char c :: ts) (c :: s)
  | param (p : Parameter) (u : Text) {ts : List Token} {s : Text} : Covers ts s → Covers (.param p :: ts) (u ++ s)

theorem covers_chars (s : Text) : Covers (s.map .char) s := by
  induction s with
  | nil => exact .nil
  | cons c s ih => exact .char c ih

/-- A rule makes parameters of stretches, behind the tokens that are still to be passed over. -/
theorem covers_rewriteFrom (rule : Token.Rule) {ts : List Token} {s : Text} (h : Covers ts s) :
    ∀ back skip, ∃ u s', s = u ++ s' ∧ Covers (Token.rewriteFrom rule back skip ts) s' ∧ (skip = 0 → u = []) := by
  induction h with
  | nil => exact fun back skip => ⟨[], [], rfl, by simpa [Token.rewriteFrom] using .nil, fun _ => rfl⟩
  | @char c ts s h ih =>
    intro back skip
    cases skip with
    | succ skip =>
      obtain ⟨u, s', rfl, hcovers, -⟩ := ih (some (.char c)) skip
      exact ⟨c :: u, s', rfl, hcovers, fun h => absurd h (Nat.succ_ne_zero skip)⟩
    | zero =>
      rw [Token.rewriteFrom]
      split
      · rename_i p size _
        obtain ⟨u, s', rfl, hcovers, -⟩ := ih (some (.char c)) (size - 1)
        exact ⟨[], (c :: u) ++ s', rfl, .param p (c :: u) hcovers, fun _ => rfl⟩
      · obtain ⟨u, s', rfl, hcovers, hu⟩ := ih (some (.char c)) 0
        obtain rfl := hu rfl
        exact ⟨[], c :: s', rfl, .char c hcovers, fun _ => rfl⟩
  | @param q v ts s h ih =>
    intro back skip
    cases skip with
    | succ skip =>
      obtain ⟨u, s', rfl, hcovers, -⟩ := ih (some (.param q)) skip
      exact ⟨v ++ u, s', by rw [List.append_assoc], hcovers, fun h => absurd h (Nat.succ_ne_zero skip)⟩
    | zero =>
      rw [Token.rewriteFrom]
      split
      · rename_i p size _
        obtain ⟨u, s', rfl, hcovers, -⟩ := ih (some (.param q)) (size - 1)
        refine ⟨[], (v ++ u) ++ s', ?_, .param p (v ++ u) hcovers, fun _ => rfl⟩
        rw [List.nil_append, List.append_assoc]
      · obtain ⟨u, s', rfl, hcovers, hu⟩ := ih (some (.param q)) 0
        obtain rfl := hu rfl
        exact ⟨[], v ++ s', rfl, .param q v hcovers, fun _ => rfl⟩

theorem covers_rewrite (rule : Token.Rule) {ts : List Token} {s : Text} (h : Covers ts s) : Covers (Token.rewrite ts rule) s := by
  obtain ⟨u, s', rfl, hcovers, hu⟩ := covers_rewriteFrom rule h none 0
  obtain rfl := hu rfl
  exact hcovers

/-- The tokens of a body stand for it. -/
theorem covers_tokens (body : Text) : Covers (tokens body) body := by
  have hfold : ∀ (rules : List Token.Rule) (ts : List Token), Covers ts body → Covers (rules.foldl Token.rewrite ts) body := by
    intro rules
    induction rules with
    | nil => exact fun ts h => h
    | cons rule rules ih => exact fun ts h => ih _ (covers_rewrite rule h)
  exact hfold _ _ (covers_chars body)

/-! ## What is written for a body -/

theorem opensCount_of_isLetter {c : Char} (h : isLetter c = true) : opensCount c = false := by
  cases hc : opensCount c with
  | false => rfl
  | true =>
    simp only [opensCount, Bool.or_eq_true, beq_iff_eq] at hc
    rcases hc with rfl | rfl
    · exact absurd h (by decide)
    · exact absurd h (by decide)

/-- The characters that the regular expression of a parameter may begin with. -/
def parameterStarts : Text := of ".-\"[("

theorem Parameter.source_cons (p : Parameter) : ∃ c u, p.source = c :: u ∧ c ∈ parameterStarts := by
  cases p with
  | optional letters => exact ⟨'(', _, rfl, by decide⟩
  | oneOf words => exact ⟨'(', _, rfl, by decide⟩
  | quoted => exact ⟨'(', _, rfl, by decide⟩
  | anything => exact ⟨'.', _, rfl, by decide⟩
  | doubleQuoted => exact ⟨'"', _, rfl, by decide⟩
  | word => exact ⟨'[', _, rfl, by decide⟩
  | float => exact ⟨'-', _, rfl, by decide⟩
  | int => exact ⟨'-', _, rfl, by decide⟩

theorem any_opensCount_of_letters {s : Text} (h : ∀ c ∈ s, isLetter c = true) : s.any opensCount = false := by
  rw [List.any_eq_false]
  intro c hc
  rw [opensCount_of_isLetter (h c hc)]
  exact Bool.false_ne_true

/-- No count follows in what is written for a parameter. -/
theorem Parameter.opensCount_source {p : Parameter} (hp : p.Valid) : p.source.any opensCount = false := by
  cases p with
  | optional letters =>
    have hletters := any_opensCount_of_letters fun c hc => isLetter_of_isLowerLetter (hp.2 c hc)
    rw [Parameter.source, List.any_append, List.any_cons, hletters]
    decide
  | oneOf words =>
    have hwords : (Text.join ['|'] words).any opensCount = false := by
      rw [List.any_eq_false]
      intro c hc
      rcases Text.mem_join hc with hc | ⟨w, hw, hc⟩
      · obtain rfl := List.mem_singleton.1 hc
        decide
      · exact List.any_eq_false.1 (any_opensCount_of_letters (hp.2 w hw).2) c hc
    rw [Parameter.source, List.any_append, List.any_cons, hwords]
    decide
  | _ =>
    unfold Parameter.source
    decide

/-- What is written for a parameter does not open flags. -/
theorem Parameter.opensFlags_source {p : Parameter} (hp : p.Valid) (s : Text) : opensFlags (p.source ++ s) = false := by
  -- a parenthesis in front of a letter
  have hletter : ∀ (c : Char) (u : Text), isLetter c = true → opensFlags ('(' :: c :: u) = false := by
    intro c u hc
    have hquestion : c ≠ '?' := by
      rintro rfl
      exact absurd hc (by decide)
    unfold opensFlags
    split
    · rename_i heq
      simp only [List.cons.injEq, true_and] at heq
      exact absurd heq.1 hquestion
    · rfl
  cases p with
  | optional letters =>
    obtain ⟨hne, hletters⟩ := hp
    cases letters with
    | nil => exact absurd rfl hne
    | cons c letters => exact hletter c _ (isLetter_of_isLowerLetter (hletters c (by simp)))
  | oneOf words =>
    obtain ⟨hlen, hwords⟩ := hp
    match words with
    | [] => simp at hlen
    | [] :: words => exact absurd rfl (hwords [] (by simp)).1
    | (c :: w) :: words =>
      obtain ⟨u, hu⟩ : ∃ u, Text.join ['|'] ((c :: w) :: words) = c :: u := by
        cases words with
        | nil => exact ⟨w, Text.join_singleton _ _⟩
        | cons next words => exact ⟨_, Text.join_cons (List.cons_ne_nil _ _)⟩
      have hsource : (Parameter.oneOf ((c :: w) :: words)).source ++ s = '(' :: c :: (u ++ [')'] ++ s) := by
        rw [Parameter.source, hu]
        rfl
      rw [hsource]
      exact hletter c _ ((hwords (c :: w) (by simp)).2 c (by simp))
  | _ => rfl

/-- What is written for a body begins with no more digits. -/
theorem digitsAhead_renderFrom {ts : List Token} {s : Text} (h : Covers ts s) :
    ∀ back, digitsAhead (renderFrom .pattern back ts) ≤ digitsAhead s := by
  induction h with
  | nil => exact fun back => Nat.le_refl _
  | @char c ts s _ ih =>
    intro back
    rw [renderFrom, Kind.escapeChar]
    split
    · exact Nat.zero_le _
    · rw [List.singleton_append]
      cases hc : c.isDigit with
      | true =>
        rw [digitsAhead_digit hc, digitsAhead_digit hc]
        exact Nat.succ_le_succ (ih _)
      | false =>
        rw [digitsAhead_other hc]
        exact Nat.zero_le _
  | @param p u ts s _ _ =>
    intro back
    obtain ⟨c, v, hsource, hc⟩ := p.source_cons
    have hstarts : parameterStarts.any Char.isDigit = false := by decide
    have hdigit : c.isDigit = false := Bool.eq_false_iff.2 (List.any_eq_false.1 hstarts c hc)
    rw [renderFrom, hsource, List.cons_append, digitsAhead_other hdigit]
    exact Nat.zero_le _

/-- A body with short counts is written with short counts. -/
theorem shortCounts_renderFrom {ts : List Token} {s : Text} (h : Covers ts s) (hvalid : Token.AllValid ts) :
    ∀ back, shortCounts s = true → shortCounts (renderFrom .pattern back ts) = true := by
  induction h with
  | nil => exact fun back _ => rfl
  | @char c ts s h ih =>
    intro back hs
    have hvalid' : Token.AllValid ts := fun p hp => hvalid p (List.mem_cons_of_mem _ hp)
    rw [shortCounts, Bool.and_eq_true] at hs
    have hrest := ih hvalid' (some c) hs.2
    rw [renderFrom, Kind.escapeChar]
    split
    · rename_i hslash
      obtain ⟨rfl, -⟩ := hslash
      rw [shortCounts_append (by decide)]
      exact hrest
    · rw [List.singleton_append, shortCounts, Bool.and_eq_true]
      exact ⟨fewAhead_of_le (digitsAhead_renderFrom h _) hs.1, hrest⟩
  | @param p u ts s _ ih =>
    intro back hs
    have hvalid' : Token.AllValid ts := fun q hq => hvalid q (List.mem_cons_of_mem _ hq)
    rw [renderFrom, shortCounts_append (Parameter.opensCount_source (hvalid p (by simp)))]
    exact ih hvalid' none (shortCounts_of_append hs)

/-- A character that begins no parameter and no escape is written for itself only. -/
theorem cons_of_renderFrom {ts : List Token} {s : Text} (h : Covers ts s) {back : Option Char} {c : Char} {rest : Text}
    (hr : renderFrom .pattern back ts = c :: rest) (hc : c ∉ '\\' :: parameterStarts) :
    ∃ ts' s', ts = .char c :: ts' ∧ s = c :: s' ∧ Covers ts' s' ∧ rest = renderFrom .pattern (some c) ts' := by
  rw [List.mem_cons, not_or] at hc
  cases h with
  | nil => cases hr
  | @char d ts s h =>
    rw [renderFrom, Kind.escapeChar] at hr
    split at hr
    · exact absurd (List.cons.inj hr).1.symm hc.1
    · obtain ⟨rfl, rfl⟩ := List.cons.inj hr
      exact ⟨ts, s, rfl, rfl, h, rfl⟩
  | param p u h =>
    obtain ⟨d, v, hsource, hd⟩ := p.source_cons
    rw [renderFrom, hsource] at hr
    exact absurd ((List.cons.inj hr).1 ▸ hd) hc.2

/-- A body that does not begin with flags is not written so. -/
theorem opensFlags_renderFrom {ts : List Token} {s : Text} (h : Covers ts s) (hvalid : Token.AllValid ts)
    (hs : opensFlags s = false) : opensFlags (renderFrom .pattern none ts) = false := by
  have hflag : ∀ c, (isFlag c || c == '#') = true → c ∉ '\\' :: parameterStarts := by
    intro c hc hmem
    have hnone : ('\\' :: parameterStarts).any (fun d => isFlag d || d == '#') = false := by decide
    exact List.any_eq_false.1 hnone c hmem hc
  cases h with
  | nil => rfl
  | param p u h => exact Parameter.opensFlags_source (hvalid p (by simp)) _
  | @char d ts s h =>
    rw [renderFrom, Kind.escapeChar]
    split
    · rfl
    · rw [List.singleton_append]
      cases hopens : opensFlags (d :: renderFrom .pattern (some d) ts) with
      | false => rfl
      | true =>
        -- then the body itself begins with the three characters that open flags
        unfold opensFlags at hopens
        split at hopens
        · rename_i c rest heq
          obtain ⟨rfl, hrest⟩ := List.cons.inj heq
          obtain ⟨ts', s', -, rfl, h', hrest'⟩ := cons_of_renderFrom h hrest (by decide)
          obtain ⟨ts'', s'', -, rfl, -, -⟩ := cons_of_renderFrom h' hrest'.symm (hflag c hopens)
          simp only [opensFlags] at hs
          rw [hs] at hopens
          cases hopens
        · cases hopens

/-! ## The leading pattern -/

/-- Whether a body of a kind can only compile or be rejected: it holds no NUL and, unless it is pure text, short counts only
and no flags at its beginning. -/
def harmless (kind : Kind) (body : Text) : Bool :=
  !body.contains nul && (kind == .pureText || shortCounts body && !opensFlags body)

theorem source_pattern {body : Text} (h : nul ∉ body) :
    source .pattern true body = .ok (renderFrom .pattern none (tokens body)) := by
  rw [source, unanchored_eq_render .pattern h, render_eq_renderFrom]
  rfl

theorem Pattern.malformed_of_error {s : Text} (hcounts : shortCounts s = true) (hflags : opensFlags s = false) {e : Regex.Error}
    (he : Pattern.ofText? s = .error e) : e = .malformed := by
  refine ofText?_malformed hcounts hflags ?_
  unfold Pattern.ofText? at he
  cases hnode : Regex.Node.ofText? s {} with
  | ok node => simp [hnode, bind, Except.bind, pure, Except.pure] at he
  | error e' => simpa [hnode, bind, Except.bind] using he

end Body
end StepCatalog
