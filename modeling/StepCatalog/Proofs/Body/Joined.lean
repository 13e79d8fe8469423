import Mathlib.Data.List.Count
import StepCatalog.Proofs.Body.Language

/-!
# The tokens of parts put together

A rule looks ahead from where a parameter begins, and it looks beyond a space only if the parameter takes the space as well
(`Token.Rule.Local`). So either the tokens of a text with a space in it are those of what stands in front of the space, the space,
and those of what follows, or the space is lost in a parameter (`foldl_rewrite_gap`). In a text whose spaces are all tokens, parts
with spaces between them therefore have their tokens to themselves (`tokens_join`), and stand for a word each (`spelling_join`).
-/

namespace StepCatalog.Body

open Text (of)

namespace Token

/-- The space between two parts. -/
def gap : Token := .char ' '

/-- A rule looks beyond a space only for a parameter that takes it. -/
structure Rule.Local (rule : Rule) : Prop where
  /-- No parameter begins with a space. -/
  atGap : ∀ back ts, rule back (gap :: ts) = none
  /-- A parameter behind a space is found as at the beginning. -/
  behindGap : ∀ ts, rule (some gap) ts = rule none ts
  size_le : ∀ {back ts p n}, rule back ts = some (p, n) → n ≤ ts.length
  /-- A parameter in front of a space is found whatever follows. -/
  keeps : ∀ {back ts p n}, rule back ts = some (p, n) → ∀ us, rule back (ts ++ gap :: us) = some (p, n)
  /-- Any other parameter that begins in front of a space takes the space. -/
  takes : ∀ {back ts us p n}, rule back ts = none → rule back (ts ++ gap :: us) = some (p, n) → ts.length < n

/-! ## Looking ahead -/

/-- A closing brace that is found is one of the tokens. -/
theorem untilBrace_lt {ts : List Token} {n : Nat} (h : untilBrace ts = some n) : n < ts.length := by
  induction ts generalizing n with
  | nil => cases h
  | cons t ts ih =>
    rw [List.length_cons]
    cases t with
    | char c =>
      unfold untilBrace at h
      split at h
      · cases h
        omega
      · split at h
        · cases h
        · obtain ⟨m, hm, rfl⟩ := Option.map_eq_some_iff.1 h
          have := ih hm
          omega
    | param p =>
      obtain ⟨m, hm, rfl⟩ := Option.map_eq_some_iff.1 h
      have := ih hm
      omega

/-- A closing brace is found whatever follows it, and one that is found only with what follows stands there. -/
theorem untilBrace_append (ts us : List Token) :
    (∀ n, untilBrace ts = some n → untilBrace (ts ++ us) = some n) ∧
    (untilBrace ts = none → ∀ n, untilBrace (ts ++ us) = some n → ts.length ≤ n) := by
  induction ts with
  | nil =>
    refine ⟨fun n h => ?_, fun _ n _ => Nat.zero_le n⟩
    cases h
  | cons t ts ih =>
    have hmap : (∀ n, (untilBrace ts).map (· + 1) = some n → (untilBrace (ts ++ us)).map (· + 1) = some n) ∧
        ((untilBrace ts).map (· + 1) = none → ∀ n, (untilBrace (ts ++ us)).map (· + 1) = some n → ts.length + 1 ≤ n) := by
      constructor
      · intro n h
        obtain ⟨m, hm, rfl⟩ := Option.map_eq_some_iff.1 h
        rw [ih.1 m hm]
        rfl
      · intro hnone n h
        obtain ⟨m, hm, rfl⟩ := Option.map_eq_some_iff.1 h
        exact Nat.succ_le_succ (ih.2 (Option.map_eq_none_iff.1 hnone) m hm)
    cases t with
    | param p => exact hmap
    | char c =>
      rw [List.cons_append, untilBrace, untilBrace, List.length_cons]
      split
      · refine ⟨fun n h => h, fun hnone => ?_⟩
        cases hnone
      · split
        · refine ⟨fun n h => h, fun _ n h => ?_⟩
          cases h
        · exact hmap

/-- The leading characters are some of the tokens. -/
theorem length_leading_le (p : Char → Bool) (ts : List Token) : (leading p ts).length ≤ ts.length := by
  induction ts with
  | nil => exact Nat.le_refl 0
  | cons t ts ih =>
    cases t with
    | param q => exact Nat.zero_le _
    | char c =>
      rw [leading]
      split
      · exact Nat.succ_le_succ ih
      · exact Nat.zero_le _

/-- Characters among which no space is end at a space. -/
theorem leading_append_gap {p : Char → Bool} (hp : p ' ' = false) (ts us : List Token) :
    leading p (ts ++ gap :: us) = leading p ts := by
  induction ts with
  | nil =>
    rw [List.nil_append, gap, leading, if_neg (by simp [hp])]
    rfl
  | cons t ts ih =>
    cases t with
    | param q => rfl
    | char c => rw [List.cons_append, leading, leading, ih]

/-! ## Each rule by itself -/

/-- An interpolation is a number sign with everything between braces behind it. -/
theorem interpolation_eq_some_iff {back : Option Token} {ts : List Token} {p : Parameter} {n : Nat} :
    interpolation back ts = some (p, n) ↔
      ∃ us m, ts = .char '#' :: .char '\x7b' :: us ∧ untilBrace us = some m ∧ p = .anything ∧ n = m + 3 := by
  constructor
  · intro h
    unfold interpolation at h
    split at h
    · obtain ⟨m, hm, heq⟩ := Option.map_eq_some_iff.1 h
      cases heq
      exact ⟨_, m, rfl, hm, rfl, rfl⟩
    · cases h
  · rintro ⟨us, m, rfl, hm, rfl, rfl⟩
    rw [interpolation, hm]
    rfl

/-- An interpolation in front of a space ends there, or it takes the space. -/
theorem interpolation_local : interpolation.Local where
  atGap _ _ := interpolation_eq_none (by decide)
  behindGap ts := Option.ext fun ⟨p, n⟩ => by rw [interpolation_eq_some_iff, interpolation_eq_some_iff]
  size_le h := by
    obtain ⟨us, m, rfl, hm, -, rfl⟩ := interpolation_eq_some_iff.1 h
    have := untilBrace_lt hm
    simp only [List.length_cons]
    omega
  keeps h vs := by
    obtain ⟨us, m, rfl, hm, rfl, rfl⟩ := interpolation_eq_some_iff.1 h
    exact interpolation_eq_some_iff.2 ⟨us ++ gap :: vs, m, rfl, (untilBrace_append us _).1 m hm, rfl, rfl⟩
  takes {back ts us p n} hnone h := by
    obtain ⟨vs, m, hts, hm, rfl, rfl⟩ := interpolation_eq_some_iff.1 h
    match ts, hts, hnone with
    | [], hts, _ => cases hts
    | [_], hts, _ => cases hts
    | _ :: _ :: ts, hts, hnone =>
      cases hts
      have hopen : untilBrace ts = none := by
        rw [interpolation] at hnone
        exact Option.map_eq_none_iff.1 hnone
      have := (untilBrace_append ts _).2 hopen m hm
      simp only [List.length_cons]
      omega

/-- A fixed parameter is its name in braces. -/
theorem fixedParameter_eq_some_iff {name : Text} {q : Parameter} {back : Option Token} {ts : List Token} {p : Parameter} {n : Nat} :
    fixedParameter name q back ts = some (p, n) ↔ (∃ us, ts = (braced name).map .char ++ us) ∧ p = q ∧ n = name.length + 2 := by
  unfold fixedParameter
  split
  · rename_i h
    obtain ⟨us, hus⟩ := List.isPrefixOf_iff_prefix.1 h
    constructor
    · intro heq
      cases heq
      exact ⟨⟨us, hus.symm⟩, rfl, rfl⟩
    · rintro ⟨-, rfl, rfl⟩
      rfl
  · rename_i h
    constructor
    · nofun
    · rintro ⟨⟨us, rfl⟩, -⟩
      exact absurd (List.isPrefixOf_iff_prefix.2 (List.prefix_append _ _)) h

/-- A fixed parameter in front of a space ends there, or it takes the space. -/
theorem fixedParameter_local (name : Text) (q : Parameter) : (fixedParameter name q).Local where
  atGap back ts := by
    rw [Option.eq_none_iff_forall_ne_some]
    rintro ⟨p, n⟩ h
    obtain ⟨⟨us, hus⟩, -⟩ := fixedParameter_eq_some_iff.1 h
    cases hus
  behindGap ts := rfl
  size_le h := by
    obtain ⟨⟨us, rfl⟩, -, rfl⟩ := fixedParameter_eq_some_iff.1 h
    simp [braced]
  keeps h vs := by
    obtain ⟨⟨us, rfl⟩, rfl, rfl⟩ := fixedParameter_eq_some_iff.1 h
    exact fixedParameter_eq_some_iff.2 ⟨⟨us ++ gap :: vs, List.append_assoc _ _ _⟩, rfl, rfl⟩
  takes {back ts us p n} hnone h := by
    obtain ⟨⟨vs, hvs⟩, rfl, rfl⟩ := fixedParameter_eq_some_iff.1 h
    by_contra hle
    have hprefix : (braced name).map Token.char <+: ts := by
      refine List.prefix_of_prefix_length_le ⟨vs, hvs.symm⟩ (List.prefix_append ts _) ?_
      simp [braced]
      omega
    obtain ⟨rest, hrest⟩ := hprefix
    rw [fixedParameter_eq_some_iff.2 ⟨⟨rest, hrest.symm⟩, rfl, rfl⟩] at hnone
    cases hnone

/-- Optional text is lower letters, at least one, in parentheses. -/
theorem optionalText_eq_some_iff {back : Option Token} {ts : List Token} {p : Parameter} {n : Nat} :
    optionalText back ts = some (p, n) ↔ ∃ us rest, ts = .char '(' :: us ∧ leading isLowerLetter us ≠ [] ∧
      us.drop (leading isLowerLetter us).length = .char ')' :: rest ∧ p = .optional (leading isLowerLetter us) ∧
      n = (leading isLowerLetter us).length + 2 := by
  constructor
  · intro h
    unfold optionalText at h
    split at h
    · rename_i us
      simp only at h
      split at h
      · rename_i hletters hrest
        cases h
        exact ⟨us, _, rfl, by rw [hletters]; exact List.cons_ne_nil _ _, hrest, rfl, rfl⟩
      · cases h
    · cases h
  · rintro ⟨us, rest, rfl, hne, hrest, rfl, rfl⟩
    obtain ⟨c, letters, hletters⟩ := List.exists_cons_of_ne_nil hne
    simp only [optionalText, hrest]
    rw [hletters]
    rfl

/-- Optional text holds no space, so that none is looked for beyond one. -/
theorem optionalText_local : optionalText.Local where
  atGap _ _ := optionalText_eq_none (by decide)
  behindGap ts := Option.ext fun ⟨p, n⟩ => by rw [optionalText_eq_some_iff, optionalText_eq_some_iff]
  size_le h := by
    obtain ⟨us, rest, rfl, -, hrest, -, rfl⟩ := optionalText_eq_some_iff.1 h
    have hlength := congrArg List.length hrest
    rw [List.length_drop, List.length_cons] at hlength
    rw [List.length_cons]
    omega
  keeps h vs := by
    obtain ⟨us, rest, rfl, hne, hrest, rfl, rfl⟩ := optionalText_eq_some_iff.1 h
    refine optionalText_eq_some_iff.2 ⟨us ++ gap :: vs, rest ++ gap :: vs, rfl, ?_, ?_, ?_, ?_⟩ <;>
      rw [leading_append_gap (by decide)]
    · exact hne
    · rw [List.drop_append_of_le_length (length_leading_le _ us), hrest]
      rfl
  takes {back ts us p n} hnone h := by
    obtain ⟨vs, rest, hts, hne, hrest, rfl, rfl⟩ := optionalText_eq_some_iff.1 h
    cases ts with
    | nil => cases hts
    | cons t ts =>
      rw [List.cons_append] at hts
      obtain ⟨rfl, rfl⟩ := List.cons.inj hts
      rw [leading_append_gap (by decide)] at hne hrest ⊢
      rw [List.drop_append_of_le_length (length_leading_le _ ts)] at hrest
      -- the closing parenthesis stands in front of the space, so that it is found without what follows
      cases hdrop : ts.drop (leading isLowerLetter ts).length with
      | nil =>
        rw [hdrop] at hrest
        cases hrest
      | cons d rest' =>
        rw [hdrop] at hrest
        cases hrest
        rw [optionalText_eq_some_iff.2 ⟨ts, rest', rfl, hne, hdrop, rfl, rfl⟩] at hnone
        cases hnone

/-- Alternative text ends at a space, whatever follows. -/
theorem alternativeText_local : alternativeText.Local where
  atGap _ _ := rfl
  behindGap _ := rfl
  size_le {back ts p n} h := by
    unfold alternativeText at h
    simp only at h
    split at h
    · cases h
      obtain ⟨rest, hrest⟩ := Text.join_takeWhile_splitOn '/' (!·.isEmpty) (leading (fun c => isLetter c || c == '/') ts)
      have hlength := congrArg List.length hrest
      rw [List.length_append] at hlength
      have := length_leading_le (fun c => isLetter c || c == '/') ts
      omega
    · cases h
  keeps {back ts p n} h us := by
    rw [← h]
    unfold alternativeText
    rw [leading_append_gap (by decide)]
  takes {back ts us p n} hnone h := by
    unfold alternativeText at hnone h
    rw [leading_append_gap (by decide), hnone] at h
    cases h

/-- A custom parameter is everything between braces that are not escaped and hold no count. -/
theorem customParameter_eq_some_iff {back : Option Token} {ts : List Token} {p : Parameter} {n : Nat} :
    customParameter back ts = some (p, n) ↔ ∃ us m, ts = .char '\x7b' :: us ∧ back ≠ some (.char '\\') ∧
      beginsCount (leading (fun _ => true) us) = false ∧ untilBrace us = some m ∧ p = .anything ∧ n = m + 2 := by
  constructor
  · intro h
    unfold customParameter at h
    split at h
    · split at h
      · cases h
      · rename_i hnot
        simp only [Bool.or_eq_true, decide_eq_true_eq, not_or, Bool.not_eq_true] at hnot
        obtain ⟨m, hm, heq⟩ := Option.map_eq_some_iff.1 h
        cases heq
        exact ⟨_, m, rfl, hnot.1, hnot.2, hm, rfl, rfl⟩
    · cases h
  · rintro ⟨us, m, rfl, hback, hcount, hm, rfl, rfl⟩
    rw [customParameter, if_neg (by simp [hback, hcount]), hm]
    rfl

/-- Whether a count begins is seen in the first token. -/
theorem beginsCount_leading_append {ts : List Token} (hne : ts ≠ []) (us : List Token) :
    beginsCount (leading (fun _ => true) (ts ++ us)) = beginsCount (leading (fun _ => true) ts) := by
  obtain ⟨t, ts, rfl⟩ := List.exists_cons_of_ne_nil hne
  cases t <;> rfl

/-- A name in braces in front of a space ends there, or it takes the space. -/
theorem customParameter_local : customParameter.Local where
  atGap _ _ := customParameter_eq_none (by decide)
  behindGap ts := Option.ext fun ⟨p, n⟩ => by
    rw [customParameter_eq_some_iff, customParameter_eq_some_iff]
    simp [gap]
  size_le h := by
    obtain ⟨us, m, rfl, -, -, hm, -, rfl⟩ := customParameter_eq_some_iff.1 h
    have := untilBrace_lt hm
    rw [List.length_cons]
    omega
  keeps h vs := by
    obtain ⟨us, m, rfl, hback, hcount, hm, rfl, rfl⟩ := customParameter_eq_some_iff.1 h
    have hne : us ≠ [] := by
      rintro rfl
      cases hm
    refine customParameter_eq_some_iff.2 ⟨us ++ gap :: vs, m, rfl, hback, ?_, (untilBrace_append us _).1 m hm, rfl, rfl⟩
    rw [beginsCount_leading_append hne, hcount]
  takes {back ts us p n} hnone h := by
    obtain ⟨vs, m, hts, hback, hcount, hm, rfl, rfl⟩ := customParameter_eq_some_iff.1 h
    cases ts with
    | nil => cases hts
    | cons t ts =>
      rw [List.cons_append] at hts
      obtain ⟨rfl, rfl⟩ := List.cons.inj hts
      rw [List.length_cons]
      by_cases hne : ts = []
      · subst hne
        rw [List.length_nil]
        omega
      · rw [beginsCount_leading_append hne] at hcount
        have hopen : untilBrace ts = none := by
          rw [Option.eq_none_iff_forall_ne_some]
          intro m' hm'
          rw [customParameter_eq_some_iff.2 ⟨ts, m', rfl, hback, hcount, hm', rfl, rfl⟩] at hnone
          cases hnone
        have := (untilBrace_append ts _).2 hopen m hm
        omega

/-- No rule looks beyond a space but for a parameter that takes it. -/
theorem rules_local : ∀ rule ∈ rules, rule.Local := by
  intro rule h
  simp only [rules, List.mem_cons, List.not_mem_nil, or_false] at h
  rcases h with rfl | rfl | rfl | rfl | rfl | rfl | rfl | rfl | rfl | rfl
  · exact interpolation_local
  · exact fixedParameter_local _ _
  · exact fixedParameter_local _ _
  · exact fixedParameter_local _ _
  · exact fixedParameter_local _ _
  · exact fixedParameter_local _ _
  · exact fixedParameter_local _ _
  · exact optionalText_local
  · exact alternativeText_local
  · exact customParameter_local

/-! ## All tokens -/

/-- Rewriting adds no spaces. -/
theorem count_rewriteFrom_le (rule : Rule) (ts : List Token) : ∀ back skip,
    (rewriteFrom rule back skip ts).count gap ≤ (ts.drop skip).count gap := by
  induction ts with
  | nil => intro back skip; simp [rewriteFrom]
  | cons t ts ih =>
    intro back skip
    cases skip with
    | succ skip => exact ih (some t) skip
    | zero =>
      rw [rewriteFrom, List.drop_zero]
      split
      · rename_i p size _
        have hrest := ih (some t) (size - 1)
        have hdrop := (List.drop_sublist (size - 1) ts).count_le gap
        have hcons := (List.sublist_cons_self t ts).count_le gap
        rw [List.count_cons_of_ne (by simp [gap])]
        omega
      · have hrest := ih (some t) 0
        rw [List.drop_zero] at hrest
        rw [List.count_cons, List.count_cons]
        omega

/-- Behind a space a rule is applied as at the beginning. -/
theorem rewriteFrom_behindGap {rule : Rule} (hr : rule.Local) (ts : List Token) :
    rewriteFrom rule (some gap) 0 ts = rewrite ts rule := by
  cases ts with
  | nil => rfl
  | cons t ts => rw [rewrite, rewriteFrom, rewriteFrom, hr.behindGap]

/-- A rule is applied in front of a space and behind it separately, or it takes the space. -/
theorem rewriteFrom_gap {rule : Rule} (hr : rule.Local) (ys xs : List Token) : ∀ back skip, skip ≤ xs.length →
    rewriteFrom rule back skip (xs ++ gap :: ys) = rewriteFrom rule back skip xs ++ gap :: rewrite ys rule ∨
    (rewriteFrom rule back skip (xs ++ gap :: ys)).count gap < ((xs ++ gap :: ys).drop skip).count gap := by
  induction xs with
  | nil =>
    intro back skip hskip
    obtain rfl : skip = 0 := Nat.le_zero.1 hskip
    have hgap : rewriteFrom rule back 0 (gap :: ys) = gap :: rewriteFrom rule (some gap) 0 ys := by rw [rewriteFrom, hr.atGap]
    left
    rw [List.nil_append, hgap, rewriteFrom_behindGap hr]
    rfl
  | cons x xs ih =>
    intro back skip hskip
    rw [List.length_cons] at hskip
    cases skip with
    | succ skip => exact ih (some x) skip (by omega)
    | zero =>
      rw [List.drop_zero]
      cases hfind : rule back (x :: xs) with
      | some found =>
        obtain ⟨p, size⟩ := found
        have hsize := hr.size_le hfind
        rw [List.length_cons] at hsize
        have hkept : rule back (x :: (xs ++ gap :: ys)) = some (p, size) := hr.keeps hfind ys
        rw [List.cons_append, rewriteFrom, rewriteFrom, hfind, hkept]
        rcases ih (some x) (size - 1) (by omega) with heq | hlt
        · exact .inl (by simp only [heq, List.cons_append])
        · right
          have hdrop := (List.drop_sublist (size - 1) (xs ++ gap :: ys)).count_le gap
          have hcons := (List.sublist_cons_self x (xs ++ gap :: ys)).count_le gap
          rw [List.count_cons_of_ne (by simp [gap])]
          omega
      | none =>
        rw [List.cons_append, rewriteFrom, rewriteFrom, hfind]
        cases hall : rule back (x :: (xs ++ gap :: ys)) with
        | none =>
          rcases ih (some x) 0 (Nat.zero_le _) with heq | hlt
          · exact .inl (by simp only [heq, List.cons_append])
          · right
            rw [List.drop_zero] at hlt
            rw [List.count_cons, List.count_cons]
            omega
        | some found =>
          -- a parameter that is found only with what follows the space has taken the space
          obtain ⟨p, size⟩ := found
          right
          have hsize : (x :: xs).length < size := hr.takes hfind hall
          rw [List.length_cons] at hsize
          have hbehind : (xs ++ gap :: ys).drop (size - 1) = ys.drop (size - 1 - xs.length - 1) := by
            rw [List.drop_append, List.drop_eq_nil_of_le (by omega), List.nil_append]
            obtain ⟨m, hm⟩ : ∃ m, size - 1 - xs.length = m + 1 := ⟨size - 1 - xs.length - 1, by omega⟩
            rw [hm]
            rfl
          have hrest := count_rewriteFrom_le rule (xs ++ gap :: ys) (some x) (size - 1)
          rw [hbehind] at hrest
          have hdrop := (List.drop_sublist (size - 1 - xs.length - 1) ys).count_le gap
          have hgap : (x :: (xs ++ gap :: ys)).count gap = (x :: xs).count gap + (ys.count gap + 1) := by
            rw [← List.cons_append, List.count_append, List.count_cons_self]
          rw [List.count_cons_of_ne (by simp [gap])]
          omega

/-- Rules, one after the other, add no spaces. -/
theorem count_foldl_rewrite_le (rs : List Rule) (ts : List Token) : (rs.foldl rewrite ts).count gap ≤ ts.count gap := by
  induction rs generalizing ts with
  | nil => exact Nat.le_refl _
  | cons rule rs ih =>
    rw [List.foldl_cons]
    exact (ih _).trans (count_rewriteFrom_le rule ts none 0)

/-- Rules are applied in front of a space and behind it separately, or one of them takes the space. -/
theorem foldl_rewrite_gap {rs : List Rule} (hr : ∀ rule ∈ rs, rule.Local) (xs ys : List Token) :
    rs.foldl rewrite (xs ++ gap :: ys) = rs.foldl rewrite xs ++ gap :: rs.foldl rewrite ys ∨
    (rs.foldl rewrite (xs ++ gap :: ys)).count gap < (xs ++ gap :: ys).count gap := by
  induction rs generalizing xs ys with
  | nil => exact .inl rfl
  | cons rule rs ih =>
    rw [List.forall_mem_cons] at hr
    rw [List.foldl_cons, List.foldl_cons, List.foldl_cons]
    have hle := count_rewriteFrom_le rule (xs ++ gap :: ys) none 0
    have hfold := count_foldl_rewrite_le rs (rewrite (xs ++ gap :: ys) rule)
    rw [List.drop_zero] at hle
    rcases rewriteFrom_gap hr.1 ys xs none 0 (Nat.zero_le _) with heq | hlt
    · have hsplit : rewrite (xs ++ gap :: ys) rule = rewrite xs rule ++ gap :: rewrite ys rule := heq
      rcases ih hr.2 (rewrite xs rule) (rewrite ys rule) with heq' | hlt'
      · exact .inl (by rw [hsplit, heq'])
      · rw [← hsplit] at hlt'
        exact .inr (lt_of_lt_of_le hlt' hle)
    · rw [List.drop_zero] at hlt
      exact .inr (lt_of_le_of_lt hfold hlt)

end Token

/-! ## Texts whose spaces stand outside of parameters -/

/-- No parameter of the text has a space inside: every space of the text is one of its tokens. -/
def SpacesApart (text : Text) : Prop := (tokens text).count (.char ' ') = text.count ' '

/-- The tokens of a text have no more spaces than the text. -/
theorem count_tokens_le (text : Text) : (tokens text).count Token.gap ≤ text.count ' ' := by
  refine (Token.count_foldl_rewrite_le Token.rules (text.map .char)).trans (Nat.le_of_eq ?_)
  exact List.count_map_of_injective text Token.char (fun _ _ h => Token.char.inj h) ' '

/-- A space of such a text divides its tokens, and what stands in front of it and behind it are such texts as well. -/
theorem SpacesApart.divide {u v : Text} (h : SpacesApart (u ++ ' ' :: v)) :
    tokens (u ++ ' ' :: v) = tokens u ++ Token.gap :: tokens v ∧ SpacesApart u ∧ SpacesApart v := by
  have hmap : (u ++ ' ' :: v).map Token.char = u.map .char ++ Token.gap :: v.map .char := by simp [Token.gap]
  have hcount : ((u ++ ' ' :: v).map Token.char).count Token.gap = (u ++ ' ' :: v).count ' ' :=
    List.count_map_of_injective _ Token.char (fun _ _ h => Token.char.inj h) ' '
  have htokens : tokens (u ++ ' ' :: v) = tokens u ++ Token.gap :: tokens v := by
    rcases Token.foldl_rewrite_gap Token.rules_local (u.map .char) (v.map .char) with heq | hlt
    · rw [tokens, hmap]
      exact heq
    · rw [← hmap, hcount] at hlt
      exact absurd h (Nat.ne_of_lt hlt)
  have hu := count_tokens_le u
  have hv := count_tokens_le v
  unfold SpacesApart at h ⊢
  rw [htokens, ← Token.gap, List.count_append, List.count_append, List.count_cons_self, List.count_cons_self] at h
  refine ⟨htokens, ?_, ?_⟩ <;> rw [← Token.gap] <;> omega

/-- The first parts of such a text, put together, are such a text. -/
theorem SpacesApart.of_join_append {xs ys : List Text} (hne : xs ≠ []) (h : SpacesApart (Text.join [' '] (xs ++ ys))) :
    SpacesApart (Text.join [' '] xs) := by
  by_cases hys : ys = []
  · rw [hys, List.append_nil] at h
    exact h
  · rw [Text.join_append_of_ne_nil hne hys] at h
    exact h.divide.2.1

/-! ## What parts stand for together -/

/-- Tokens on both sides of a space stand for texts with a space between them. -/
theorem spelling_append_gap (ts us : List Token) (w : Text) :
    Spelling (ts ++ Token.gap :: us) w ↔ ∃ a b, w = a ++ ' ' :: b ∧ Spelling ts a ∧ Spelling us b := by
  induction ts generalizing w with
  | nil =>
    rw [List.nil_append, spelling_cons]
    constructor
    · rintro ⟨_, b, rfl, rfl, hb⟩
      exact ⟨[], b, rfl, (spelling_nil []).2 rfl, hb⟩
    · rintro ⟨a, b, rfl, ha, hb⟩
      rw [(spelling_nil a).1 ha]
      exact ⟨[' '], b, rfl, rfl, hb⟩
  | cons t ts ih =>
    rw [List.cons_append, spelling_cons]
    constructor
    · rintro ⟨u, _, rfl, hu, hv⟩
      obtain ⟨a, b, rfl, ha, hb⟩ := (ih _).1 hv
      exact ⟨u ++ a, b, (List.append_assoc u a _).symm, (spelling_cons t ts _).2 ⟨u, a, rfl, hu, ha⟩, hb⟩
    · rintro ⟨_, b, rfl, ha, hb⟩
      obtain ⟨u, v, rfl, hu, hv⟩ := (spelling_cons t ts _).1 ha
      exact ⟨u, v ++ ' ' :: b, List.append_assoc u v _, hu, (ih _).2 ⟨v, b, rfl, hv, hb⟩⟩

/-- Parts with spaces between them stand for a word each, with spaces between the words. -/
theorem spelling_join {parts : List Text} (hne : parts ≠ []) (h : SpacesApart (Text.join [' '] parts)) (w : Text) :
    Spelling (tokens (Text.join [' '] parts)) w ↔
      ∃ ws, List.Forall₂ (fun part w => Spelling (tokens part) w) parts ws ∧ w = Text.join [' '] ws := by
  induction parts generalizing w with
  | nil => exact absurd rfl hne
  | cons part parts ih =>
    cases parts with
    | nil =>
      rw [Text.join_singleton]
      constructor
      · exact fun hw => ⟨[w], .cons hw .nil, (Text.join_singleton _ w).symm⟩
      · rintro ⟨ws, hws, rfl⟩
        cases hws with
        | cons hw hrest =>
          cases hrest
          rw [Text.join_singleton]
          exact hw
    | cons next parts =>
      rw [Text.join_cons (List.cons_ne_nil _ _), List.singleton_append] at h ⊢
      obtain ⟨htokens, -, hrest⟩ := h.divide
      rw [htokens, spelling_append_gap]
      constructor
      · rintro ⟨a, b, rfl, ha, hb⟩
        obtain ⟨ws, hws, rfl⟩ := (ih (List.cons_ne_nil _ _) hrest b).1 hb
        refine ⟨a :: ws, .cons ha hws, ?_⟩
        cases hws
        rw [Text.join_cons (List.cons_ne_nil _ _)]
        rfl
      · rintro ⟨ws, hws, rfl⟩
        cases hws with
        | @cons _ a _ ws ha hws =>
          refine ⟨a, Text.join [' '] ws, ?_, ha, (ih (List.cons_ne_nil _ _) hrest _).2 ⟨ws, hws, rfl⟩⟩
          cases hws
          rw [Text.join_cons (List.cons_ne_nil _ _)]
          rfl

end StepCatalog.Body
