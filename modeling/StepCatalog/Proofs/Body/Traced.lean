import StepCatalog.Proofs.Body.Joined

/-!
# Where parameters are written

The rules for parameters look at the text of a body, or at the tokens that earlier rules have left of it. Here is how each parameter is
written (`Written`), and that at every stage the tokens of a body stand for one stretch of it after the other, each parameter for a
stretch in which it is written (`traced_foldl_rewrite`). What one rule reads is said once for all tokens that it can meet
(`Rule.Reads`): of the tokens in front it looks only at whether the last one is a backslash, and no parameter ends with one.
-/

namespace StepCatalog.Body

open Text (of)

/-! ## How parameters are written -/

/-- The names that have a parameter of their own. -/
def fixedNames : List (Text × Parameter) := [
  (of "float", .float),
  (of "int", .int),
  (of "stringInDoubleQuotes", .doubleQuoted),
  (of "word", .word),
  (of "string", .quoted),
  ([], .anything)]

/-- How a parameter is written in a body, behind a character. -/
inductive Written (back : Option Char) : Parameter → Text → Prop
  | interpolation {v : Text} : '\n' ∉ v → Written back .anything ('#' :: braced v)
  | fixed {name : Text} {p : Parameter} : (name, p) ∈ fixedNames → Written back p (braced name)
  | optional {letters : Text} : (Parameter.optional letters).Valid → Written back (.optional letters) ('(' :: letters ++ [')'])
  | oneOf {words : List Text} : (Parameter.oneOf words).Valid → Written back (.oneOf words) (Text.join ['/'] words)
  | custom {v : Text} : '\n' ∉ v → back ≠ some '\\' → Written back .anything (braced v)

/-- The characters of alternatives with slashes between them. -/
theorem isLetter_of_mem_join {words : List Text} (h : (Parameter.oneOf words).Valid) {c : Char}
    (hc : c ∈ Text.join ['/'] words) : isLetter c = true ∨ c = '/' := by
  rcases Text.mem_join hc with hc | ⟨w, hw, hc⟩
  · exact .inr (List.mem_singleton.1 hc)
  · exact .inl ((h.2 w hw).2 c hc)

/-- Between two alternatives a slash stands between letters. -/
theorem slash_of_join {words : List Text} (h : (Parameter.oneOf words).Valid) :
    ∃ a b, isLetter a = true ∧ isLetter b = true ∧ [a, '/', b] <:+: Text.join ['/'] words := by
  obtain ⟨hlength, hwords⟩ := h
  match words, hlength with
  | first :: second :: rest, _ =>
    obtain ⟨hne, hfirst⟩ := hwords first (by simp)
    obtain ⟨hne', hsecond⟩ := hwords second (by simp)
    obtain ⟨u, a, rfl⟩ := (List.eq_nil_or_concat' first).resolve_left hne
    obtain ⟨b, v, rfl⟩ := List.exists_cons_of_ne_nil hne'
    obtain ⟨after, hafter⟩ := Text.join_append ['/'] [b :: v] rest
    rw [List.singleton_append, Text.join_singleton] at hafter
    refine ⟨a, b, hfirst a (by simp), hsecond b (by simp), u, v ++ after, ?_⟩
    rw [Text.join_cons (by simp), hafter]
    simp

/-- A text in which neither optional text nor alternatives are written. -/
structure Wordless (s : Text) : Prop where
  optional : ∀ letters, (Parameter.optional letters).Valid → ¬ '(' :: letters ++ [')'] <:+: s
  oneOf : ∀ a b, isLetter a = true → isLetter b = true → ¬ [a, '/', b] <:+: s

theorem Wordless.of_not_mem {s : Text} (hparen : '(' ∉ s) (hslash : '/' ∉ s) : Wordless s where
  optional _ _ hwithin := hparen (hwithin.subset (by simp))
  oneOf _ _ _ _ hwithin := hslash (hwithin.subset (by simp))

namespace Written

variable {back : Option Char} {p : Parameter} {u : Text}

/-- A parameter is written in braces, behind a backslash only with a fixed name in them, or with letters, slashes and parentheses. -/
theorem braces_or_letters (h : Written back p u) :
    (∃ v, '\n' ∉ v ∧ (u = '#' :: braced v ∨ u = braced v ∧ (back = some '\\' → (v, p) ∈ fixedNames))) ∨
      u ≠ [] ∧ ∀ c ∈ u, isLetter c = true ∨ c ∈ of "/()" := by
  cases h with
  | interpolation hv => exact .inl ⟨_, hv, .inl rfl⟩
  | fixed hname =>
    have hline : ∀ e ∈ fixedNames, '\n' ∉ e.1 := by decide
    exact .inl ⟨_, hline _ hname, .inr ⟨rfl, fun _ => hname⟩⟩
  | custom hv hback => exact .inl ⟨_, hv, .inr ⟨rfl, fun h => absurd h hback⟩⟩
  | optional hletters =>
    refine .inr ⟨by simp, fun c hc => ?_⟩
    rw [List.cons_append, List.mem_cons, List.mem_append, List.mem_singleton] at hc
    rcases hc with rfl | hc | rfl
    · exact .inr (by decide)
    · exact .inl (isLetter_of_isLowerLetter (hletters.2 c hc))
    · exact .inr (by decide)
  | oneOf hwords =>
    obtain ⟨a, b, -, -, hwithin⟩ := slash_of_join hwords
    refine .inr ⟨fun hnil => ?_, fun c hc => ?_⟩
    · rw [hnil, List.infix_nil] at hwithin
      cases hwithin
    · rcases isLetter_of_mem_join hwords hc with hc | rfl
      · exact .inl hc
      · exact .inr (by decide)

/-- No parameter begins with a backslash or a closing brace. -/
theorem head?_ne (h : Written back p u) {c : Char} (hc : c = '\\' ∨ c = '\x7d') : u.head? ≠ some c := by
  intro hhead
  rcases h.braces_or_letters with ⟨v, -, rfl | ⟨rfl, -⟩⟩ | ⟨-, hu⟩
  · rcases hc with rfl | rfl <;> cases hhead
  · rcases hc with rfl | rfl <;> cases hhead
  · have hmark := hu c (List.mem_of_head? hhead)
    rcases hc with rfl | rfl <;> exact absurd hmark (by decide)

/-- A parameter stands on one line. -/
theorem newline_not_mem (h : Written back p u) : '\n' ∉ u := by
  rcases h.braces_or_letters with ⟨v, hv, rfl | ⟨rfl, -⟩⟩ | ⟨-, hu⟩
  · simp [braced, hv]
  · simp [braced, hv]
  · exact fun hmem => absurd (hu _ hmem) (by decide)

theorem ne_nil (h : Written back p u) : u ≠ [] := by
  rcases h.braces_or_letters with ⟨v, -, rfl | ⟨rfl, -⟩⟩ | ⟨hne, -⟩
  · simp
  · simp [braced]
  · exact hne

theorem head?_of_begins (h : Written back p u) {c : Char} {s : Text} (hbegins : u <+: c :: s) : u.head? = some c := by
  obtain ⟨d, u, rfl⟩ := List.exists_cons_of_ne_nil h.ne_nil
  rw [(List.cons_prefix_cons.1 hbegins).1]
  rfl

/-- No parameter ends with a backslash. -/
theorem lastOf_ne (h : Written back p u) : lastOf back u ≠ some '\\' := by
  obtain ⟨v, c, rfl⟩ := (List.eq_nil_or_concat' u).resolve_left h.ne_nil
  have hlast : lastOf back (v ++ [c]) = some c := by simp [lastOf]
  rw [hlast, Ne, Option.some.injEq]
  rintro rfl
  rcases h.braces_or_letters with ⟨w, -, heq | ⟨heq, -⟩⟩ | ⟨-, hu⟩
  · simpa [braced, List.getLast?_cons] using congrArg List.getLast? heq
  · simpa [braced, List.getLast?_cons] using congrArg List.getLast? heq
  · exact absurd (hu '\\' (by simp)) (by decide)

/-- Only optional text and alternatives are written without braces. -/
theorem not_wordless (h : Written back p u) (hclose : '\x7d' ∉ u) {s : Text} (hwithin : u <:+: s) : ¬ Wordless s := by
  intro hwords
  cases h with
  | interpolation => exact hclose (by simp [braced])
  | fixed => exact hclose (by simp [braced])
  | custom => exact hclose (by simp [braced])
  | optional hletters => exact hwords.optional _ hletters hwithin
  | oneOf hvalid =>
    obtain ⟨a, b, ha, hb, hslash⟩ := slash_of_join hvalid
    exact hwords.oneOf a b ha hb (hslash.trans hwithin)

/-- Behind a backslash, a parameter that begins with a brace has a fixed name. -/
theorem fixed_of_escaped (h : Written (some '\\') p u) (hbrace : u.head? = some '\x7b') :
    ∃ name, (name, p) ∈ fixedNames ∧ u = braced name := by
  rcases h.braces_or_letters with ⟨v, -, rfl | ⟨rfl, hfixed⟩⟩ | ⟨-, hmarks⟩
  · cases hbrace
  · exact ⟨v, hfixed rfl, rfl⟩
  · exact absurd (hmarks _ (List.mem_of_head? hbrace)) (by decide)

end Written

/-! ## Tokens and the stretches they stand for -/

/-- Tokens stand for a text behind a character: a character for itself, a parameter for a stretch in which it is written. -/
inductive Traced : Option Char → List Token → Text → Prop
  | nil (back : Option Char) : Traced back [] []
  | char (back : Option Char) (c : Char) {ts : List Token} {s : Text} : Traced (some c) ts s → Traced back (.char c :: ts) (c :: s)
  | param {back : Option Char} {p : Parameter} {u : Text} {ts : List Token} {s : Text} :
    Written back p u → Traced (lastOf back u) ts s → Traced back (.param p :: ts) (u ++ s)

namespace Traced

variable {back : Option Char} {ts us : List Token} {s : Text}

theorem chars (s : Text) : ∀ back, Traced back (s.map .char) s := by
  induction s with
  | nil => exact .nil
  | cons c s ih => exact fun back => .char back c (ih (some c))

theorem char_cons {c : Char} (h : Traced back (.char c :: ts) s) : ∃ s', s = c :: s' ∧ Traced (some c) ts s' := by
  cases h with
  | char _ _ h => exact ⟨_, rfl, h⟩

/-- Tokens in two parts stand for two parts of the text. -/
theorem split (h : Traced back (ts ++ us) s) : ∃ u v, s = u ++ v ∧ Traced back ts u ∧ Traced (lastOf back u) us v := by
  induction ts generalizing back s with
  | nil => exact ⟨[], s, rfl, .nil back, h⟩
  | cons t ts ih =>
    cases h with
    | char _ c h =>
      obtain ⟨u, v, rfl, hu, hv⟩ := ih h
      exact ⟨c :: u, v, rfl, .char back c hu, by rw [lastOf_cons]; exact hv⟩
    | @param _ p w _ s hp h =>
      obtain ⟨u, v, rfl, hu, hv⟩ := ih h
      exact ⟨w ++ u, v, by rw [List.append_assoc], .param hp hu, by rw [lastOf_append]; exact hv⟩

/-- The stretch that a parameter stands for, between what stands in front of it and behind. -/
theorem split_param {p : Parameter} (h : Traced back (ts ++ .param p :: us) s) :
    ∃ u v w, s = u ++ (v ++ w) ∧ Traced back ts u ∧ Written (lastOf back u) p v ∧ Traced (lastOf (lastOf back u) v) us w := by
  obtain ⟨u, _, rfl, hu, hparam⟩ := h.split
  cases hparam with
  | @param _ _ v _ w hp hw => exact ⟨u, v, w, rfl, hu, hp, hw⟩

/-- Tokens without parameters are the characters of the text. -/
theorem eq_chars (h : Traced back ts s) (hts : ∀ p, .param p ∉ ts) : ts = s.map .char := by
  induction h with
  | nil => rfl
  | char back c h ih => rw [List.map_cons, ← ih fun p hp => hts p (List.mem_cons_of_mem _ hp)]
  | param hp h ih => exact absurd List.mem_cons_self (hts _)

/-- Characters stand for their text. -/
theorem eq_of_chars {u : Text} (h : Traced back (u.map .char) s) : s = u := by
  have hchars := h.eq_chars fun p hp => by simp at hp
  exact (List.map_injective_iff.2 (fun _ _ heq => by cases heq; rfl) hchars).symm

/-- The text ends in a backslash exactly if the tokens do. -/
theorem sameBack (h : Traced back ts s) {tback : Option Token} (hback : SameBack back tback) :
    SameBack (lastOf back s) (lastOf tback ts) := by
  induction h generalizing tback with
  | nil => exact hback
  | char back c h ih =>
    rw [lastOf_cons, lastOf_cons]
    exact ih (by simp [SameBack])
  | param hp h ih =>
    rw [lastOf_cons, lastOf_append]
    exact ih (by simp [SameBack, hp.lastOf_ne])

theorem newline_not_mem (h : Traced back ts s) (hts : .char '\n' ∉ ts) : '\n' ∉ s := by
  induction h with
  | nil => simp
  | char back c h ih =>
    rw [List.mem_cons, not_or] at hts ⊢
    exact ⟨fun hc => hts.1 (by rw [hc]), ih hts.2⟩
  | param hp h ih =>
    rw [List.mem_append, not_or]
    exact ⟨hp.newline_not_mem, ih fun hmem => hts (List.mem_cons_of_mem _ hmem)⟩

/-- Tokens that end with a character. -/
theorem concat {c : Char} (h : Traced back (ts ++ [.char c]) s) : ∃ v, s = v ++ [c] ∧ Traced back ts v := by
  obtain ⟨v, w, rfl, hv, hw⟩ := h.split
  exact ⟨v, by rw [eq_of_chars (u := [c]) hw], hv⟩

end Traced

/-! ## What the rules read -/

namespace Token

theorem untilBrace_eq_some {ts : List Token} {n : Nat} (h : untilBrace ts = some n) :
    ∃ us vs, ts = us ++ .char '\x7d' :: vs ∧ us.length = n ∧ .char '\n' ∉ us := by
  induction ts generalizing n with
  | nil => cases h
  | cons t ts ih =>
    have hnext (hne : t ≠ .char '\n') (h : (untilBrace ts).map (· + 1) = some n) :
        ∃ us vs, t :: ts = us ++ .char '\x7d' :: vs ∧ us.length = n ∧ .char '\n' ∉ us := by
      obtain ⟨m, hm, rfl⟩ := Option.map_eq_some_iff.1 h
      obtain ⟨us, vs, rfl, rfl, hline⟩ := ih hm
      exact ⟨t :: us, vs, rfl, rfl, by simp [hne.symm, hline]⟩
    cases t with
    | param q => exact hnext (by simp) h
    | char c =>
      unfold untilBrace at h
      split at h
      · rename_i hc
        cases h
        exact ⟨[], ts, by rw [hc]; rfl, rfl, by simp⟩
      · split at h
        · cases h
        · rename_i hc
          exact hnext (by simpa using hc) h

theorem leading_append_drop (p : Char → Bool) (ts : List Token) :
    (leading p ts).map .char ++ ts.drop (leading p ts).length = ts := by
  induction ts with
  | nil => rfl
  | cons t ts ih =>
    cases t with
    | param q => rfl
    | char c =>
      rw [leading]
      split
      · simpa using ih
      · rfl

/-- The tokens that a rule takes stand for a text in which the parameter that it finds is written. -/
def Rule.Reads (rule : Rule) : Prop :=
  ∀ {back : Option Char} {tback : Option Token} {us ts : List Token} {p : Parameter} {u : Text},
    SameBack back tback → rule tback (us ++ ts) = some (p, us.length) → Traced back us u → Written back p u

/-- Tokens between braces. -/
theorem eq_braced {us ts vs : List Token} {m : Nat} (hts : us ++ ts = .char '\x7b' :: vs) (hm : untilBrace vs = some m)
    (hlength : us.length = m + 2) {back : Option Char} {u : Text} (hu : Traced back us u) : ∃ v, '\n' ∉ v ∧ u = braced v := by
  obtain ⟨ws, rest, rfl, rfl, hline⟩ := untilBrace_eq_some hm
  have hsplit : us ++ ts = (.char '\x7b' :: (ws ++ [.char '\x7d'])) ++ rest := by rw [hts]; simp
  obtain rfl := List.append_inj_left hsplit (by rw [hlength]; simp)
  obtain ⟨w, rfl, hw⟩ := hu.char_cons
  obtain ⟨v, rfl, hv⟩ := hw.concat
  exact ⟨v, hv.newline_not_mem hline, rfl⟩

theorem interpolation_reads : interpolation.Reads := by
  intro back tback us ts p u _ h hu
  obtain ⟨vs, m, hts, hm, rfl, hlength⟩ := interpolation_eq_some_iff.1 h
  cases us with
  | nil => cases hlength
  | cons t us =>
    obtain ⟨rfl, hinside⟩ := List.cons.inj hts
    obtain ⟨w, rfl, hw⟩ := hu.char_cons
    obtain ⟨v, hv, rfl⟩ := eq_braced hinside hm (Nat.succ.inj hlength) hw
    exact .interpolation hv

theorem fixedParameter_reads {name : Text} {q : Parameter} (hname : (name, q) ∈ fixedNames) : (fixedParameter name q).Reads := by
  intro back tback us ts p u _ h hu
  obtain ⟨⟨ws, hts⟩, rfl, hlength⟩ := fixedParameter_eq_some_iff.1 h
  obtain rfl : us = (braced name).map .char := List.append_inj_left hts (by rw [hlength]; simp [braced])
  rw [hu.eq_of_chars]
  exact .fixed hname

theorem optionalText_reads : optionalText.Reads := by
  intro back tback us ts p u _ h hu
  have hvalid := optionalText_sound _ _ _ _ h
  obtain ⟨vs, rest, hts, -, hrest, rfl, hlength⟩ := optionalText_eq_some_iff.1 h
  have hvs := leading_append_drop isLowerLetter vs
  generalize leading isLowerLetter vs = letters at *
  have hsplit : us ++ ts = ('(' :: letters ++ [')']).map .char ++ rest := by
    rw [hts, ← hvs, hrest]
    simp
  obtain rfl := List.append_inj_left hsplit (by rw [hlength]; simp)
  rw [hu.eq_of_chars]
  exact .optional hvalid

theorem alternativeText_reads : alternativeText.Reads := by
  intro back tback us ts p u _ h hu
  have hvalid := alternativeText_sound _ _ _ _ h
  unfold alternativeText at h
  simp only at h
  split at h
  · have hts := leading_append_drop (fun c => isLetter c || c == '/') (us ++ ts)
    obtain ⟨rest, hrest⟩ := Text.join_takeWhile_splitOn '/' (!·.isEmpty) (leading (fun c => isLetter c || c == '/') (us ++ ts))
    generalize (Text.splitOn '/' (leading (fun c => isLetter c || c == '/') (us ++ ts))).takeWhile (!·.isEmpty) = words at *
    obtain ⟨rfl, hlength⟩ := Prod.mk.inj (Option.some.inj h)
    obtain rfl : us = (Text.join ['/'] words).map .char := by
      rw [hrest, List.map_append, List.append_assoc] at hts
      exact List.append_inj_left hts.symm (by rw [← hlength]; simp)
    rw [hu.eq_of_chars]
    exact .oneOf hvalid
  · cases h

theorem customParameter_reads : customParameter.Reads := by
  intro back tback us ts p u hback h hu
  obtain ⟨vs, m, hts, hescaped, -, hm, rfl, hlength⟩ := customParameter_eq_some_iff.1 h
  obtain ⟨v, hv, rfl⟩ := eq_braced hts hm hlength hu
  exact .custom hv fun h => hescaped (hback.1 h)

theorem rules_read : ∀ rule ∈ rules, rule.Reads := by
  intro rule h
  simp only [rules, List.mem_cons, List.not_mem_nil, or_false] at h
  rcases h with rfl | rfl | rfl | rfl | rfl | rfl | rfl | rfl | rfl | rfl
  · exact interpolation_reads
  · exact fixedParameter_reads (by decide)
  · exact fixedParameter_reads (by decide)
  · exact fixedParameter_reads (by decide)
  · exact fixedParameter_reads (by decide)
  · exact fixedParameter_reads (by decide)
  · exact fixedParameter_reads (by decide)
  · exact optionalText_reads
  · exact alternativeText_reads
  · exact customParameter_reads

/-- A rule makes parameters of stretches in which they are written. -/
theorem traced_rewriteFrom {rule : Rule} (hreads : rule.Reads) (hlocal : rule.Local) (size : Nat) :
    ∀ {ts : List Token} {s : Text} {back : Option Char} {tback : Option Token}, ts.length ≤ size → Traced back ts s →
      SameBack back tback → Traced back (rewriteFrom rule tback 0 ts) s := by
  induction size with
  | zero =>
    intro ts s back tback hsize h _
    obtain rfl : ts = [] := List.eq_nil_of_length_eq_zero (by omega)
    exact h
  | succ size ih =>
    intro ts s back tback hsize h hback
    cases ts with
    | nil => exact h
    | cons t ts =>
      rw [List.length_cons] at hsize
      rw [rewriteFrom]
      split
      · rename_i p n hfound
        -- the tokens that are taken, with the stretch that they stand for
        obtain ⟨us, rest, hts, rfl⟩ : ∃ us rest, t :: ts = us ++ rest ∧ us.length = n :=
          ⟨(t :: ts).take n, (t :: ts).drop n, (List.take_append_drop n _).symm,
            by rw [List.length_take]; exact Nat.min_eq_left (hlocal.size_le hfound)⟩
        rw [hts] at hfound h
        obtain ⟨u, v, rfl, hu, hv⟩ := h.split
        have hwritten := hreads hback hfound hu
        cases us with
        | nil =>
          cases hu
          exact absurd rfl hwritten.ne_nil
        | cons _ us =>
          rw [List.cons_append] at hts
          obtain ⟨rfl, rfl⟩ := List.cons.inj hts
          refine .param hwritten ?_
          have hsame := hu.sameBack hback
          rw [lastOf_cons] at hsame
          rw [List.length_cons, Nat.add_sub_cancel, rewriteFrom_skip]
          rw [List.length_append] at hsize
          exact ih (by omega) hv hsame
      · cases h with
        | char _ c h => exact .char back c (ih (by omega) h (by simp [SameBack]))
        | param hp h => exact .param hp (ih (by omega) h (by simp [SameBack, hp.lastOf_ne]))

/-- At every stage of the rules, the tokens of a body stand for one stretch of it after the other. -/
theorem traced_foldl_rewrite {rs : List Rule} (hrs : ∀ rule ∈ rs, rule ∈ rules) {ts : List Token} {body : Text}
    (h : Traced none ts body) : Traced none (rs.foldl rewrite ts) body := by
  induction rs generalizing ts with
  | nil => exact h
  | cons rule rs ih =>
    rw [List.forall_mem_cons] at hrs
    refine ih hrs.2 (traced_rewriteFrom (rules_read rule hrs.1) (rules_local rule hrs.1) _ (Nat.le_refl _) h ?_)
    simp [SameBack]

end Token

theorem traced_tokens (body : Text) : Traced none (tokens body) body :=
  Token.traced_foldl_rewrite (fun _ h => h) (Traced.chars body none)

end StepCatalog.Body
