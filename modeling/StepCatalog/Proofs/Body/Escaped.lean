import StepCatalog.Proofs.Body.Phrase
import StepCatalog.Proofs.Body.PureText
import StepCatalog.Proofs.Body.Slashes
import StepCatalog.Proofs.Body.Traced

/-!
# Braces behind a backslash

A brace directly behind a backslash begins no parameter of a free name, but the fixed names are read without a look at what stands in
front. So a body whose braces are all escaped has no parameters in braces but those with fixed names (`tokens_of_bracesEscaped`), and
an escaped brace in front of a free name stands for itself up to the closing brace, whatever parameters stand around it
(`Traced.escaped_name`).

Main statement: `escaped_brace_opens_fixed_names_only`.
-/

namespace StepCatalog.Body

open Text (of)

/-! ## Bodies whose braces are escaped -/

/-- Whether every opening brace of a text behind a character stands directly behind a backslash. -/
def bracesEscaped : Option Char → Text → Bool
  | _, [] => true
  | back, c :: s => (c != '\x7b' || back == some '\\') && bracesEscaped (some c) s

theorem bracesEscaped_append {back : Option Char} {u v : Text} :
    bracesEscaped back (u ++ v) = (bracesEscaped back u && bracesEscaped (lastOf back u) v) := by
  induction u generalizing back with
  | nil => rfl
  | cons c u ih => rw [List.cons_append, bracesEscaped, bracesEscaped, ih, Bool.and_assoc, lastOf_cons]

theorem eq_of_bracesEscaped {back : Option Char} {s : Text} (h : bracesEscaped back ('\x7b' :: s) = true) : back = some '\\' := by
  simpa using (Bool.and_eq_true_iff.1 h).1

/-- A body whose braces are all escaped, with no fixed name in them, has no parameters. -/
theorem tokens_of_bracesEscaped {body : Text} (hbraces : bracesEscaped none body = true)
    (hnames : ∀ e ∈ fixedNames, ¬ braced e.1 <:+: body) (hwords : Wordless body) : tokens body = body.map .char := by
  refine (traced_tokens body).eq_chars fun p hp => ?_
  obtain ⟨ts, us, hsplit⟩ := List.append_of_mem hp
  have htraced := traced_tokens body
  rw [hsplit] at htraced
  obtain ⟨u, w, s, rfl, -, hwritten, -⟩ := htraced.split_param
  have hwithin : w <:+: u ++ (w ++ s) := ⟨u, s, by rw [List.append_assoc]⟩
  rw [bracesEscaped_append, Bool.and_eq_true] at hbraces
  rcases hwritten.braces_or_letters with ⟨v, -, rfl | ⟨rfl, hfixed⟩⟩ | ⟨-, hmarks⟩
  · have hback := eq_of_bracesEscaped (Bool.and_eq_true_iff.1 hbraces.2).2
    cases hback
  · exact hnames _ (hfixed (eq_of_bracesEscaped hbraces.2)) hwithin
  · have hclose : '\x7d' ∉ w := fun hmem => absurd (hmarks _ hmem) (by decide)
    exact hwritten.not_wordless hclose hwithin hwords

/-- Where no unescaped brace stands in front of it, a backslash stands inside of no parameter. -/
theorem Written.not_backslash {back : Option Char} {p : Parameter} {u v : Text} (h : Written back p (u ++ '\\' :: v))
    (hu : bracesEscaped back u = true) : False := by
  rcases h.braces_or_letters with ⟨w, -, heq | ⟨heq, hfixed⟩⟩ | ⟨-, hmarks⟩
  · match u, hu, heq with
    | [], _, heq => cases heq
    | [_], _, heq => cases heq
    | c :: d :: u, hu, heq =>
      obtain ⟨rfl, hbraced⟩ := List.cons.inj heq
      obtain rfl : d = '\x7b' := (List.cons.inj hbraced).1
      have hback := eq_of_bracesEscaped (Bool.and_eq_true_iff.1 hu).2
      cases hback
  · cases u with
    | nil => cases heq
    | cons c u =>
      have hfree : ∀ e ∈ fixedNames, '\\' ∉ braced e.1 := by decide
      obtain rfl : c = '\x7b' := (List.cons.inj heq).1
      refine hfree _ (hfixed (eq_of_bracesEscaped hu)) ?_
      rw [← heq]
      simp
  · exact absurd (hmarks '\\' (by simp)) (by decide)

/-! ## Escaped braces next to parameters -/

/-- A name without braces that has no parameter of its own and in which no words are written. -/
structure FreeName (name : Text) : Prop where
  opening : '\x7b' ∉ name
  closing : '\x7d' ∉ name
  notFixed : ∀ e ∈ fixedNames, e.1 ≠ name
  wordless : Wordless name

/-- What begins a text without a closing brace ends in front of the first one. -/
theorem prefix_of_prefix_brace {u x v : Text} (hu : '\x7d' ∉ u) (h : u <+: x ++ '\x7d' :: v) : u <+: x := by
  rcases Nat.le_or_le u.length x.length with hle | hle
  · exact List.prefix_of_prefix_length_le h (List.prefix_append x _) hle
  · obtain ⟨w, rfl⟩ := List.prefix_of_prefix_length_le (List.prefix_append x _) h hle
    cases w with
    | nil => simp
    | cons c w =>
      obtain ⟨t, ht⟩ := h
      rw [List.append_assoc, List.append_cancel_left_eq] at ht
      obtain ⟨rfl, -⟩ := List.cons.inj ht
      exact absurd (by simp) hu

theorem eq_of_brace {x y u v : Text} (hx : '\x7d' ∉ x) (hy : '\x7d' ∉ y) (h : x ++ '\x7d' :: u = y ++ '\x7d' :: v) : x = y := by
  have hxy : x <+: y := prefix_of_prefix_brace hx ⟨_, h⟩
  have hyx : y <+: x := prefix_of_prefix_brace hy ⟨_, h.symm⟩
  exact hxy.eq_of_length_le hyx.length_le

namespace Traced

variable {back : Option Char} {ts : List Token}

/-- Where no parameter is written, the first token is the first character. -/
theorem char_of_not_written {c : Char} {s : Text} (h : Traced back ts (c :: s)) (hno : ∀ p u, Written back p u → ¬ u <+: c :: s) :
    ∃ us, ts = .char c :: us ∧ Traced (some c) us s := by
  generalize hs : c :: s = text at h
  cases h with
  | nil => cases hs
  | char _ d h =>
    obtain ⟨rfl, rfl⟩ := List.cons.inj hs
    exact ⟨_, rfl, h⟩
  | param hp h => exact absurd (hs ▸ List.prefix_append _ _) (hno _ _ hp)

/-- No parameter begins with a backslash or a closing brace. -/
theorem char_of_mark {c : Char} (hc : c = '\\' ∨ c = '\x7d') {s : Text} (h : Traced back ts (c :: s)) :
    ∃ us, ts = .char c :: us ∧ Traced (some c) us s :=
  h.char_of_not_written fun _ _ hu hbegins => hu.head?_ne hc (hu.head?_of_begins hbegins)

/-- Inside of braces, a name without braces in which no words are written stands for itself. -/
theorem chars_of_name {name v : Text} (hbrace : '\x7b' ∉ name) (hwords : Wordless name) (h : Traced back ts (name ++ '\x7d' :: v)) :
    ∃ us, ts = (name ++ ['\x7d']).map .char ++ us ∧ Traced (some '\x7d') us v := by
  have hrest : ∀ {rest : Text} {back : Option Char} {ts : List Token}, rest <:+ name → Traced back ts (rest ++ '\x7d' :: v) →
      ∃ us, ts = (rest ++ ['\x7d']).map .char ++ us ∧ Traced (some '\x7d') us v := by
    intro rest
    induction rest with
    | nil => exact fun _ h => h.char_of_mark (.inr rfl)
    | cons c rest ih =>
      intro back ts hsuffix h
      obtain ⟨us, rfl, hus⟩ := h.char_of_not_written fun p u hu hbegins => by
        rcases hu.braces_or_letters with ⟨w, -, rfl | ⟨rfl, -⟩⟩ | ⟨-, hmarks⟩
        · -- the brace behind the number sign would stand in the name, or close it
          have hnext := (List.cons_prefix_cons.1 hbegins).2
          cases rest with
          | nil => exact absurd (List.cons_prefix_cons.1 hnext).1 (by decide)
          | cons d rest =>
            obtain rfl := (List.cons_prefix_cons.1 hnext).1
            exact hbrace (hsuffix.subset (by simp))
        · obtain rfl := (List.cons_prefix_cons.1 hbegins).1
          exact hbrace (hsuffix.subset List.mem_cons_self)
        · have hclose : '\x7d' ∉ u := fun hmem => absurd (hmarks _ hmem) (by decide)
          have hinside : u <+: c :: rest := prefix_of_prefix_brace hclose hbegins
          exact hu.not_wordless hclose (hinside.isInfix.trans hsuffix.isInfix) hwords
      obtain ⟨us', rfl, hus'⟩ := ih ((List.suffix_cons c rest).trans hsuffix) hus
      exact ⟨us', rfl, hus'⟩
  exact hrest (List.suffix_refl name) h

/-- Up to its closing brace, an escaped brace in front of a free name stands for itself. -/
theorem escaped_name {name v : Text} (h : Traced back ts ('\\' :: (braced name ++ v))) (hname : FreeName name) :
    ∃ us, ts = ('\\' :: braced name).map .char ++ us ∧ Traced (some '\x7d') us v := by
  obtain ⟨_, rfl, hbrace⟩ := h.char_of_mark (.inl rfl)
  have hbraced : braced name ++ v = '\x7b' :: (name ++ '\x7d' :: v) := by simp [braced]
  rw [hbraced] at hbrace
  obtain ⟨_, rfl, hinside⟩ := hbrace.char_of_not_written fun p u hu hbegins => by
    have hfixed : ∀ e ∈ fixedNames, '\x7d' ∉ e.1 := by decide
    obtain ⟨fixed, hmem, rfl⟩ := hu.fixed_of_escaped (hu.head?_of_begins hbegins)
    obtain ⟨w, hw⟩ := hbegins
    have hsame : fixed ++ '\x7d' :: w = name ++ '\x7d' :: v := by simpa [braced] using hw
    exact hname.notFixed _ hmem (eq_of_brace (hfixed _ hmem) hname.closing hsame)
  obtain ⟨us, rfl, hus⟩ := hinside.chars_of_name hname.opening hname.wordless
  exact ⟨us, by simp [braced], hus⟩

/-- Tokens can be split in front of a backslash that no unescaped brace precedes. -/
theorem split_backslash {s u v : Text} (h : Traced back ts s) (hs : s = u ++ '\\' :: v) (hu : bracesEscaped back u = true) :
    ∃ ts₁ ts₂, ts = ts₁ ++ ts₂ ∧ Traced back ts₁ u ∧ Traced (lastOf back u) ts₂ ('\\' :: v) := by
  induction h generalizing u with
  | nil => simp at hs
  | @char back c ts s h ih =>
    cases u with
    | nil =>
      rw [List.nil_append] at hs
      exact ⟨[], _, rfl, .nil back, by rw [← hs]; exact .char back c h⟩
    | cons d u =>
      obtain ⟨rfl, rfl⟩ := List.cons.inj hs
      obtain ⟨ts₁, ts₂, rfl, h₁, h₂⟩ := ih rfl (Bool.and_eq_true_iff.1 hu).2
      exact ⟨.char c :: ts₁, ts₂, rfl, .char back c h₁, by rw [lastOf_cons]; exact h₂⟩
  | @param back p w ts s hp h ih =>
    -- the backslash cannot stand inside of the parameter
    have hbehind : ∃ rest, u = w ++ rest ∧ s = rest ++ '\\' :: v := by
      rcases List.append_eq_append_iff.1 hs with hrest | ⟨rest, rfl, hrest⟩
      · exact hrest
      · cases rest with
        | nil => exact ⟨[], by simp, hrest.symm⟩
        | cons c rest =>
          obtain rfl := (List.cons.inj hrest).1
          exact (hp.not_backslash hu).elim
    obtain ⟨rest, rfl, hrest⟩ := hbehind
    rw [bracesEscaped_append, Bool.and_eq_true] at hu
    obtain ⟨ts₁, ts₂, rfl, h₁, h₂⟩ := ih hrest hu.2
    exact ⟨.param p :: ts₁, ts₂, rfl, .param hp h₁, by rw [lastOf_append]; exact h₂⟩

end Traced

/-! ## What is written -/

theorem renderFrom_append (kind : Kind) (ts us : List Token) :
    ∀ back, ∃ front, renderFrom kind back (ts ++ us) = renderFrom kind back ts ++ renderFrom kind front us := by
  induction ts with
  | nil => exact fun back => ⟨back, rfl⟩
  | cons t ts ih =>
    intro back
    cases t with
    | char c =>
      obtain ⟨front, hfront⟩ := ih (some c)
      exact ⟨front, by rw [List.cons_append, renderFrom, renderFrom, hfront, List.append_assoc]⟩
    | param p =>
      obtain ⟨front, hfront⟩ := ih none
      exact ⟨front, by rw [List.cons_append, renderFrom, renderFrom, hfront, List.append_assoc]⟩

theorem renderFrom_chars_append (kind : Kind) (u : Text) (ts : List Token) :
    ∀ back, renderFrom kind back (u.map .char ++ ts) = kind.escapeFrom back u ++ renderFrom kind (lastOf back u) ts := by
  induction u with
  | nil => exact fun back => rfl
  | cons c u ih =>
    intro back
    rw [List.map_cons, List.cons_append, renderFrom, Kind.escapeFrom, ih, lastOf_cons, List.append_assoc]

theorem escapeSlashes_of_not_mem {s : Text} (h : '/' ∉ s) : escapeSlashes s = s :=
  calc escapeSlashes s = Kind.pattern.escapeFrom none s := Kind.escape_eq_escapeFrom .pattern s
    _ = renderFrom .pattern none (s.map .char) := (renderFrom_chars .pattern s none).symm
    _ = s := renderFrom_pattern_chars h none

/-- A body without parameters compiles as pure text, to a pattern that is found in the body alone, up to a final line feed. -/
theorem compile_of_tokens_eq {body : Text} (hnul : nul ∉ body) (htokens : tokens body = body.map .char) :
    ∃ c, compile .pureText body = .ok c ∧ ∀ s, c.full.occursIn s = true ↔ s = body ∨ s = body ++ ['\n'] := by
  obtain ⟨c, hc, -, hfull, -⟩ := compile_pureText hnul
  refine ⟨c, hc, fun s => (hfull s).trans ((exists_between_anchors_iff _ s).trans ?_)⟩
  simp only [htokens, spelling_chars, exists_eq_right]

theorem unanchored_eq_renderFrom (kind : Kind) {body : Text} (hnul : nul ∉ body) :
    unanchored kind body = .ok (renderFrom kind none (tokens body)) := by
  rw [unanchored_eq_render kind hnul, render_eq_renderFrom]

/-- A pattern keeps the anchors it has. -/
theorem source_eq_unanchored (anchored : Bool) (body : Text) : source .pattern anchored body = unanchored .pattern body := by
  unfold source
  cases unanchored .pattern body <;> rfl

/-- A body without parameters is written as it is, but for its slashes. -/
theorem source_of_tokens_eq {body : Text} (hnul : nul ∉ body) (htokens : tokens body = body.map .char) (anchored : Bool) :
    source .pattern anchored body = .ok (escapeSlashes body) := by
  rw [source_eq_unanchored, unanchored_eq_renderFrom .pattern hnul, htokens, renderFrom_chars, ← Kind.escape_eq_escapeFrom]
  rfl

/-- An escaped brace in front of a free name is written as it is, but for slashes in the name. -/
theorem source_of_escaped_name {body name v : Text} (hnul : nul ∉ body) {ts us : List Token} (htokens : tokens body = ts ++ us)
    {back : Option Char} (hus : Traced back us ('\\' :: (braced name ++ v))) (hname : FreeName name) :
    ∃ ws, us = ('\\' :: braced name).map .char ++ ws ∧ Traced (some '\x7d') ws v ∧
      ∀ anchored, source .pattern anchored body =
        .ok (renderFrom .pattern none ts ++ escapeSlashes ('\\' :: braced name) ++ renderFrom .pattern (some '\x7d') ws) := by
  obtain ⟨ws, rfl, hws⟩ := hus.escaped_name hname
  refine ⟨ws, rfl, hws, fun anchored => ?_⟩
  obtain ⟨front, hfront⟩ := renderFrom_append .pattern ts (('\\' :: braced name).map .char ++ ws) none
  have hescape : escapeSlashes ('\\' :: braced name) = Kind.pattern.escapeFrom front ('\\' :: braced name) :=
    Kind.escape_eq_escapeFrom .pattern _
  have hlast : lastOf front ('\\' :: braced name) = some '\x7d' := by simp [lastOf, braced, List.getLast?_cons]
  rw [source_eq_unanchored, unanchored_eq_renderFrom .pattern hnul, htokens, hfront, renderFrom_chars_append, hlast, hescape,
    List.append_assoc]

/-- A brace behind a backslash begins a parameter only if a fixed name stands in it, at every stage of the rules: each parameter is
written in a stretch of the body, and one that begins with an escaped brace is a fixed name in braces. A body whose braces are all
escaped, with no fixed name in them and no words, is found as pure text in itself alone, and as a pattern is written as it is. And as
a pattern, an escaped brace in front of a free name is written as it is next to any parameters, in each body whose tokens can be split
in front of it; they can if no unescaped brace precedes it. -/
theorem escaped_brace_opens_fixed_names_only (body : Text) (hnul : nul ∉ body) :
    (∀ kind, unanchored kind body = .ok (renderFrom kind none (tokens body))) ∧
    (∀ k ts p us, (Token.rules.take k).foldl Token.rewrite (body.map .char) = ts ++ .param p :: us →
      ∃ u v w, body = u ++ (v ++ w) ∧ Traced none ts u ∧ Written (lastOf none u) p v ∧ Traced (lastOf (lastOf none u) v) us w ∧
        (lastOf none u = some '\\' → v.head? = some '\x7b' → ∃ name, (name, p) ∈ fixedNames ∧ v = braced name)) ∧
    (bracesEscaped none body = true → (∀ e ∈ fixedNames, ¬ braced e.1 <:+: body) → Wordless body →
      (∃ c, compile .pureText body = .ok c ∧ ∀ s, c.full.occursIn s = true ↔ s = body ∨ s = body ++ ['\n']) ∧
      ∀ anchored, source .pattern anchored body = .ok (escapeSlashes body)) ∧
    ∀ name v, FreeName name →
      (∀ u, body = u ++ '\\' :: (braced name ++ v) → bracesEscaped none u = true →
        ∃ ts us, tokens body = ts ++ us ∧ Traced none ts u ∧ Traced (lastOf none u) us ('\\' :: (braced name ++ v))) ∧
      (∀ ts us back, tokens body = ts ++ us → Traced back us ('\\' :: (braced name ++ v)) →
        ∃ ws, us = ('\\' :: braced name).map .char ++ ws ∧ Traced (some '\x7d') ws v ∧
          ∀ anchored, source .pattern anchored body =
            .ok (renderFrom .pattern none ts ++ escapeSlashes ('\\' :: braced name) ++ renderFrom .pattern (some '\x7d') ws)) ∧
      ('/' ∉ name → escapeSlashes ('\\' :: braced name) = '\\' :: braced name) := by
  refine ⟨fun kind => unanchored_eq_renderFrom kind hnul, fun k ts p us hstage => ?_, fun hbraces hnames hwords => ?_,
    fun name v hname => ⟨fun u hbody hu => ?_, fun ts us back htokens hus => source_of_escaped_name hnul htokens hus hname,
      fun hslash => ?_⟩⟩
  · have htraced : Traced none ((Token.rules.take k).foldl Token.rewrite (body.map .char)) body :=
      Token.traced_foldl_rewrite (fun _ h => List.mem_of_mem_take h) (Traced.chars body none)
    rw [hstage] at htraced
    obtain ⟨u, v, w, hbody, hu, hv, hw⟩ := htraced.split_param
    refine ⟨u, v, w, hbody, hu, hv, hw, fun hback hbrace => ?_⟩
    rw [hback] at hv
    exact hv.fixed_of_escaped hbrace
  · have htokens := tokens_of_bracesEscaped hbraces hnames hwords
    exact ⟨compile_of_tokens_eq hnul htokens, source_of_tokens_eq hnul htokens⟩
  · exact (traced_tokens body).split_backslash hbody hu
  · exact escapeSlashes_of_not_mem (by simp [braced, hslash])

/-- With a free name in them, escaped braces stand for themselves, also behind escaped braces in which a fixed name stands. -/
theorem escaped_brace_opens_fixed_names_only_mixed :
    let body := of "I see \\\x7bname\x7d"
    let mixed := of "\\\x7bint\x7d \\\x7bname\x7d"
    (∃ c, compile .pureText body = .ok c ∧ ∀ s, c.full.occursIn s = true ↔ s = body ∨ s = body ++ ['\n']) ∧
    (∀ anchored, source .pattern anchored body = .ok body) ∧
    (∃ u v w, mixed = u ++ (v ++ w) ∧ Written (lastOf none u) .int v) ∧
    ∃ ts ws, tokens mixed = ts ++ (('\\' :: braced (of "name")).map .char ++ ws) ∧ Traced none ts (of "\\\x7bint\x7d ") ∧
      ∀ anchored, source .pattern anchored mixed =
        .ok (renderFrom .pattern none ts ++ '\\' :: braced (of "name") ++ renderFrom .pattern (some '\x7d') ws) := by
  intro body mixed
  obtain ⟨-, -, hescaped, -⟩ := escaped_brace_opens_fixed_names_only body (by decide)
  obtain ⟨hfull, hsource⟩ := hescaped (by decide) (by decide +kernel) (.of_not_mem (by decide) (by decide))
  refine ⟨hfull, fun anchored => (hsource anchored).trans (by decide +kernel), ?_⟩
  obtain ⟨-, hstage, -, hnames⟩ := escaped_brace_opens_fixed_names_only mixed (by decide)
  have hint : (Token.rules.take 10).foldl Token.rewrite (mixed.map .char) =
      [.char '\\'] ++ .param .int :: (of " \\\x7bname\x7d").map .char := by decide +kernel
  obtain ⟨u, v, w, hbody, -, hv, -⟩ := hstage 10 _ _ _ hint
  refine ⟨⟨u, v, w, hbody, hv⟩, ?_⟩
  have hname : FreeName (of "name") := ⟨by decide, by decide, by decide, .of_not_mem (by decide) (by decide)⟩
  obtain ⟨hsplit, hwritten, hslash⟩ := hnames (of "name") [] hname
  obtain ⟨ts, us, htokens, hts, hus⟩ := hsplit (of "\\\x7bint\x7d ") (by decide) (by decide)
  obtain ⟨ws, rfl, -, hsource⟩ := hwritten ts us _ htokens hus
  refine ⟨ts, ws, htokens, hts, fun anchored => ?_⟩
  rw [hsource anchored, hslash (by decide)]

/-- Behind a backslash, each fixed name in braces is a parameter all the same: the backslash is left in front of the expression of the
parameter, and the pure text is not found in itself. -/
theorem escaped_fixed_names_opened :
    (∀ e ∈ fixedNames, ∀ anchored, source .pattern anchored ('\\' :: braced e.1) = .ok ('\\' :: e.2.source)) ∧
    ∃ c, compile .pureText (of "\\\x7bint\x7d") = .ok c ∧ c.full.occursIn (of "\\\x7bint\x7d") = false ∧
      c.full.occursIn (of "\\5") = true := by
  refine ⟨by decide +kernel, ?_⟩
  have hfound : (compile .pureText (of "\\\x7bint\x7d")).toOption.map
      (fun c => (c.full.occursIn (of "\\\x7bint\x7d"), c.full.occursIn (of "\\5"))) = some (false, true) := by decide +kernel
  cases hc : compile .pureText (of "\\\x7bint\x7d") with
  | error e => simp [hc, Except.toOption] at hfound
  | ok c =>
    simp only [hc, Except.toOption, Option.map_some, Option.some.injEq, Prod.mk.injEq] at hfound
    exact ⟨c, rfl, hfound⟩

end StepCatalog.Body
