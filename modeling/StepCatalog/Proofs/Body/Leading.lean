import StepCatalog.Proofs.Body.Parts

/-!
# Leading runs

While a step is being typed, its text is accepted if it is a leading run of the parts of the body (`LeadingRun`): nothing at all, or
a text for each of the first parts with spaces between them, perhaps with one more space if a part is still to come. The leading
pattern is a chain in which every part and every space may be left out at the end of the text, and there only; so once one of them
is left out, all that follow are (`chain_closing`).

Main statement: `leading_occursIn_iff`.
-/

namespace StepCatalog.Body

open Regex
open Text (of)

/-! ## Runs of languages -/

/-- A text for each of the first languages, with spaces between them, perhaps with a space at the end; or nothing. -/
def Run : List (Text → Prop) → Text → Prop
  | [], w => w = []
  | [K], w => w = [] ∨ K w
  | K :: Ks, w => w = [] ∨ K w ∨ ∃ u v, w = u ++ ' ' :: v ∧ K u ∧ Run Ks v

theorem run_nil (Ks : List (Text → Prop)) : Run Ks [] :=
  match Ks with
  | [] => rfl
  | [_] => Or.inl rfl
  | _ :: _ :: _ => Or.inl rfl

/-- The spans of languages of which the last one must reach the end of the text. -/
def closing : List (Text → Prop) → List Span
  | [] => []
  | [K] => [fun _ w after => K w ∧ (after = [] ∨ after = ['\n'])]
  | K :: Ks => (fun _ w _ => K w) :: closing Ks

theorem closing_ne_nil {Ks : List (Text → Prop)} (h : Ks ≠ []) : closing Ks ≠ [] :=
  match Ks, h with
  | [_], _ => List.cons_ne_nil _ _
  | _ :: _ :: _, _ => List.cons_ne_nil _ _

/-- On one line, a chain takes the runs that reach the end of the text. -/
theorem chain_closing {Ks : List (Text → Prop)} (hne : Ks ≠ []) {before w after : Text} (hline : '\n' ∉ w ++ after) :
    chain (closing Ks) before w after ↔ after = [] ∧ Run Ks w := by
  induction Ks generalizing before w with
  | nil => exact absurd rfl hne
  | cons K Ks ih =>
    have hstop : after = [] ∨ after = ['\n'] ↔ after = [] := by
      refine ⟨?_, Or.inl⟩
      rintro (h | h)
      · exact h
      · exact absurd (by rw [h]; simp) hline
    cases Ks with
    | nil =>
      simp only [closing, chain, Span.or, Span.stop, Run, hstop]
      constructor
      · rintro (⟨hK, h⟩ | ⟨hw, h⟩)
        · exact ⟨h, Or.inr hK⟩
        · exact ⟨h, Or.inl hw⟩
      · rintro ⟨h, hw | hK⟩
        · exact Or.inr ⟨hw, h⟩
        · exact Or.inl ⟨hK, h⟩
    | cons K' Ks =>
      have hchain : chain (closing (K :: K' :: Ks)) = Span.seq (Span.or (fun _ w _ => K w) Span.stop)
          (Span.seq gap (chain (closing (K' :: Ks)))) := by
        cases Ks <;> rfl
      rw [hchain]
      constructor
      · rintro ⟨u, _, rfl, hu, x, y, rfl, hx, hy⟩
        simp only [List.mem_append, not_or] at hline
        obtain ⟨rfl, hrun⟩ := (ih (List.cons_ne_nil _ _) (by simp [hline])).1 hy
        refine ⟨rfl, ?_⟩
        rcases hu with hK | ⟨rfl, hend⟩
        · rcases hx with rfl | ⟨rfl, hend⟩
          · exact Or.inr (Or.inr ⟨u, y, rfl, hK, hrun⟩)
          · -- the end of the text is reached: nothing more is taken
            rcases hend with hend | hend
            · obtain rfl : y = [] := by simpa using hend
              exact Or.inr (Or.inl (by simpa using hK))
            · exact absurd (by rw [List.append_nil] at hend; rw [hend]; simp) hline.1.2.2
        · rcases hend with hend | hend
          · simp only [List.append_nil, List.append_eq_nil_iff] at hend
            rw [hend.1, hend.2]
            exact Or.inl rfl
          · have hmem : '\n' ∈ x ++ y := by
              rw [List.append_nil] at hend
              rw [hend]
              simp
            simp [hline] at hmem
      · rintro ⟨rfl, hrun⟩
        have hrest : ∀ before, chain (closing (K' :: Ks)) before [] [] :=
          fun before => (ih (List.cons_ne_nil _ _) (by simp)).2 ⟨rfl, run_nil _⟩
        have hgap : ∀ before, Span.seq gap (chain (closing (K' :: Ks))) before [] [] :=
          fun before => ⟨[], [], rfl, Or.inr ⟨rfl, Or.inl rfl⟩, hrest _⟩
        rcases hrun with rfl | hK | ⟨u, v, rfl, hK, hrun⟩
        · exact ⟨[], [], rfl, Or.inr ⟨rfl, Or.inl rfl⟩, hgap _⟩
        · exact ⟨w, [], (List.append_nil w).symm, Or.inl hK, hgap _⟩
        · refine ⟨u, ' ' :: v, rfl, Or.inl hK, [' '], v, rfl, Or.inl rfl, ?_⟩
          refine (ih (List.cons_ne_nil _ _) ?_).2 ⟨rfl, hrun⟩
          intro hmem
          exact hline (by simp at hmem ⊢; exact Or.inr hmem)

/-! ## The parts of tokens -/

/-- What each part of the tokens stands for; a space ends a part. -/
def partLanguages : List Token → List (Text → Prop)
  | [] => [fun w => w = []]
  | t :: ts =>
    if t = .char ' ' then (fun w => w = []) :: partLanguages ts
    else
      match partLanguages ts with
      | [] => []
      | K :: Ks => (fun w => ∃ u v, w = u ++ v ∧ t.Denotes u ∧ K v) :: Ks

theorem partLanguages_ne_nil (ts : List Token) : partLanguages ts ≠ [] := by
  induction ts with
  | nil => exact List.cons_ne_nil _ _
  | cons t ts ih =>
    unfold partLanguages
    split
    · exact List.cons_ne_nil _ _
    · split
      · rename_i h
        exact absurd h ih
      · exact List.cons_ne_nil _ _

/-- The regular expression of a parameter is cut nowhere. -/
theorem Parameter.passes {p : Parameter} (h : p.Valid) : Passes 0 p.source := by
  have hletter : ∀ c, isLetter c = true → c ≠ '\\' ∧ c ≠ '(' ∧ c ≠ ')' ∧ (c = ' ' → 1 ≠ 0) := by
    intro c hc
    refine ⟨?_, ?_, ?_, fun _ => by decide⟩ <;> (rintro rfl; exact absurd hc (by decide))
  cases p with
  | anything => exact fun s => rfl
  | float => exact fun s => rfl
  | int => exact fun s => rfl
  | doubleQuoted => exact fun s => rfl
  | word => exact fun s => rfl
  | quoted => exact fun s => rfl
  | optional letters =>
    rw [show Parameter.source (.optional letters) = ('(' :: letters ++ [')']) ++ ['?'] by
      rw [List.append_assoc]
      rfl]
    have hinside : Passes 1 letters := passes_chars fun c hc => hletter c (isLetter_of_isLowerLetter (h.2 c hc))
    exact hinside.group.append (passes_char (by decide) (by decide) (by decide) (by decide))
  | oneOf words =>
    refine Passes.group (passes_chars fun c hc => ?_)
    rcases Text.mem_join hc with hbar | ⟨w, hw, hc⟩
    · rw [List.mem_singleton] at hbar
      subst hbar
      decide
    · exact hletter c ((h.2 w hw).2 c hc)

/-- The regular expression of a token is cut nowhere, unless the token is a space. -/
theorem Token.passes {t : Token} (h : ∀ p, t = .param p → p.Valid) (hspace : t ≠ .char ' ') : Passes 0 t.source := by
  cases t with
  | param p => exact p.passes (h p rfl)
  | char c =>
    simp only [Token.source]
    split
    · exact passes_escaped 0 c
    · rename_i hs
      refine passes_char ?_ ?_ ?_ ?_
      · rintro rfl
        exact hs (by decide)
      · rintro rfl
        exact hs (by decide)
      · rintro rfl
        exact hs (by decide)
      · rintro rfl
        exact absurd rfl hspace

/-- The parts of the regular expression of tokens write what the parts of the tokens stand for. -/
theorem divides_tokens {ts : List Token} (h : Token.AllValid ts) :
    Divides (ts.flatMap Token.source ++ ['$']) (closing (partLanguages ts)) := by
  induction ts with
  | nil =>
    have hpass : Passes 0 ['$'] := fun s => rfl
    show Divides (['$'] ++ []) _
    refine Divides.push hpass writes_stop (by decide) divides_nil fun before w after => ?_
    exact seq_nil_right _ _ _ _
  | cons t ts ih =>
    have hts := ih fun p hp => h p (List.mem_cons_of_mem _ hp)
    have hparam : ∀ p, t = .param p → p.Valid := fun p hp => h p (by rw [hp]; simp)
    obtain ⟨K, Ks, hKs⟩ := List.exists_cons_of_ne_nil (partLanguages_ne_nil ts)
    rw [List.flatMap_cons, List.append_assoc]
    unfold partLanguages
    split
    · rename_i hspace
      subst hspace
      rw [hKs] at hts ⊢
      exact hts.space
    · rename_i hspace
      rw [hKs] at hts ⊢
      -- only the last part looks at what follows it
      cases Ks with
      | nil =>
        refine Divides.push (Token.passes hparam hspace) (Token.writes hparam) t.fresh.2 hts fun before w after => ?_
        constructor
        · rintro ⟨u, v, rfl, hu, hv, hend⟩
          exact ⟨⟨u, v, rfl, hu, hv⟩, hend⟩
        · rintro ⟨⟨u, v, rfl, hu, hv⟩, hend⟩
          exact ⟨u, v, rfl, hu, hv, hend⟩
      | cons K' Ks =>
        exact Divides.push (Token.passes hparam hspace) (Token.writes hparam) t.fresh.2 hts fun before w after => Iff.rfl

/-! ## Runs of the parts -/

/-- Whether the pattern takes a text as a whole. -/
def Pattern.takesAll (p : Pattern) (s : Text) : Bool :=
  (p.node.run ⟨[], s, []⟩ fun place => if place.after.isEmpty then some place else none).isSome

theorem takesAll_iff {p : Pattern} (hp : p.node.Regular) (s : Text) : p.takesAll s = true ↔ p.node.Takes [] s [] := by
  unfold Pattern.takesAll
  have hblind : GroupBlind fun place => if place.after.isEmpty then some place else none := by
    intro before after groups groups'
    cases after <;> rfl
  rw [finds_run p.node hp _ _ hblind]
  constructor
  · rintro ⟨w, after, he, ht, hend⟩
    cases after with
    | nil =>
      rw [List.append_nil] at he
      obtain rfl : s = w := he
      exact ht
    | cons c after => cases hend
  · intro ht
    exact ⟨s, [], (List.append_nil s).symm, ht, rfl⟩

/-- The part is a regular expression that takes the word as a whole. -/
def Spells (part word : Text) : Prop := ∃ p, Pattern.ofText? part = .ok p ∧ p.takesAll word = true

theorem spells_iff {part : Text} {L : Span} (h : Writes part L) (word : Text) : Spells part word ↔ L [] word [] := by
  obtain ⟨p, hp, hr, ht⟩ := pattern_of_writesChoice h.choice
  constructor
  · rintro ⟨q, hq, hw⟩
    rw [hp] at hq
    obtain rfl : p = q := Except.ok.inj hq
    exact (ht _ _ _).1 ((takesAll_iff hr word).1 hw)
  · intro hL
    exact ⟨p, hp, (takesAll_iff hr word).2 ((ht _ _ _).2 hL)⟩

/-- Nothing at all, or a word for each of the first parts, at least one, with single spaces between them, and perhaps one more space
if a part is left. -/
def LeadingRun (parts : List Text) (s : Text) : Prop :=
  s = [] ∨ ∃ k words, 1 ≤ k ∧ k ≤ parts.length ∧ List.Forall₂ Spells (parts.take k) words ∧
    (s = Text.join [' '] words ∨ k < parts.length ∧ s = Text.join [' '] words ++ [' '])

/-- The leading runs of a single part. -/
theorem leadingRun_singleton (part s : Text) : LeadingRun [part] s ↔ s = [] ∨ Spells part s := by
  constructor
  · rintro (rfl | ⟨k, words, hk, hle, hwords, hs⟩)
    · exact Or.inl rfl
    · obtain rfl : k = 1 := by
        rw [List.length_singleton] at hle
        omega
      cases hwords with
      | cons hw hrest =>
        cases hrest
        rcases hs with rfl | ⟨hlt, _⟩
        · exact Or.inr (by rw [Text.join_singleton]; exact hw)
        · exact absurd hlt (Nat.lt_irrefl _)
  · rintro (rfl | hs)
    · exact Or.inl rfl
    · exact Or.inr ⟨1, [s], Nat.le_refl _, Nat.le_refl _, .cons hs .nil, Or.inl (Text.join_singleton _ _).symm⟩

/-- A leading run of several parts is empty, stops in the first part, or goes on behind a space with a leading run of the others:
the empty one stands for the space at the end. -/
theorem leadingRun_cons (part next : Text) (rest : List Text) (s : Text) :
    LeadingRun (part :: next :: rest) s ↔
      s = [] ∨ Spells part s ∨ ∃ u v, s = u ++ ' ' :: v ∧ Spells part u ∧ LeadingRun (next :: rest) v := by
  constructor
  · rintro (rfl | ⟨k, words, hk, hle, hwords, hs⟩)
    · exact Or.inl rfl
    · right
      obtain ⟨j, rfl⟩ : ∃ j, k = j + 1 := ⟨k - 1, by omega⟩
      cases hwords with
      | @cons _ u _ words hu hwords =>
        cases words with
        | nil =>
          rw [Text.join_singleton] at hs
          rcases hs with rfl | ⟨_, rfl⟩
          · exact Or.inl hu
          · exact Or.inr ⟨u, [], rfl, hu, Or.inl rfl⟩
        | cons word words =>
          rw [Text.join_cons (List.cons_ne_nil _ _)] at hs
          have hj : 1 ≤ j := by
            have hlen := hwords.length_eq
            simp only [List.length_take, List.length_cons] at hlen
            omega
          have hle : j ≤ (next :: rest).length := by simpa using hle
          right
          rcases hs with rfl | ⟨hlt, rfl⟩
          · exact ⟨u, _, rfl, hu, Or.inr ⟨j, _, hj, hle, hwords, Or.inl rfl⟩⟩
          · refine ⟨u, Text.join [' '] (word :: words) ++ [' '], by simp, hu, Or.inr ?_⟩
            exact ⟨j, _, hj, hle, hwords, Or.inr ⟨by simpa using hlt, rfl⟩⟩
  · rintro (rfl | hs | ⟨u, v, rfl, hu, rfl | ⟨k, words, hk, hle, hwords, hv⟩⟩)
    · exact Or.inl rfl
    · exact Or.inr ⟨1, [s], Nat.le_refl _, by simp, .cons hs .nil, Or.inl (Text.join_singleton _ _).symm⟩
    · exact Or.inr ⟨1, [u], Nat.le_refl _, by simp, .cons hu .nil, Or.inr ⟨by simp, by rw [Text.join_singleton]⟩⟩
    · have hne : words ≠ [] := by
        rintro rfl
        have hlen := hwords.length_eq
        rw [List.length_take, List.length_nil] at hlen
        omega
      refine Or.inr ⟨k + 1, u :: words, by omega, by simpa using hle, .cons hu hwords, ?_⟩
      rw [Text.join_cons hne]
      rcases hv with rfl | ⟨hlt, rfl⟩
      · exact Or.inl rfl
      · exact Or.inr ⟨by simpa using hlt, by simp⟩

/-- Leading runs are the runs of what the parts spell. -/
theorem run_iff_leadingRun {parts : List Text} (hne : parts ≠ []) (s : Text) :
    Run (parts.map Spells) s ↔ LeadingRun parts s := by
  induction parts generalizing s with
  | nil => exact absurd rfl hne
  | cons part parts ih =>
    cases parts with
    | nil => exact (leadingRun_singleton part s).symm
    | cons next rest =>
      rw [leadingRun_cons]
      simp only [← ih (List.cons_ne_nil _ _)]
      exact Iff.rfl

/-! ## The leading pattern of pure text -/

/-- The regular expression of pure text, from its tokens. -/
theorem source_pureText {body : Text} (h : nul ∉ body) :
    source .pureText true body = .ok ('^' :: ((tokens body).flatMap Token.source ++ ['$'])) := by
  unfold source
  rw [unanchored_eq_render .pureText h, render_pureText]
  rfl

/-- The spans of parts of which the first one must begin at the beginning of the text. -/
def opening : List Span → List Span
  | [] => []
  | L :: Ls => Span.seq Span.start L :: Ls

/-- At the beginning of the text, a chain takes what it takes without the demand to begin there. -/
theorem chain_opening (Ls : List Span) (w after : Text) : chain (opening Ls) [] w after ↔ chain Ls [] w after := by
  cases Ls with
  | nil => exact Iff.rfl
  | cons L Ls =>
    have hway : ∀ w after, Span.or (Span.seq Span.start L) Span.stop [] w after ↔ Span.or L Span.stop [] w after := by
      intro w after
      unfold Span.or
      rw [seq_start_iff, eq_self_iff_true, true_and]
    cases Ls with
    | nil => exact hway w after
    | cons M Ms =>
      constructor
      · rintro ⟨u, v, rfl, hu, hrest⟩
        exact ⟨u, v, rfl, (hway _ _).1 hu, hrest⟩
      · rintro ⟨u, v, rfl, hu, hrest⟩
        exact ⟨u, v, rfl, (hway _ _).2 hu, hrest⟩

/-- The parts of the regular expression of pure text. -/
theorem divides_pureText {ts : List Token} (h : Token.AllValid ts) :
    Divides ('^' :: (ts.flatMap Token.source ++ ['$'])) (opening (closing (partLanguages ts))) := by
  have hparts := divides_tokens h
  obtain ⟨L, Ls, hLs⟩ := List.exists_cons_of_ne_nil (closing_ne_nil (partLanguages_ne_nil ts))
  rw [hLs] at hparts ⊢
  have hpass : Passes 0 ['^'] := fun s => rfl
  exact Divides.push hpass writes_start (by decide) hparts fun _ _ _ => Iff.rfl

/-- The regular expression of pure text takes what its tokens stand for, from the beginning of the text to its end. -/
theorem writes_pureText {ts : List Token} (h : Token.AllValid ts) :
    Writes ('^' :: (ts.flatMap Token.source ++ ['$']))
      (Span.seq Span.start (Span.seq (fun _ w _ => Spelling ts w) Span.stop)) := by
  have hend := (writes_tokens h).append writes_stop (by decide)
  exact writes_start.append hend ((fresh_tokens _).append (by decide))

/-- Pure text compiles, and its leading pattern takes the runs of what its parts stand for. -/
theorem compile_pureText {body : Text} (h : nul ∉ body) :
    ∃ c, compile .pureText body = .ok c ∧ c.fellBack = false ∧
      c.full.Finds (Span.seq Span.start (Span.seq (fun _ w _ => Spelling (tokens body) w) Span.stop)) ∧
      ∀ s, '\n' ∉ s → (c.leading.occursIn s = true ↔ Run (partLanguages (tokens body)) s) := by
  have hsource := source_pureText h
  have hvalid := tokens_valid body
  generalize tokens body = ts at hsource hvalid ⊢
  obtain ⟨c, hc, hback, hfull, hleading⟩ :=
    compile_of_writes hsource (writes_pureText hvalid).choice (divides_pureText hvalid)
  refine ⟨c, hc, hback, hfull, fun s hs => ?_⟩
  rw [hleading s]
  simp only [seq_start_iff, List.reverse_eq_nil_iff, chain_opening]
  constructor
  · rintro ⟨pre, w, after, rfl, rfl, hchain⟩
    rw [List.nil_append] at hs ⊢
    obtain ⟨rfl, hrun⟩ := (chain_closing (partLanguages_ne_nil _) hs).1 hchain
    rw [List.append_nil]
    exact hrun
  · intro hrun
    refine ⟨[], s, [], by simp, rfl, ?_⟩
    exact (chain_closing (partLanguages_ne_nil _) (by simpa using hs)).2 ⟨rfl, hrun⟩

/-- A part on its own takes what it takes at both ends of the text. -/
theorem Divides.map_spells {s : Text} {Ls : List Span} (h : Divides s Ls) :
    (splitParts s).map Spells = Ls.map fun L word => L [] word [] := by
  unfold Divides at h
  generalize splitParts s = parts at h ⊢
  induction h with
  | nil => rfl
  | cons hpart _ ih =>
    rw [List.map_cons, List.map_cons, ih]
    congr 1
    funext word
    exact propext (spells_iff hpart.1 word)

theorem opening_closing_languages (Ks : List (Text → Prop)) :
    (opening (closing Ks)).map (fun L word => L [] word []) = Ks := by
  have hopening : ∀ Ls : List Span, (opening Ls).map (fun L word => L [] word []) = Ls.map fun L word => L [] word [] := by
    intro Ls
    cases Ls with
    | nil => rfl
    | cons L Ls => simp only [opening, List.map_cons, seq_start_iff, true_and]
  rw [hopening]
  induction Ks with
  | nil => rfl
  | cons K Ks ih =>
    cases Ks with
    | nil => simp [closing]
    | cons K' Ks =>
      show K :: (closing (K' :: Ks)).map _ = _
      rw [ih]

/-- The leading pattern of pure text is found in just those texts of one line that are leading runs of its parts. -/
theorem leading_occursIn_iff (body : Text) (h : nul ∉ body) :
    ∃ c src, compile .pureText body = .ok c ∧ c.fellBack = false ∧ source .pureText true body = .ok src ∧
      ∀ s, '\n' ∉ s → (c.leading.occursIn s = true ↔ LeadingRun (splitParts src) s) := by
  obtain ⟨c, hc, hback, _, hleading⟩ := compile_pureText h
  refine ⟨c, _, hc, hback, source_pureText h, fun s hs => ?_⟩
  have hlanguages := (divides_pureText (tokens_valid body)).map_spells
  rw [opening_closing_languages] at hlanguages
  have hne : splitParts ('^' :: ((tokens body).flatMap Token.source ++ ['$'])) ≠ [] := by
    intro hnil
    rw [hnil] at hlanguages
    exact partLanguages_ne_nil _ hlanguages.symm
  rw [hleading s hs, ← hlanguages, run_iff_leadingRun hne]

/-- A body with a quoted parameter, optional text, alternatives and a space at its end. -/
theorem leading_occursIn_iff_greeting :
    ∃ c src, compile .pureText (of "say \x7bstring\x7d to (the) all/some ") = .ok c ∧ c.fellBack = false ∧
      source .pureText true (of "say \x7bstring\x7d to (the) all/some ") = .ok src ∧
      ∀ s, '\n' ∉ s → (c.leading.occursIn s = true ↔ LeadingRun (splitParts src) s) :=
  leading_occursIn_iff (of "say \x7bstring\x7d to (the) all/some ") (by decide)

end StepCatalog.Body
