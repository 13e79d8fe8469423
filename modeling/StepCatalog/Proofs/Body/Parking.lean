import Mathlib.Data.List.Forall2
import StepCatalog.Proofs.Body.Token

/-!
# Slots keep their place

A body is rewritten as a text in which the parameters found so far stand as numbered slots, while the rules on tokens keep them as
tokens of their own. Here the two are the same thing: a text holds tokens (`Holds`) if its characters are theirs and every slot has
the number under which the regular expression of its parameter was put aside. Each rule on texts finds exactly what the rule on
tokens finds (`Simulates`), so a pass keeps the relation (`apply_holds`), and filling the slots of the escaped text writes each
stretch of the tokens once, in order (`restore_escape`).

Main statement: `source_eq_tokenSource`.
-/

namespace StepCatalog.Body

open Text (of)

/-- The text holds the tokens, every parameter as a slot for its regular expression. -/
inductive Holds (fragments : List Text) : List Token → Text → Prop where
  | nil : Holds fragments [] []
  | char {c : Char} {ts : List Token} {s : Text} : c ≠ nul → Holds fragments ts s → Holds fragments (.char c :: ts) (c :: s)
  | param {p : Parameter} {n : Nat} {ts : List Token} {s : Text} :
      fragments[n]? = some p.source → Holds fragments ts s → Holds fragments (.param p :: ts) (slot n ++ s)

namespace Holds

/-- Putting further fragments aside changes nothing. -/
theorem mono {fs : List Text} {ts : List Token} {s : Text} (h : Holds fs ts s) (more : List Text) :
    Holds (fs ++ more) ts s := by
  induction h with
  | nil => exact nil
  | char hc _ ih => exact char hc ih
  | param hn _ ih =>
    refine param ?_ ih
    rw [List.getElem?_append_left (List.getElem?_eq_some_iff.1 hn).1]
    exact hn

theorem append {fs : List Text} {ts ts' : List Token} {s s' : Text} (h : Holds fs ts s) (h' : Holds fs ts' s') :
    Holds fs (ts ++ ts') (s ++ s') := by
  induction h with
  | nil => exact h'
  | char hc _ ih => exact char hc ih
  | param hn _ ih =>
    rw [List.append_assoc]
    exact param hn ih

/-- A body without slots of its own holds its characters. -/
theorem of_chars (fs : List Text) {s : Text} (h : nul ∉ s) : Holds fs (s.map .char) s := by
  induction s with
  | nil => exact nil
  | cons c s ih =>
    rw [List.mem_cons, not_or] at h
    exact char (fun hc => h.1 hc.symm) (ih h.2)

end Holds

/-! ## Characters of slots -/

/-- A character that a slot is made of. -/
def isSlotChar (c : Char) : Bool := c == nul || c.isDigit

theorem isSlotChar_of_mem_slot {n : Nat} {c : Char} (h : c ∈ slot n) : isSlotChar c = true := by
  simp only [slot, List.cons_append, List.mem_cons, List.mem_append, List.not_mem_nil, or_false] at h
  unfold isSlotChar
  rw [Bool.or_eq_true, beq_iff_eq]
  rcases h with h | h | h
  · exact Or.inl h
  · exact Or.inr (Nat.isDigit_of_mem_toDigits (by decide) (by decide) h)
  · exact Or.inl h

/-! ## Looking ahead in a text and in its tokens -/

/-- Up to the next closing brace of the line, a text holds the tokens up to that brace. -/
theorem untilOnLine_holds {fs : List Text} {ts : List Token} {s : Text} (h : Holds fs ts s) :
    (Token.untilBrace ts = none ∧ untilOnLine '\x7d' s = none) ∨
    ∃ ts₁ ts₂ s₁ s₂, ts = ts₁ ++ .char '\x7d' :: ts₂ ∧ s = s₁ ++ '\x7d' :: s₂ ∧ Holds fs ts₁ s₁ ∧ Holds fs ts₂ s₂ ∧
      Token.untilBrace ts = some ts₁.length ∧ untilOnLine '\x7d' s = some (s₁, s₂) := by
  induction h with
  | nil => exact Or.inl ⟨rfl, rfl⟩
  | @char c ts s hc hs ih =>
    by_cases hb : c = '\x7d'
    · subst hb
      exact Or.inr ⟨[], ts, [], s, rfl, rfl, .nil, hs, rfl, rfl⟩
    · by_cases hn : c = '\n'
      · subst hn
        exact Or.inl ⟨rfl, rfl⟩
      · rcases ih with ⟨h1, h2⟩ | ⟨ts₁, ts₂, s₁, s₂, rfl, rfl, h1, h2, h3, h4⟩
        · left
          simp [Token.untilBrace, untilOnLine, hb, hn, h1, h2]
        · refine Or.inr ⟨.char c :: ts₁, ts₂, c :: s₁, s₂, rfl, rfl, .char hc h1, h2, ?_, ?_⟩
          · simp [Token.untilBrace, hb, hn, h3]
          · simp [untilOnLine, hb, hn, h4]
  | @param p n ts s hp hs ih =>
    -- no character of a slot ends the search
    have hskip : ∀ u : Text, (∀ c ∈ u, isSlotChar c = true) →
        untilOnLine '\x7d' (u ++ s) = (untilOnLine '\x7d' s).map (Prod.map (u ++ ·) id) := by
      intro u hu
      induction u with
      | nil =>
        show untilOnLine '\x7d' s = (untilOnLine '\x7d' s).map (Prod.map id id)
        rw [Prod.map_id, Option.map_id]
        rfl
      | cons c u ihu =>
        have hc := hu c (by simp)
        have h1 : c ≠ '\x7d' := by rintro rfl; exact absurd hc (by decide)
        have h2 : c ≠ '\n' := by rintro rfl; exact absurd hc (by decide)
        rw [List.cons_append, untilOnLine, if_neg h1, if_neg h2, ihu fun x hx => hu x (List.mem_cons_of_mem _ hx)]
        cases untilOnLine '\x7d' s <;> rfl
    have hslot := hskip (slot n) fun c hc => isSlotChar_of_mem_slot hc
    rcases ih with ⟨h1, h2⟩ | ⟨ts₁, ts₂, s₁, s₂, rfl, rfl, h1, h2, h3, h4⟩
    · left
      rw [hslot, h2]
      exact ⟨by simp [Token.untilBrace, h1], rfl⟩
    · refine Or.inr ⟨.param p :: ts₁, ts₂, slot n ++ s₁, s₂, rfl, by rw [List.append_assoc], .param hp h1, h2, ?_, ?_⟩
      · simp [Token.untilBrace, h3]
      · rw [hslot, h4]
        rfl

/-- The characters at the beginning of a text that satisfy a test which slots fail are those of its tokens. -/
theorem leading_holds {fs : List Text} {ts : List Token} {s : Text} (h : Holds fs ts s) {p : Char → Bool}
    (hp : p nul = false) :
    ∃ u ts' s', Token.leading p ts = u ∧ s.takeWhile p = u ∧ ts = u.map .char ++ ts' ∧ s = u ++ s' ∧ Holds fs ts' s' := by
  induction h with
  | nil => exact ⟨[], [], [], rfl, rfl, rfl, rfl, .nil⟩
  | @char c ts s hc hs ih =>
    by_cases hpc : p c = true
    · obtain ⟨u, ts', s', h1, h2, rfl, rfl, h3⟩ := ih
      exact ⟨c :: u, ts', s', by simp [Token.leading, hpc, h1], by simp [hpc, h2], rfl, rfl, h3⟩
    · exact ⟨[], .char c :: ts, c :: s, by simp [Token.leading, hpc], by simp [hpc], rfl, rfl, .char hc hs⟩
  | @param q n ts s hq hs _ =>
    exact ⟨[], .param q :: ts, slot n ++ s, rfl, by simp [slot, hp], rfl, rfl, .param hq hs⟩

/-- A text begins with characters that are no NUL exactly if its tokens do. -/
theorem startsWith_holds {fs : List Text} {lead : Text} (hl : nul ∉ lead) {ts : List Token} {s : Text} (h : Holds fs ts s) :
    (((lead.map Token.char).isPrefixOf ts = false ∧ s.startsWith lead = false) ∨
    ∃ ts' s', ts = lead.map .char ++ ts' ∧ s = lead ++ s' ∧ Holds fs ts' s' ∧
      (lead.map Token.char).isPrefixOf ts = true ∧ s.startsWith lead = true) := by
  induction lead generalizing ts s with
  | nil => exact Or.inr ⟨ts, s, rfl, rfl, h, by simp, by simp [Text.startsWith, Text.after?]⟩
  | cons a lead ih =>
    rw [List.mem_cons, not_or] at hl
    cases h with
    | nil => exact Or.inl ⟨rfl, rfl⟩
    | @char c ts s hc hs =>
      by_cases hac : a = c
      · subst hac
        rcases ih hl.2 hs with ⟨h1, h2⟩ | ⟨ts', s', rfl, rfl, h1, h2, h3⟩
        · exact Or.inl ⟨by simpa using h1, by simpa [Text.startsWith, Text.after?] using h2⟩
        · exact Or.inr ⟨ts', s', rfl, rfl, h1, by simp, by simpa [Text.startsWith, Text.after?] using h3⟩
      · exact Or.inl ⟨by simp [List.isPrefixOf, hac], by simp [Text.startsWith, Text.after?, hac]⟩
    | param hp hs =>
      refine Or.inl ⟨by simp [List.isPrefixOf], ?_⟩
      simp [slot, Text.startsWith, Text.after?, Ne.symm hl.1]

/-! ## Each rule finds in a text what it finds in the tokens -/

/-- The character in front is a backslash exactly if the token in front is. -/
def SameBack (back : Option Char) (tback : Option Token) : Prop := back = some '\\' ↔ tback = some (.char '\\')

/-- A rule on texts finds what a rule on tokens finds, and begins nowhere inside a slot. -/
structure Simulates (rule : Rule) (trule : Token.Rule) : Prop where
  quiet : ∀ back c s, isSlotChar c = true → rule back (c :: s) = none
  finds : ∀ {fs : List Text} {ts : List Token} {s : Text} {back : Option Char} {tback : Option Token},
    Holds fs ts s → SameBack back tback →
    (trule tback ts = none ∧ rule back s = none) ∨
    ∃ p ts₁ ts₂ s₁ s₂, ts = ts₁ ++ ts₂ ∧ s = s₁ ++ s₂ ∧ Holds fs ts₁ s₁ ∧ Holds fs ts₂ s₂ ∧ s₁ ≠ [] ∧
      trule tback ts = some (p, ts₁.length) ∧ rule back s = some (p.source, s₁.length)

/-! ### Interpolations -/

theorem interpolation_eq_none {back : Option Char} {c : Char} {s : Text} (h : c ≠ '#') :
    interpolation back (c :: s) = none := by
  unfold interpolation
  split
  · rename_i he
    exact absurd (List.cons.inj he).1 h
  · rfl

theorem interpolation_hash_eq_none {back : Option Char} {c : Char} {s : Text} (h : c ≠ '\x7b') :
    interpolation back ('#' :: c :: s) = none := by
  unfold interpolation
  split
  · rename_i he
    exact absurd (List.cons.inj (List.cons.inj he).2).1 h
  · rfl

theorem Token.interpolation_eq_none {back : Option Token} {c : Char} {ts : List Token} (h : c ≠ '#') :
    Token.interpolation back (.char c :: ts) = none := by
  unfold Token.interpolation
  split
  · rename_i he
    exact absurd (Token.char.inj (List.cons.inj he).1) h
  · rfl

theorem Token.interpolation_hash_eq_none {back : Option Token} {c : Char} {ts : List Token} (h : c ≠ '\x7b') :
    Token.interpolation back (.char '#' :: .char c :: ts) = none := by
  unfold Token.interpolation
  split
  · rename_i he
    exact absurd (Token.char.inj (List.cons.inj (List.cons.inj he).2).1) h
  · rfl

theorem simulates_interpolation : Simulates interpolation Token.interpolation := by
  refine ⟨fun back c s hc => interpolation_eq_none (by rintro rfl; exact absurd hc (by decide)), ?_⟩
  intro fs ts s back tback h _
  cases h with
  | nil => exact Or.inl ⟨rfl, rfl⟩
  | param hp hs => exact Or.inl ⟨rfl, rfl⟩
  | @char c ts s hc hs =>
    by_cases hhash : c = '#'
    · subst hhash
      cases hs with
      | nil => exact Or.inl ⟨rfl, rfl⟩
      | param hp hs => exact Or.inl ⟨rfl, rfl⟩
      | @char d ts s hd hs =>
        by_cases hbrace : d = '\x7b'
        · subst hbrace
          rcases untilOnLine_holds hs with ⟨h1, h2⟩ | ⟨ts₁, ts₂, s₁, s₂, rfl, rfl, h1, h2, h3, h4⟩
          · left
            simp [interpolation, Token.interpolation, h1, h2]
          · refine Or.inr ⟨.anything, .char '#' :: .char '\x7b' :: (ts₁ ++ [.char '\x7d']), ts₂,
              '#' :: '\x7b' :: (s₁ ++ ['\x7d']), s₂, by simp, by simp, ?_, h2, by simp, ?_, ?_⟩
            · exact .char hc (.char hd (h1.append (.char (by decide) .nil)))
            · simp [Token.interpolation, h3]
            · simp [interpolation, h4, Parameter.source]
        · exact Or.inl ⟨Token.interpolation_hash_eq_none hbrace, interpolation_hash_eq_none hbrace⟩
    · exact Or.inl ⟨Token.interpolation_eq_none hhash, interpolation_eq_none hhash⟩

/-! ### Fixed names -/

theorem simulates_fixedParameter {name : Text} (hname : nul ∉ name) {fragment : Text} {p : Parameter} (hp : fragment = p.source) :
    Simulates (fixedParameter name fragment) (Token.fixedParameter name p) := by
  refine ⟨?_, ?_⟩
  · intro back c s hc
    have hne : c ≠ '\x7b' := by
      rintro rfl
      exact absurd hc (by decide)
    simp [fixedParameter, Text.startsWith, braced, Text.after?, Ne.symm hne]
  · intro fs ts s back tback h _
    have hbraced : nul ∉ braced name := by
      simp only [braced, List.cons_append, List.mem_cons, List.mem_append, List.not_mem_nil, or_false, not_or]
      exact ⟨by decide, hname, by decide⟩
    rcases startsWith_holds hbraced h with ⟨h1, h2⟩ | ⟨ts', s', rfl, rfl, h1, h2, h3⟩
    · left
      simp [fixedParameter, Token.fixedParameter, h1, h2]
    · refine Or.inr ⟨p, (braced name).map .char, ts', braced name, s', rfl, rfl, .of_chars fs hbraced, h1, ?_, ?_, ?_⟩
      · exact List.cons_ne_nil _ _
      · simp only [Token.fixedParameter, h2, if_true]
        simp [braced]
      · simp only [fixedParameter, h3, if_true]
        simp [braced, hp]

/-! ### Optional text -/

theorem optionalText_eq_none {back : Option Char} {c : Char} {s : Text} (h : c ≠ '(') : optionalText back (c :: s) = none := by
  unfold optionalText
  split
  · rename_i he
    exact absurd (List.cons.inj he).1 h
  · rfl

theorem Token.optionalText_eq_none {back : Option Token} {c : Char} {ts : List Token} (h : c ≠ '(') :
    Token.optionalText back (.char c :: ts) = none := by
  unfold Token.optionalText
  split
  · rename_i he
    exact absurd (Token.char.inj (List.cons.inj he).1) h
  · rfl

theorem simulates_optionalText : Simulates optionalText Token.optionalText := by
  refine ⟨fun back c s hc => optionalText_eq_none (by rintro rfl; exact absurd hc (by decide)), ?_⟩
  intro fs ts s back tback h _
  cases h with
  | nil => exact Or.inl ⟨rfl, rfl⟩
  | param hp hs => exact Or.inl ⟨rfl, rfl⟩
  | @char c ts s hc hs =>
    by_cases hparen : c = '('
    · subst hparen
      obtain ⟨letters, ts', s', hlead, htake, rfl, rfl, hrest⟩ := leading_holds hs (p := isLowerLetter) (by decide)
      have hnul : nul ∉ letters := by
        intro hm
        rw [← hlead] at hm
        exact absurd (Token.leading_all _ nul hm) (by decide)
      have hdrop : (letters.map Token.char ++ ts').drop letters.length = ts' := by
        rw [List.drop_append_of_le_length (by simp), List.drop_eq_nil_of_le (by simp), List.nil_append]
      simp only [optionalText, Token.optionalText, hlead, htake, hdrop, List.drop_left]
      cases letters with
      | nil => exact Or.inl ⟨rfl, rfl⟩
      | cons l letters =>
        cases hrest with
        | nil => exact Or.inl ⟨rfl, rfl⟩
        | param hp hs => exact Or.inl ⟨rfl, rfl⟩
        | @char d ts'' s'' hd hs'' =>
          by_cases hclose : d = ')'
          · subst hclose
            refine Or.inr ⟨.optional (l :: letters), .char '(' :: ((l :: letters).map .char ++ [.char ')']), ts'',
              '(' :: (l :: letters ++ [')']), s'', by simp, by simp, ?_, hs'', by simp, by simp, by simp [Parameter.source]⟩
            exact .char hc ((Holds.of_chars fs hnul).append (.char hd .nil))
          · left
            constructor
            · split
              · rename_i he
                exact absurd (Token.char.inj (List.cons.inj he).1) hclose
              · rfl
            · split
              · rename_i he
                exact absurd (List.cons.inj he).1 hclose
              · rfl
    · exact Or.inl ⟨Token.optionalText_eq_none hparen, optionalText_eq_none hparen⟩

/-! ### Alternatives -/

/-- The code points of letters are beyond those of digits. -/
theorem le_toNat_of_isLetter {c : Char} (h : isLetter c = true) : 65 ≤ c.toNat := by
  simp only [isLetter, isLowerLetter, Bool.or_eq_true, Bool.and_eq_true, decide_eq_true_eq] at h
  rcases h with h | h
  · exact Nat.le_trans (by decide) (UInt32.le_iff_toNat_le.1 (Char.le_def.1 h.1))
  · exact UInt32.le_iff_toNat_le.1 (Char.le_def.1 h.1)

/-- No character of a slot is a letter. -/
theorem isLetter_eq_false {c : Char} (hc : isSlotChar c = true) : isLetter c = false := by
  cases hl : isLetter c
  · rfl
  · have hle := le_toNat_of_isLetter hl
    rw [isSlotChar, Bool.or_eq_true, beq_iff_eq] at hc
    rcases hc with rfl | hc
    · exact absurd hle (by decide)
    · have hdigit : c.toNat ≤ 57 := (Char.isDigit_iff_toNat.1 hc).2
      omega

theorem simulates_alternativeText : Simulates alternativeText Token.alternativeText := by
  refine ⟨?_, ?_⟩
  · intro back c s hc
    have hslash : c ≠ '/' := by
      rintro rfl
      exact absurd hc (by decide)
    simp [alternativeText, isLetter_eq_false hc, hslash, Text.splitOn]
  · intro fs ts s back tback h _
    obtain ⟨u, ts', s', hlead, htake, rfl, rfl, hrest⟩ :=
      leading_holds h (p := fun c => isLetter c || c == '/') (by decide)
    obtain ⟨rest, hu⟩ := Text.join_takeWhile_splitOn '/' (!·.isEmpty) u
    simp only [alternativeText, Token.alternativeText, hlead, htake]
    generalize hw : (Text.splitOn '/' u).takeWhile (!·.isEmpty) = words at *
    by_cases hlen : 2 ≤ words.length
    · right
      have hnul : nul ∉ u := by
        intro hm
        rw [← hlead] at hm
        exact absurd (Token.leading_all _ nul hm) (by decide)
      rw [hu, List.mem_append, not_or] at hnul
      refine ⟨.oneOf words, (Text.join ['/'] words).map .char, rest.map .char ++ ts', Text.join ['/'] words, rest ++ s', ?_, ?_,
        .of_chars fs hnul.1, (Holds.of_chars fs hnul.2).append hrest, ?_, by simp [hlen], by simp [hlen, Parameter.source]⟩
      · rw [← List.append_assoc, ← List.map_append, ← hu]
      · rw [← List.append_assoc, ← hu]
      · cases words with
        | nil => exact absurd hlen (by decide)
        | cons w words =>
          cases words with
          | nil => exact absurd hlen (by simp)
          | cons w' words => simp [Text.join]
    · left
      simp [hlen]

/-! ### Other names -/

theorem customParameter_eq_none {back : Option Char} {c : Char} {s : Text} (h : c ≠ '\x7b') :
    customParameter back (c :: s) = none := by
  unfold customParameter
  split
  · rename_i he
    exact absurd (List.cons.inj he).1 h
  · rfl

theorem Token.customParameter_eq_none {back : Option Token} {c : Char} {ts : List Token} (h : c ≠ '\x7b') :
    Token.customParameter back (.char c :: ts) = none := by
  unfold Token.customParameter
  split
  · rename_i he
    exact absurd (Token.char.inj (List.cons.inj he).1) h
  · rfl

/-- Whether a quantifier may begin is decided by the first character, which no slot resembles. -/
theorem beginsCount_holds {fs : List Text} {ts : List Token} {s : Text} (h : Holds fs ts s) :
    beginsCount s = beginsCount (Token.leading (fun _ => true) ts) := by
  cases h with
  | nil => rfl
  | char hc hs => rfl
  | param hp hs => exact (by decide : (isDecimalDigit nul || nul == ',') = false)

theorem simulates_customParameter : Simulates customParameter Token.customParameter := by
  refine ⟨fun back c s hc => customParameter_eq_none (by rintro rfl; exact absurd hc (by decide)), ?_⟩
  intro fs ts s back tback h hback
  cases h with
  | nil => exact Or.inl ⟨rfl, rfl⟩
  | param hp hs => exact Or.inl ⟨rfl, rfl⟩
  | @char c ts s hc hs =>
    by_cases hbrace : c = '\x7b'
    · subst hbrace
      have hguard : (back == some '\\' || beginsCount s) =
          (decide (tback = some (.char '\\')) || beginsCount (Token.leading (fun _ => true) ts)) := by
        rw [← beginsCount_holds hs]
        congr 1
        rw [Bool.eq_iff_iff, beq_iff_eq, decide_eq_true_eq]
        exact hback
      simp only [customParameter, Token.customParameter, hguard]
      split
      · exact Or.inl ⟨rfl, rfl⟩
      · rcases untilOnLine_holds hs with ⟨h1, h2⟩ | ⟨ts₁, ts₂, s₁, s₂, rfl, rfl, h1, h2, h3, h4⟩
        · left
          simp [h1, h2]
        · refine Or.inr ⟨.anything, .char '\x7b' :: (ts₁ ++ [.char '\x7d']), ts₂, '\x7b' :: (s₁ ++ ['\x7d']), s₂, by simp,
            by simp, .char hc (h1.append (.char (by decide) .nil)), h2, by simp, ?_, ?_⟩
          · simp [h3]
          · simp [h4, Parameter.source]
    · exact Or.inl ⟨Token.customParameter_eq_none hbrace, customParameter_eq_none hbrace⟩

/-- The rules on texts and the rules on tokens, one by one. -/
theorem simulates_rules : List.Forall₂ Simulates parameterRules Token.rules := by
  unfold parameterRules Token.rules
  refine .cons simulates_interpolation (.cons ?_ (.cons ?_ (.cons ?_ (.cons ?_ (.cons ?_ (.cons ?_
    (.cons simulates_optionalText (.cons simulates_alternativeText (.cons simulates_customParameter .nil)))))))))
  all_goals exact simulates_fixedParameter (by decide) rfl

/-! ## A pass keeps slots and tokens together -/

/-- The character in front after a stretch of text. -/
def lastOf {α : Type} (back : Option α) (u : List α) : Option α := u.getLast?.or back

theorem lastOf_cons {α : Type} (back : Option α) (c : α) (u : List α) : lastOf back (c :: u) = lastOf (some c) u := by
  cases u with
  | nil => rfl
  | cons d u => simp [lastOf, List.getLast?_cons]

theorem lastOf_append {α : Type} (back : Option α) (u v : List α) : lastOf back (u ++ v) = lastOf (lastOf back u) v := by
  simp [lastOf, List.getLast?_append, Option.or_assoc]

theorem piecesFrom_skip {α : Type} (find : Finder α) (u s : Text) :
    ∀ back, piecesFrom find back u.length (u ++ s) = piecesFrom find (lastOf back u) 0 s := by
  induction u with
  | nil => intro back; rfl
  | cons c u ih =>
    intro back
    rw [lastOf_cons, ← ih]
    rfl

theorem Token.rewriteFrom_skip (rule : Token.Rule) (us ts : List Token) :
    ∀ back, Token.rewriteFrom rule back us.length (us ++ ts) = Token.rewriteFrom rule (lastOf back us) 0 ts := by
  induction us with
  | nil => intro back; rfl
  | cons u us ih =>
    intro back
    rw [lastOf_cons, ← ih]
    rfl

/-- A text ends in a backslash exactly if its tokens do. -/
theorem getLast?_holds {fs : List Text} {ts : List Token} {s : Text} (h : Holds fs ts s) :
    SameBack s.getLast? ts.getLast? := by
  induction h with
  | nil => simp [SameBack]
  | @char c ts s hc hs ih =>
    cases hs with
    | nil => simp [SameBack]
    | char hd hs => simpa [SameBack, List.getLast?_cons] using ih
    | param hp hs => simpa [SameBack, List.getLast?_cons, slot] using ih
  | @param p n ts s hp hs ih =>
    cases hs with
    | nil => simp [SameBack, slot, List.getLast?_cons, nul]
    | char hd hs => simpa [SameBack, List.getLast?_cons, List.getLast?_append] using ih
    | param hp hs => simpa [SameBack, List.getLast?_cons, List.getLast?_append, slot] using ih

/-- Behind a stretch, the character in front and the token in front are still alike. -/
theorem sameBack_lastOf {fs : List Text} {ts : List Token} {s : Text} (h : Holds fs ts s) (hs : s ≠ []) (back : Option Char)
    (tback : Option Token) : SameBack (lastOf back s) (lastOf tback ts) := by
  have hlast := getLast?_holds h
  cases h with
  | nil => exact absurd rfl hs
  | char hc h' => simpa [lastOf, SameBack, List.getLast?_cons] using hlast
  | param hp h' => simpa [lastOf, SameBack, List.getLast?_cons, slot] using hlast

/-- A rule that begins nowhere inside a slot leaves the characters of slots as they are. -/
theorem piecesFrom_quiet {rule : Rule} (hq : ∀ back c s, isSlotChar c = true → rule back (c :: s) = none) {u : Text}
    (hu : ∀ c ∈ u, isSlotChar c = true) (s : Text) :
    ∀ back, piecesFrom rule back 0 (u ++ s) = u.map .char ++ piecesFrom rule (lastOf back u) 0 s := by
  induction u with
  | nil => intro back; rfl
  | cons c u ih =>
    intro back
    rw [List.cons_append, piecesFrom, hq back c _ (hu c (by simp)), ih fun x hx => hu x (List.mem_cons_of_mem _ hx), lastOf_cons]
    rfl

theorem slotted_chars (n : Nat) (u : Text) (ps : List (Piece Text)) :
    slotted n (u.map .char ++ ps) = u ++ slotted n ps := by
  induction u with
  | nil => rfl
  | cons c u ih => rw [List.map_cons, List.cons_append, slotted, ih, List.cons_append]

/-- A pass of a rule over a text and over its tokens: the text with slots for the finds holds the rewritten tokens. The finds are
among the fragments, from the number `n` on. -/
theorem slotted_holds {rule : Rule} {trule : Token.Rule} (hr : Simulates rule trule) {fs : List Text} (size : Nat) :
    ∀ {ts : List Token} {s : Text} {back : Option Char} {tback : Option Token} {n : Nat}, ts.length ≤ size → Holds fs ts s →
      SameBack back tback →
      (∀ i f, (Piece.hits (piecesFrom rule back 0 s))[i]? = some f → fs[n + i]? = some f) →
      Holds fs (Token.rewriteFrom trule tback 0 ts) (slotted n (piecesFrom rule back 0 s)) := by
  induction size with
  | zero =>
    intro ts s back tback n hsize h _ _
    obtain rfl : ts = [] := List.eq_nil_of_length_eq_zero (by omega)
    cases h
    exact .nil
  | succ size ih =>
    intro ts s back tback n hsize h hback hfs
    rcases hr.finds h hback with ⟨h1, h2⟩ | ⟨p, ts₁, ts₂, s₁, s₂, rfl, rfl, h3, h4, hne, h1, h2⟩
    · -- nothing is found here: one token is passed over
      cases h with
      | nil => exact .nil
      | @char c ts s hc hs =>
        simp only [List.length_cons] at hsize
        simp only [piecesFrom, h2, Token.rewriteFrom, h1, slotted] at hfs ⊢
        refine .char hc (ih (by omega) hs ?_ hfs)
        simp [SameBack]
      | @param p m ts s hp hs =>
        simp only [List.length_cons] at hsize
        have hslot := piecesFrom_quiet hr.quiet (fun c hc => isSlotChar_of_mem_slot (n := m) hc) s back
        rw [hslot] at hfs ⊢
        simp only [Token.rewriteFrom, h1, slotted_chars]
        refine .param hp (ih (by omega) hs ?_ ?_)
        · have hlast := sameBack_lastOf (.param hp .nil) (List.cons_ne_nil _ _) back none
          rw [List.append_nil] at hlast
          exact hlast
        · intro i f hi
          refine hfs i f ?_
          rw [Piece.hits, List.filterMap_append, List.filterMap_eq_nil_iff.2 (by simp)]
          exact hi
    · -- a parameter begins here: its tokens become one, its text a slot
      obtain ⟨c, u, rfl⟩ := List.exists_cons_of_ne_nil hne
      obtain ⟨t, us, rfl⟩ : ∃ t us, ts₁ = t :: us := by
        cases ts₁ with
        | nil => cases h3
        | cons t us => exact ⟨t, us, rfl⟩
      simp only [List.cons_append, List.length_cons, List.length_append] at hsize h1 h2 hfs ⊢
      simp only [piecesFrom, h2, Token.rewriteFrom, h1, Nat.add_sub_cancel, piecesFrom_skip, Token.rewriteFrom_skip, slotted]
        at hfs ⊢
      refine .param (hfs 0 _ rfl) (ih (by omega) h4 ?_ ?_)
      · have hlast := sameBack_lastOf h3 hne back tback
        rw [lastOf_cons, lastOf_cons] at hlast
        exact hlast
      · intro i f hi
        have hstep := hfs (i + 1) f hi
        rw [show n + 1 + i = n + (i + 1) by omega]
        exact hstep

/-- One rule applied to a body with slots and to its tokens. -/
theorem apply_holds {rule : Rule} {trule : Token.Rule} (hr : Simulates rule trule) {parked : Parked} {ts : List Token}
    (h : Holds parked.fragments ts parked.text) :
    Holds (parked.apply rule).fragments (Token.rewrite ts trule) (parked.apply rule).text := by
  refine slotted_holds hr ts.length (Nat.le_refl _) (h.mono _) (by simp [SameBack]) ?_
  intro i f hi
  show (parked.fragments ++ _)[parked.fragments.length + i]? = some f
  rw [List.getElem?_append_right (Nat.le_add_right _ _), Nat.add_sub_cancel_left]
  exact hi

/-- All rules applied in order. -/
theorem foldl_apply_holds {rs : List Rule} {trs : List Token.Rule} (hr : List.Forall₂ Simulates rs trs) :
    ∀ {parked : Parked} {ts : List Token}, Holds parked.fragments ts parked.text →
      Holds (rs.foldl Parked.apply parked).fragments (trs.foldl Token.rewrite ts) (rs.foldl Parked.apply parked).text := by
  induction hr with
  | nil => intro parked ts h; exact h
  | cons hrule _ ih =>
    intro parked ts h
    exact ih (apply_holds hrule h)

/-- A body with its parameters put aside holds its tokens. -/
theorem park_holds {body : Text} (h : nul ∉ body) : Holds (park body).fragments (tokens body) (park body).text :=
  foldl_apply_holds simulates_rules (Holds.of_chars [] h)

/-! ## Bodies without parameters -/

/-- Where a rule finds nothing, no slot is set. -/
theorem slotted_of_hits_nil (rule : Rule) (s : Text) :
    ∀ back n, Piece.hits (piecesFrom rule back 0 s) = [] → slotted n (piecesFrom rule back 0 s) = s := by
  induction s with
  | nil => intro back n _; rfl
  | cons c s ih =>
    intro back n h
    rw [piecesFrom] at h ⊢
    split at h
    · cases h
    · rw [slotted, ih (some c) n h]

/-- Where no rule finds anything, nothing is put aside. -/
theorem park_of_hits_nil {body : Text} (h : ∀ rule ∈ parameterRules, Piece.hits (pieces rule body) = []) :
    park body = ⟨body, []⟩ := by
  have hfold : ∀ rs : List Rule, (∀ rule ∈ rs, Piece.hits (pieces rule body) = []) →
      rs.foldl Parked.apply ⟨body, []⟩ = ⟨body, []⟩ := by
    intro rs hrs
    induction rs with
    | nil => rfl
    | cons rule rs ih =>
      have hhits := hrs rule (by simp)
      have hrule : Parked.apply ⟨body, []⟩ rule = ⟨body, []⟩ := by
        unfold Parked.apply
        simp only [hhits, List.append_nil]
        unfold pieces at hhits ⊢
        rw [slotted_of_hits_nil rule body none _ hhits]
      rw [List.foldl_cons, hrule]
      exact ih fun r hr => hrs r (List.mem_cons_of_mem _ hr)
  exact hfold _ h

/-- With nothing put aside, a text holds its characters only. -/
theorem Holds.eq_chars {ts : List Token} {s : Text} (h : Holds [] ts s) : ts = s.map .char := by
  induction h with
  | nil => rfl
  | char _ _ ih => rw [ih, List.map_cons]
  | param hp => cases hp

/-- The tokens of a body in which no rule finds anything are its characters. -/
theorem tokens_of_hits_nil {body : Text} (hn : nul ∉ body)
    (h : ∀ rule ∈ parameterRules, Piece.hits (pieces rule body) = []) : tokens body = body.map .char := by
  have hholds := park_holds hn
  rw [park_of_hits_nil h] at hholds
  exact hholds.eq_chars

/-! ## Escaping character by character -/

/-- A test that all characters pass which pure text escapes. -/
theorem all_special {p : Char → Bool} (h : (of "-[]/\x7b\x7d()*+?.\\^$|").all p = true) {c : Char}
    (hc : isSpecial c = true) : p c = true :=
  List.all_eq_true.1 h c (List.contains_iff_mem.1 hc)

/-- A character escaped, behind another one. -/
def Kind.escapeChar (kind : Kind) (back : Option Char) (c : Char) : Text :=
  match kind with
  | .pureText => if isSpecial c then ['\\', c] else [c]
  | .pattern => if c = '/' ∧ back ≠ some '\\' then ['\\', '/'] else [c]

/-- A text escaped, behind a character. -/
def Kind.escapeFrom (kind : Kind) : Option Char → Text → Text
  | _, [] => []
  | back, c :: s => kind.escapeChar back c ++ kind.escapeFrom (some c) s

/-- Escaping goes character by character, with a look at the character in front. -/
theorem Kind.escape_eq_escapeFrom (kind : Kind) (s : Text) : kind.escape s = kind.escapeFrom none s := by
  cases kind with
  | pureText =>
    have h : ∀ back, escapePure s = Kind.pureText.escapeFrom back s := by
      induction s with
      | nil => intro back; rfl
      | cons c s ih => intro back; rw [Kind.escapeFrom, ← ih (some c)]; rfl
    exact h none
  | pattern =>
    have h : ∀ back, Piece.render (fun _ => of "\\/") (piecesFrom bareSlash back 0 s) = Kind.pattern.escapeFrom back s := by
      induction s with
      | nil => intro back; rfl
      | cons c s ih =>
        intro back
        by_cases hslash : c = '/'
        · subst hslash
          by_cases hb : back = some '\\'
          · subst hb
            simp only [piecesFrom, bareSlash, Kind.escapeFrom, Kind.escapeChar, ← ih]
            rfl
          · have hfind : bareSlash back ('/' :: s) = some ((), 1) := by simp [bareSlash, hb]
            simp only [piecesFrom, hfind, Kind.escapeFrom, Kind.escapeChar, ne_eq, hb, not_false_eq_true, and_self, if_true, ← ih]
            rfl
        · have hfind : bareSlash back (c :: s) = none := by
            unfold bareSlash
            split
            · rename_i he
              exact absurd (List.cons.inj he).1 hslash
            · rfl
          simp only [piecesFrom, hfind, Kind.escapeFrom, Kind.escapeChar, hslash, false_and, if_false, ← ih]
          rfl
    exact h none

/-- Behind a slot a text is escaped as at its beginning. -/
theorem Kind.escapeFrom_nul (kind : Kind) (s : Text) : kind.escapeFrom (some nul) s = kind.escapeFrom none s := by
  cases s with
  | nil => rfl
  | cons c s =>
    have hc : kind.escapeChar (some nul) c = kind.escapeChar none c := by
      cases kind with
      | pureText => rfl
      | pattern => simp [Kind.escapeChar, nul]
    rw [Kind.escapeFrom, Kind.escapeFrom, hc]

/-- A slot is not changed by escaping. -/
theorem Kind.escapeFrom_slot (kind : Kind) (back : Option Char) (n : Nat) (s : Text) :
    kind.escapeFrom back (slot n ++ s) = slot n ++ kind.escapeFrom none s := by
  have hchar : ∀ back c, isSlotChar c = true → kind.escapeChar back c = [c] := by
    intro back c hc
    cases kind with
    | pureText =>
      have hspecial : isSpecial c = false := by
        cases hs : isSpecial c
        · rfl
        · have hslot := all_special (p := fun x => !isSlotChar x) (by decide) hs
          simp [hc] at hslot
      simp [Kind.escapeChar, hspecial]
    | pattern =>
      have hslash : c ≠ '/' := by
        rintro rfl
        exact absurd hc (by decide)
      simp [Kind.escapeChar, hslash]
  have hrun : ∀ (u : Text), (∀ c ∈ u, isSlotChar c = true) → ∀ back,
      kind.escapeFrom back (u ++ s) = u ++ kind.escapeFrom (lastOf back u) s := by
    intro u hu
    induction u with
    | nil => intro back; rfl
    | cons c u ih =>
      intro back
      rw [List.cons_append, Kind.escapeFrom, hchar back c (hu c (by simp)), ih fun x hx => hu x (List.mem_cons_of_mem _ hx),
        lastOf_cons]
      rfl
  have hlast : lastOf back (slot n) = some nul := by simp [lastOf, slot, List.getLast?_cons]
  rw [hrun _ fun c hc => isSlotChar_of_mem_slot hc, hlast, Kind.escapeFrom_nul]

/-! ## Filling the slots -/

/-- Tokens written one by one, behind a character. -/
def renderFrom (kind : Kind) : Option Char → List Token → Text
  | _, [] => []
  | back, .char c :: ts => kind.escapeChar back c ++ renderFrom kind (some c) ts
  | _, .param p :: ts => p.source ++ renderFrom kind none ts

/-- Stretches written behind a character, of which the first may be the rest of a run that began earlier. -/
def writeFrom (kind : Kind) (back : Option Char) : List Stretch → Text
  | .run s :: rest => kind.escapeFrom back s ++ rest.flatMap (Stretch.write kind)
  | rest => rest.flatMap (Stretch.write kind)

theorem writeFrom_none (kind : Kind) (parts : List Stretch) : writeFrom kind none parts = parts.flatMap (Stretch.write kind) := by
  cases parts with
  | nil => rfl
  | cons first rest =>
    cases first with
    | run s => simp only [writeFrom, List.flatMap_cons, Stretch.write, Kind.escape_eq_escapeFrom]
    | param q => rfl

theorem renderFrom_eq_writeFrom (kind : Kind) (ts : List Token) :
    ∀ back, renderFrom kind back ts = writeFrom kind back (stretches ts) := by
  induction ts with
  | nil => intro back; rfl
  | cons t ts ih =>
    intro back
    cases t with
    | param p =>
      rw [renderFrom, ih, writeFrom_none]
      rfl
    | char c =>
      simp only [renderFrom, stretches, ih]
      cases hs : stretches ts with
      | nil => simp [writeFrom, Kind.escapeFrom]
      | cons first rest =>
        cases first with
        | run s => simp [writeFrom, Kind.escapeFrom]
        | param q => simp [writeFrom, Kind.escapeFrom]

/-- Writing tokens one by one writes their stretches. -/
theorem render_eq_renderFrom (kind : Kind) (ts : List Token) : render kind ts = renderFrom kind none ts := by
  rw [renderFrom_eq_writeFrom, writeFrom_none]
  rfl

/-- The number of a slot is read back. -/
theorem numeralValue_decimal (n : Nat) : numeralValue (decimal n) = n := by
  have hfold : ∀ (digits : Text), (∀ c ∈ digits, c.isDigit = true) → ∀ m,
      digits.foldl (fun n c => n * 10 + (digitValue? c).getD 0) m = Nat.ofDigitChars 10 digits m := by
    intro digits hd
    induction digits with
    | nil => intro m; rfl
    | cons c digits ih =>
      intro m
      rw [List.foldl_cons, ih fun x hx => hd x (List.mem_cons_of_mem _ hx), digitValue?_of_isDigit (hd c (by simp)),
        Nat.ofDigitChars_cons]
      congr 1
      simp [Nat.mul_comm]
  unfold numeralValue decimal
  rw [hfold _ fun c hc => Nat.isDigit_of_mem_toDigits (by decide) (by decide) hc]
  exact Nat.ofDigitChars_ten_toDigits

/-- A slot is filled with what was put aside under its number. -/
theorem fragmentAt_decimal {fs : List Text} {n : Nat} {f : Text} (h : fs[n]? = some f) : fragmentAt fs (decimal n) = .ok f := by
  have hlt : n < fs.length := (List.getElem?_eq_some_iff.1 h).1
  have hlen : (decimal n).length ≤ (decimal fs.length).length := by
    have hpos : 0 < (decimal fs.length).length := Nat.length_toDigits_pos
    refine (Nat.length_toDigits_le_iff (by decide) hpos).2 (Nat.lt_trans hlt ?_)
    exact (Nat.length_toDigits_le_iff (by decide) hpos).1 (Nat.le_refl _)
  unfold fragmentAt slotNumeralDigits
  rw [if_neg (by omega), numeralValue_decimal, h]

/-- Slots are found without a look at the character in front. -/
theorem piecesFrom_slotDigits (s : Text) : ∀ back skip, piecesFrom slotDigits back skip s = piecesFrom slotDigits none skip s := by
  induction s with
  | nil => intro back skip; rfl
  | cons c s ih =>
    intro back skip
    cases skip with
    | succ skip => simp only [piecesFrom]
    | zero =>
      have hback : slotDigits back (c :: s) = slotDigits none (c :: s) := rfl
      simp only [piecesFrom, hback]

/-- A character that is no NUL stays. -/
theorem restore_char (fs : List Text) {c : Char} (hc : c ≠ nul) (s : Text) :
    restore fs (c :: s) = (restore fs s).map (c :: ·) := by
  have hfind : slotDigits none (c :: s) = none := by
    unfold slotDigits
    simp only [hc, Bool.false_and, decide_false, Bool.false_eq_true, if_false]
    split <;> rfl
  have hpieces : pieces slotDigits (c :: s) = .char c :: pieces slotDigits s := by
    unfold pieces
    rw [piecesFrom, hfind, piecesFrom_slotDigits s (some c)]
  unfold restore
  rw [hpieces, List.mapM_cons]
  generalize List.mapM (m := Except SourceError) _ (pieces slotDigits s) = rest
  cases rest <;> rfl

/-- A slot is filled. -/
theorem restore_slot {fs : List Text} {n : Nat} {f : Text} (hf : fs[n]? = some f) (s : Text) :
    restore fs (slot n ++ s) = (restore fs s).map (f ++ ·) := by
  have hdigits : ∀ c ∈ decimal n, isDecimalDigit c = true := by
    intro c hc
    unfold isDecimalDigit
    rw [digitValue?_of_isDigit (Nat.isDigit_of_mem_toDigits (by decide) (by decide) hc)]
    rfl
  have htake : (decimal n ++ nul :: s).takeWhile isDecimalDigit = decimal n := by
    rw [List.takeWhile_append_of_pos hdigits, List.takeWhile_cons_of_neg (by decide), List.append_nil]
  have hfind : slotDigits none (nul :: (decimal n ++ nul :: s)) = some (decimal n, (decimal n).length + 2) := by
    unfold slotDigits
    simp only [htake, List.drop_left]
    cases hd : decimal n with
    | nil => exact absurd hd Nat.toDigits_ne_nil
    | cons d ds => rfl
  have hslot : slot n ++ s = nul :: (decimal n ++ nul :: s) := by simp [slot]
  have hpieces : pieces slotDigits (slot n ++ s) = .hit (decimal n) :: pieces slotDigits s := by
    rw [hslot]
    unfold pieces
    rw [piecesFrom, hfind]
    have hskip := piecesFrom_skip slotDigits (decimal n ++ [nul]) s (some nul)
    rw [List.length_append, List.append_assoc, piecesFrom_slotDigits s] at hskip
    simp only
    rw [show (decimal n).length + 2 - 1 = (decimal n).length + [nul].length from rfl]
    rw [← hskip]
    rfl
  unfold restore
  rw [hpieces, List.mapM_cons]
  simp only [fragmentAt_decimal hf]
  generalize List.mapM (m := Except SourceError) _ (pieces slotDigits s) = rest
  cases rest <;> rfl

/-- Escaping a character writes no NUL. -/
theorem Kind.nul_not_mem_escapeChar (kind : Kind) {c : Char} (hc : c ≠ nul) (back : Option Char) :
    nul ∉ kind.escapeChar back c := by
  cases kind with
  | pureText =>
    unfold Kind.escapeChar
    simp only
    split
    · simp only [List.mem_cons, List.not_mem_nil, or_false, not_or]
      exact ⟨by decide, Ne.symm hc⟩
    · simpa using Ne.symm hc
  | pattern =>
    unfold Kind.escapeChar
    simp only
    split
    · decide
    · simpa using Ne.symm hc

/-- Filling the slots of the escaped text writes the tokens. -/
theorem restore_escape {fs : List Text} {ts : List Token} {s : Text} (h : Holds fs ts s) (kind : Kind) :
    ∀ back, restore fs (kind.escapeFrom back s) = .ok (renderFrom kind back ts) := by
  have hrun : ∀ (u t r : Text), nul ∉ u → restore fs t = .ok r → restore fs (u ++ t) = .ok (u ++ r) := by
    intro u t r hu ht
    induction u with
    | nil => exact ht
    | cons c u ih =>
      rw [List.mem_cons, not_or] at hu
      rw [List.cons_append, restore_char fs (Ne.symm hu.1), ih hu.2]
      rfl
  induction h with
  | nil => intro back; rfl
  | @char c ts s hc _ ih =>
    intro back
    exact hrun _ _ _ (kind.nul_not_mem_escapeChar hc back) (ih (some c))
  | @param p n ts s hp _ ih =>
    intro back
    rw [Kind.escapeFrom_slot, restore_slot hp, ih none]
    rfl

/-- The regular expression of a body before anchors is written from its tokens. -/
theorem unanchored_eq_render (kind : Kind) {body : Text} (h : nul ∉ body) :
    unanchored kind body = .ok (render kind (tokens body)) := by
  unfold unanchored
  rw [Kind.escape_eq_escapeFrom, restore_escape (park_holds h) kind none, render_eq_renderFrom]

/-! ## No slot is left -/

/-- The regular expression of a parameter holds no NUL. -/
theorem Parameter.nul_not_mem_source {p : Parameter} (hp : p.Valid) : nul ∉ p.source := by
  cases p with
  | optional letters =>
    intro h
    simp only [Parameter.source, List.cons_append, List.mem_cons, List.mem_append] at h
    rcases h with h | h | h
    · exact absurd h (by decide)
    · exact absurd (hp.2 nul h) (by decide)
    · exact absurd h (by decide)
  | oneOf words =>
    intro h
    simp only [Parameter.source, List.cons_append, List.mem_cons, List.mem_append, List.not_mem_nil, or_false] at h
    rcases h with h | h | h
    · exact absurd h (by decide)
    · rcases Text.mem_join h with h | ⟨w, hw, h⟩
      · exact absurd h (by decide)
      · exact absurd ((hp.2 w hw).2 nul h) (by decide)
    · exact absurd h (by decide)
  | _ =>
    unfold Parameter.source
    decide

/-- The characters that a text holds are no NUL. -/
theorem Holds.ne_nul {fs : List Text} {ts : List Token} {s : Text} (h : Holds fs ts s) {c : Char} (hc : .char c ∈ ts) :
    c ≠ nul := by
  induction h with
  | nil => cases hc
  | char hd _ ih =>
    rcases List.mem_cons.1 hc with heq | hc
    · cases heq
      exact hd
    · exact ih hc
  | param _ _ ih =>
    rcases List.mem_cons.1 hc with heq | hc
    · cases heq
    · exact ih hc

/-- Tokens without NUL are written without NUL. -/
theorem nul_not_mem_renderFrom (kind : Kind) {ts : List Token} (hchars : ∀ c, .char c ∈ ts → c ≠ nul)
    (hparams : Token.AllValid ts) : ∀ back, nul ∉ renderFrom kind back ts := by
  induction ts with
  | nil =>
    intro back
    simp [renderFrom]
  | cons t ts ih =>
    intro back
    have htail := ih (fun c hc => hchars c (List.mem_cons_of_mem _ hc)) fun p hp => hparams p (List.mem_cons_of_mem _ hp)
    cases t with
    | char c =>
      rw [renderFrom, List.mem_append, not_or]
      exact ⟨kind.nul_not_mem_escapeChar (hchars c (by simp)) back, htail _⟩
    | param p =>
      rw [renderFrom, List.mem_append, not_or]
      exact ⟨p.nul_not_mem_source (hparams p (by simp)), htail _⟩

/-- The regular expression of a body without NUL is the one written from its tokens, and no slot is left in it: every parameter
stands once, at its own place, and every run of characters around it is escaped on its own. -/
theorem source_eq_tokenSource (kind : Kind) (anchored : Bool) (body : Text) (h : nul ∉ body) :
    source kind anchored body = .ok (tokenSource kind anchored body) ∧ nul ∉ tokenSource kind anchored body := by
  have hrender : nul ∉ render kind (tokens body) := by
    rw [render_eq_renderFrom]
    exact nul_not_mem_renderFrom kind (fun c hc => (park_holds h).ne_nul hc) (tokens_valid body) none
  unfold source
  rw [unanchored_eq_render kind h]
  cases kind with
  | pattern => exact ⟨rfl, hrender⟩
  | pureText =>
    refine ⟨rfl, ?_⟩
    simp only [tokenSource, List.cons_append, List.mem_cons, List.mem_append, not_or]
    refine ⟨by decide, hrender, ?_⟩
    cases anchored <;> decide

/-- A custom parameter swallows another one, between digits and next to a third. -/
theorem source_eq_tokenSource_swallowed :
    source .pureText true (of "7\x7ba \x7bint\x7d\x7d\x7bword\x7d0") = .ok (of "^7.*[^\\s]+0$") ∧
    nul ∉ of "^7.*[^\\s]+0$" := by
  have hsource : tokenSource .pureText true (of "7\x7ba \x7bint\x7d\x7d\x7bword\x7d0") = of "^7.*[^\\s]+0$" := by decide
  have h := source_eq_tokenSource .pureText true (of "7\x7ba \x7bint\x7d\x7d\x7bword\x7d0") (by decide)
  rw [hsource] at h
  exact h

end StepCatalog.Body
