import StepCatalog.Proofs.Body.Parking
import StepCatalog.Proofs.Regex.Reading

/-!
# What the tokens of pure text stand for

Every token stands for certain texts (`Token.Denotes`), a character for itself only and a parameter for what its name says, and a
list of tokens stands for the texts that are put together from one text for each of them (`Spelling`). The regular expression of a
token writes just what the token stands for, and no regular expression of a token begins with the mark of a quantifier, so those of
any tokens can be put next to each other (`writes_tokens`).
-/

namespace StepCatalog.Body

open Regex
open Text (of)

/-- What a parameter stands for. -/
def Parameter.Denotes : Parameter → Text → Prop
  | .anything, w => '\n' ∉ w
  | .float, w => ∃ sign whole point digits, w = sign ++ (whole ++ (point ++ digits)) ∧ (sign = [] ∨ sign = ['-']) ∧
      (∀ c ∈ whole, isDecimalDigit c = true) ∧ (point = [] ∨ point = ['.']) ∧
      digits ≠ [] ∧ ∀ c ∈ digits, isDecimalDigit c = true
  | .int, w => ∃ sign digits, w = sign ++ digits ∧ (sign = [] ∨ sign = ['-']) ∧
      digits ≠ [] ∧ ∀ c ∈ digits, isDecimalDigit c = true
  | .doubleQuoted, w => ∃ inner, w = '"' :: inner ++ ['"'] ∧ inner ≠ [] ∧ '"' ∉ inner
  | .word, w => w ≠ [] ∧ ∀ c ∈ w, isBlank c = false
  | .quoted, w => ∃ quote inner, (quote = '"' ∨ quote = '\x27') ∧ w = quote :: inner ++ [quote] ∧ quote ∉ inner
  | .optional letters, w => w = letters ∨ w = []
  | .oneOf words, w => w ∈ words

/-- What a token stands for. -/
def Token.Denotes : Token → Text → Prop
  | .char c, w => w = [c]
  | .param p, w => p.Denotes w

/-- What tokens stand for: one text for each of them, put end to end. -/
def Spelling (ts : List Token) (w : Text) : Prop := ∃ ws : List Text, List.Forall₂ Token.Denotes ts ws ∧ w = ws.flatten

theorem spelling_nil (w : Text) : Spelling [] w ↔ w = [] := by
  constructor
  · rintro ⟨ws, h, rfl⟩
    cases h
    rfl
  · rintro rfl
    exact ⟨[], .nil, rfl⟩

theorem spelling_cons (t : Token) (ts : List Token) (w : Text) :
    Spelling (t :: ts) w ↔ ∃ u v, w = u ++ v ∧ t.Denotes u ∧ Spelling ts v := by
  constructor
  · rintro ⟨ws, h, rfl⟩
    cases h with
    | cons hu hws => exact ⟨_, _, rfl, hu, _, hws, rfl⟩
  · rintro ⟨u, _, rfl, hu, ws, hws, rfl⟩
    exact ⟨u :: ws, .cons hu hws, rfl⟩

/-- Characters stand for themselves only. -/
theorem spelling_chars (s w : Text) : Spelling (s.map .char) w ↔ w = s := by
  induction s generalizing w with
  | nil => exact spelling_nil w
  | cons c s ih =>
    rw [List.map_cons, spelling_cons]
    constructor
    · rintro ⟨u, v, rfl, hu, hv⟩
      rw [(ih v).1 hv, show u = [c] from hu]
      rfl
    · rintro rfl
      exact ⟨[c], s, rfl, rfl, (ih s).2 rfl⟩

/-! ## Regular expressions of tokens -/

/-- A token of pure text as a regular expression. -/
def Token.source : Token → Text
  | .char c => if isSpecial c then ['\\', c] else [c]
  | .param p => p.source

theorem renderFrom_pureText (ts : List Token) : ∀ back, renderFrom .pureText back ts = ts.flatMap Token.source := by
  induction ts with
  | nil => intro back; rfl
  | cons t ts ih =>
    intro back
    cases t with
    | char c => rw [renderFrom, ih, List.flatMap_cons]; rfl
    | param p => rw [renderFrom, ih, List.flatMap_cons]; rfl

/-- Pure text is written token by token. -/
theorem render_pureText (ts : List Token) : render .pureText ts = ts.flatMap Token.source := by
  rw [render_eq_renderFrom, renderFrom_pureText]

/-! ## Each parameter writes what it stands for -/

theorem writes_anything : Writes (of ".*") (fun _ w _ => '\n' ∉ w) := by
  rw [show of ".*" = ['.'] ++ ['*'] by decide]
  refine (writesSet_dot.quantified feed_star nofun).congr fun before w after => ?_
  rw [many_star]
  simp only [notNewline_holds_iff]
  exact ⟨fun h hn => h _ hn rfl, fun h c hc he => h (he ▸ hc)⟩

theorem writes_digits : Writes (of "\\d+") (fun _ w _ => w ≠ [] ∧ ∀ c ∈ w, isDecimalDigit c = true) := by
  rw [show of "\\d+" = ['\\', 'd'] ++ ['+'] by decide]
  refine (writesSet_digit.quantified feed_plus nofun).congr fun before w after => ?_
  rw [many_plus]
  simp only [ofCategory_holds_iff]
  exact Iff.rfl

theorem Parameter.int_writes : Writes (Parameter.source .int) (fun _ w _ => Parameter.Denotes .int w) := by
  rw [show Parameter.source .int = (['-'] ++ ['?']) ++ of "\\d+" by decide]
  have hsign := WritesSet.maybe (writesSet_char (c := '-') (by decide))
  refine (hsign.append writes_digits (by decide)).congr fun before w after => ?_
  simp only [Span.seq, Parameter.Denotes]

theorem Parameter.float_writes : Writes (Parameter.source .float) (fun _ w _ => Parameter.Denotes .float w) := by
  rw [show Parameter.source .float =
    (['-'] ++ ['?']) ++ ((['\\', 'd'] ++ ['*']) ++ ((['\\', '.'] ++ ['?']) ++ of "\\d+")) by decide]
  have hsign := WritesSet.maybe (writesSet_char (c := '-') (by decide))
  have hwhole := writesSet_digit.quantified feed_star nofun
  have hpoint := WritesSet.maybe (writesSet_escaped (c := '.') (by decide))
  have hrest := hwhole.append (hpoint.append writes_digits (by decide)) (by decide)
  refine (hsign.append hrest (by decide)).congr fun before w after => ?_
  simp only [Span.seq, Parameter.Denotes, many_star, ofCategory_holds_iff]
  constructor
  · rintro ⟨sign, _, rfl, hs, whole, _, rfl, hw, point, digits, rfl, hp, hd⟩
    exact ⟨sign, whole, point, digits, rfl, hs, hw, hp, hd⟩
  · rintro ⟨sign, whole, point, digits, rfl, hs, hw, hp, hd⟩
    exact ⟨sign, _, rfl, hs, whole, _, rfl, hw, point, digits, rfl, hp, hd⟩

theorem Parameter.word_writes : Writes (Parameter.source .word) (fun _ w _ => Parameter.Denotes .word w) := by
  rw [show Parameter.source .word = ['[', '^', '\\', 's', ']'] ++ ['+'] by decide]
  refine (writesSet_notBlank.quantified feed_plus nofun).congr fun before w after => ?_
  rw [many_plus]
  simp only [ofCategory_holds_iff]
  exact Iff.rfl

/-- What stands between two quotes: a number of characters that are no such quote. -/
theorem writes_between {q mark : Char} (hq : isOperator q = false) {least : Nat}
    (hmark : ∀ d : Draft, d.Ready → d.feed mark = d.quantify least none) :
    Writes (q :: ['[', '^', q, ']', mark] ++ [q])
      (fun _ w _ => ∃ inner, w = q :: inner ++ [q] ∧ least ≤ inner.length ∧ q ∉ inner) := by
  have hback : q ≠ '\\' := by
    rintro rfl
    exact absurd hq (by decide)
  have hfresh : Fresh [q] := by
    rintro c ⟨⟩
    constructor <;> (rintro rfl; exact absurd hq (by decide))
  have hset := (writesSet_but hback).quantified hmark nofun
  have hinner := hset.append (writes_char hq) hfresh
  refine ((writes_char hq).append hinner (by rintro c ⟨⟩; decide)).congr fun before w after => ?_
  simp only [Span.seq, Many, literal_negated_holds_iff]
  constructor
  · rintro ⟨_, _, rfl, rfl, inner, _, rfl, ⟨hlen, _, hall⟩, rfl⟩
    exact ⟨inner, rfl, hlen, fun hm => hall _ hm rfl⟩
  · rintro ⟨inner, rfl, hlen, hno⟩
    exact ⟨[q], _, rfl, rfl, inner, [q], rfl, ⟨hlen, nofun, fun c hc he => hno (he ▸ hc)⟩, rfl⟩

theorem Parameter.doubleQuoted_writes :
    Writes (Parameter.source .doubleQuoted) (fun _ w _ => Parameter.Denotes .doubleQuoted w) := by
  rw [show Parameter.source .doubleQuoted = '"' :: ['[', '^', '"', ']', '+'] ++ ['"'] by decide]
  refine (writes_between (by decide) feed_plus).congr fun before w after => ?_
  simp only [Parameter.Denotes, Nat.one_le_iff_ne_zero, ne_eq, List.length_eq_zero_iff]

theorem Parameter.quoted_writes : Writes (Parameter.source .quoted) (fun _ w _ => Parameter.Denotes .quoted w) := by
  rw [show Parameter.source .quoted = '(' :: '?' :: ':' :: (('"' :: ['[', '^', '"', ']', '*'] ++ ['"']) ++ '|' ::
    ('\x27' :: ['[', '^', '\x27', ']', '*'] ++ ['\x27'])) ++ [')'] by decide]
  have hdouble := writes_between (q := '"') (by decide) feed_star
  have hsingle := writes_between (q := '\x27') (by decide) feed_star
  refine (hdouble.bar hsingle.choice).plainGroup.congr fun before w after => ?_
  simp only [Span.or, Nat.zero_le, true_and, Parameter.Denotes]
  constructor
  · rintro (⟨inner, h⟩ | ⟨inner, h⟩)
    · exact ⟨_, inner, Or.inl rfl, h⟩
    · exact ⟨_, inner, Or.inr rfl, h⟩
  · rintro ⟨quote, inner, rfl | rfl, h⟩
    · exact Or.inl ⟨inner, h⟩
    · exact Or.inr ⟨inner, h⟩

/-- A test that all operators pass. -/
theorem all_operator {p : Char → Bool} (h : (of "\\[()|*+?\x7b.^$").all p = true) {c : Char} (hc : isOperator c = true) :
    p c = true :=
  List.all_eq_true.1 h c (List.contains_iff_mem.1 hc)

theorem isOperator_of_isLetter {c : Char} (h : isLetter c = true) : isOperator c = false := by
  cases hop : isOperator c
  · rfl
  · have hnot := all_operator (p := fun x => !isLetter x) (by decide) hop
    simp [h] at hnot

theorem isLetter_of_isLowerLetter {c : Char} (h : isLowerLetter c = true) : isLetter c = true := by
  unfold isLetter
  rw [h, Bool.true_or]

theorem Parameter.optional_writes {letters : Text} (h : (Parameter.optional letters).Valid) :
    Writes (Parameter.source (.optional letters)) (fun _ w _ => Parameter.Denotes (.optional letters) w) := by
  have hplain : ∀ c ∈ letters, isOperator c = false :=
    fun c hc => isOperator_of_isLetter (isLetter_of_isLowerLetter (h.2 c hc))
  have hhead : letters.head? ≠ some '?' := by
    intro hh
    exact absurd (hplain _ (List.mem_of_mem_head? hh)) (by decide)
  rw [show Parameter.source (.optional letters) = ('(' :: letters ++ [')']) ++ ['?'] by
    rw [List.append_assoc]
    rfl]
  exact (writes_chars hplain).choice.optional hhead

/-- Words with bars between them write one of the words. -/
theorem writesChoice_words {words : List Text} (hne : words ≠ []) (h : ∀ w ∈ words, ∀ c ∈ w, isOperator c = false) :
    WritesChoice (Text.join ['|'] words) (fun _ w _ => w ∈ words) := by
  induction words with
  | nil => exact absurd rfl hne
  | cons word words ih =>
    have hfirst := writes_chars (h word (by simp))
    cases words with
    | nil =>
      rw [Text.join_singleton]
      exact (hfirst.congr fun before w after => by simp).choice
    | cons next rest =>
      have hrest := ih (List.cons_ne_nil _ _) fun w hw => h w (List.mem_cons_of_mem _ hw)
      rw [Text.join_cons (List.cons_ne_nil _ _)]
      exact (hfirst.bar hrest).congr fun before w after => List.mem_cons.symm

theorem Parameter.oneOf_writes {words : List Text} (h : (Parameter.oneOf words).Valid) :
    Writes (Parameter.source (.oneOf words)) (fun _ w _ => Parameter.Denotes (.oneOf words) w) := by
  obtain ⟨hlen, hwords⟩ := h
  have hplain : ∀ w ∈ words, ∀ c ∈ w, isOperator c = false :=
    fun w hw c hc => isOperator_of_isLetter ((hwords w hw).2 c hc)
  have hne : words ≠ [] := by
    rintro rfl
    exact absurd hlen (by decide)
  have hhead : (Text.join ['|'] words).head? ≠ some '?' := by
    intro hh
    rcases Text.mem_join (List.mem_of_mem_head? hh) with hbar | ⟨w, hw, hc⟩
    · exact absurd hbar (by decide)
    · exact absurd (hplain w hw _ hc) (by decide)
  exact (writesChoice_words hne hplain).group hhead

/-- The regular expression of a parameter writes what the parameter stands for. -/
theorem Parameter.writes {p : Parameter} (h : p.Valid) : Writes p.source (fun _ w _ => p.Denotes w) := by
  cases p with
  | anything => exact writes_anything
  | float => exact float_writes
  | int => exact int_writes
  | doubleQuoted => exact doubleQuoted_writes
  | word => exact word_writes
  | quoted => exact quoted_writes
  | optional letters => exact optional_writes h
  | oneOf words => exact oneOf_writes h

/-! ## All tokens together -/

/-- The regular expression of a token writes what the token stands for. -/
theorem Token.writes {t : Token} (h : ∀ p, t = .param p → p.Valid) : Writes t.source (fun _ w _ => t.Denotes w) := by
  cases t with
  | param p => exact p.writes (h p rfl)
  | char c =>
    simp only [Token.source]
    split
    · rename_i hs
      have hnot := all_special (p := fun x => !x.isAlphanum) (by decide) hs
      exact writes_escaped (by simpa using hnot)
    · rename_i hs
      refine writes_char ?_
      cases hop : isOperator c
      · rfl
      · exact absurd (all_operator (by decide) hop) hs

/-- The regular expression of a token does not begin with the mark of a quantifier. -/
theorem Token.fresh (t : Token) : t.source ≠ [] ∧ Fresh t.source := by
  cases t with
  | param p => cases p <;> exact ⟨List.cons_ne_nil _ _, by rintro c ⟨⟩; decide⟩
  | char c =>
    simp only [Token.source]
    split
    · exact ⟨List.cons_ne_nil _ _, by rintro c ⟨⟩; decide⟩
    · rename_i hs
      refine ⟨List.cons_ne_nil _ _, ?_⟩
      rintro c ⟨⟩
      constructor <;> (rintro rfl; exact hs (by decide))

theorem fresh_tokens (ts : List Token) : Fresh (ts.flatMap Token.source) := by
  cases ts with
  | nil => decide
  | cons t ts =>
    rw [List.flatMap_cons]
    intro c hc
    rw [List.head?_append_of_ne_nil _ t.fresh.1] at hc
    exact t.fresh.2 c hc

/-- The regular expressions of tokens, one after the other, write what the tokens stand for. -/
theorem writes_tokens {ts : List Token} (h : Token.AllValid ts) :
    Writes (ts.flatMap Token.source) (fun _ w _ => Spelling ts w) := by
  induction ts with
  | nil => exact writes_nil.congr fun _ w _ => (spelling_nil w).symm
  | cons t ts ih =>
    have hfirst := Token.writes (t := t) fun p hp => h p (by rw [hp]; simp)
    have hrest := ih fun p hp => h p (List.mem_cons_of_mem _ hp)
    rw [List.flatMap_cons]
    exact (hfirst.append hrest (fresh_tokens ts)).congr fun _ w _ => (spelling_cons t ts w).symm

end StepCatalog.Body
