import StepCatalog.Body.Expansion
import StepCatalog.Body.Source
import StepCatalog.Proofs.Text.Parts

/-!
# The tokens of a body

A body is a list of tokens: characters that stand for themselves and parameters. The rules for parameters are stated here on
tokens, so that a parameter already found is one token that no rule looks into: only what stands for "any character" inside a pair
of braces may pass over it. Applied in order, each to all tokens, they give the tokens of a body (`tokens`).

From its tokens a body is written again stretch by stretch (`render`): every maximal run of characters is escaped on its own, and
every parameter is written as its regular expression.
-/

namespace StepCatalog.Body

open Text (of)

/-- A parameter of a body. -/
inductive Parameter where
  /-- Anything on the line. -/
  | anything
  | float
  | int
  | doubleQuoted
  | word
  | quoted
  /-- Letters that may be left out. -/
  | optional (letters : Text)
  /-- One of several words. -/
  | oneOf (words : List Text)
  deriving DecidableEq, Repr

/-- The regular expression of a parameter. -/
def Parameter.source : Parameter → Text
  | .anything => Body.anything
  | .float => of "-?\\d*\\.?\\d+"
  | .int => of "-?\\d+"
  | .doubleQuoted => of "\"[^\"]+\""
  | .word => of "[^\\s]+"
  | .quoted => of "(?:\"[^\"]*\"|'[^']*')"
  | .optional letters => '(' :: letters ++ of ")?"
  | .oneOf words => '(' :: Text.join ['|'] words ++ [')']

/-- A token of a body. -/
inductive Token where
  | char (c : Char)
  | param (p : Parameter)
  deriving DecidableEq, Repr

namespace Token

/-! ## The rules on tokens -/

/-- A rule: from the token in front and the tokens to come, the parameter that begins here and the number of its tokens. -/
abbrev Rule : Type := Option Token → List Token → Option (Parameter × Nat)

/-- The number of tokens in front of the next closing brace, if no line feed comes first. Parameters are passed over. -/
def untilBrace : List Token → Option Nat
  | [] => none
  | .char c :: ts => if c = '\x7d' then some 0 else if c = '\n' then none else (untilBrace ts).map (· + 1)
  | .param _ :: ts => (untilBrace ts).map (· + 1)

/-- The characters at the beginning of the tokens that satisfy `p`. -/
def leading (p : Char → Bool) : List Token → Text
  | .char c :: ts => if p c then c :: leading p ts else []
  | _ => []

/-- `#{..}`. -/
def interpolation : Rule
  | _, .char '#' :: .char '\x7b' :: ts => (untilBrace ts).map fun n => (.anything, n + 3)
  | _, _ => none

/-- A fixed name in braces. -/
def fixedParameter (name : Text) (p : Parameter) : Rule := fun _ ts =>
  if ((braced name).map Token.char).isPrefixOf ts then some (p, name.length + 2) else none

/-- Lower-case letters in parentheses. -/
def optionalText : Rule
  | _, .char '(' :: ts =>
    let letters := leading isLowerLetter ts
    match letters, ts.drop letters.length with
    | _ :: _, .char ')' :: _ => some (.optional letters, letters.length + 2)
    | _, _ => none
  | _, _ => none

/-- Words of letters with slashes between them, at least two. -/
def alternativeText : Rule := fun _ ts =>
  let words := (Text.splitOn '/' (leading (fun c => isLetter c || c == '/') ts)).takeWhile (!·.isEmpty)
  if 2 ≤ words.length then some (.oneOf words, (Text.join ['/'] words).length) else none

/-- Any name in braces on one line, if no backslash precedes it and it begins like no quantifier. -/
def customParameter : Rule
  | back, .char '\x7b' :: ts =>
    if back = some (.char '\\') || beginsCount (leading (fun _ => true) ts) then none
    else (untilBrace ts).map fun n => (.anything, n + 2)
  | _, _ => none

/-- The rules in the order in which they are applied. -/
def rules : List Rule := [
  interpolation,
  fixedParameter (of "float") .float,
  fixedParameter (of "int") .int,
  fixedParameter (of "stringInDoubleQuotes") .doubleQuoted,
  fixedParameter (of "word") .word,
  fixedParameter (of "string") .quoted,
  fixedParameter [] .anything,
  optionalText,
  alternativeText,
  customParameter]

/-- The tokens with every find of a rule replaced, where `skip` tokens of the last find are still to be passed over. -/
def rewriteFrom (rule : Rule) : Option Token → Nat → List Token → List Token
  | _, _, [] => []
  | _, skip + 1, t :: ts => rewriteFrom rule (some t) skip ts
  | back, 0, t :: ts =>
    match rule back (t :: ts) with
    | some (p, size) => .param p :: rewriteFrom rule (some t) (size - 1) ts
    | none => t :: rewriteFrom rule (some t) 0 ts

/-- The tokens with every find of a rule replaced by its parameter, from the left and without overlap. -/
def rewrite (ts : List Token) (rule : Rule) : List Token := rewriteFrom rule none 0 ts

end Token

/-- The tokens of a body. -/
def tokens (body : Text) : List Token := Token.rules.foldl Token.rewrite (body.map .char)

/-! ## What the parameters of a body hold -/

/-- The letters and words of a parameter are what its rule asks for. -/
def Parameter.Valid : Parameter → Prop
  | .optional letters => letters ≠ [] ∧ ∀ c ∈ letters, isLowerLetter c = true
  | .oneOf words => 2 ≤ words.length ∧ ∀ w ∈ words, w ≠ [] ∧ ∀ c ∈ w, isLetter c = true
  | _ => True

namespace Token

/-- The leading characters are of the kind that is asked for. -/
theorem leading_all {p : Char → Bool} (ts : List Token) : ∀ c ∈ leading p ts, p c = true := by
  induction ts with
  | nil => intro c hc; cases hc
  | cons t ts ih =>
    cases t with
    | param q => intro c hc; cases hc
    | char d =>
      intro c hc
      unfold leading at hc
      split at hc
      · rename_i hd
        rcases List.mem_cons.1 hc with rfl | hc
        · exact hd
        · exact ih c hc
      · cases hc

/-- Whatever a rule finds is a valid parameter. -/
def Rule.Sound (rule : Rule) : Prop := ∀ back ts p size, rule back ts = some (p, size) → p.Valid

/-- An interpolation is a valid parameter. -/
theorem interpolation_sound : interpolation.Sound := by
  intro back ts p size h
  unfold interpolation at h
  split at h
  · obtain ⟨n, -, hn⟩ := Option.map_eq_some_iff.1 h
    cases hn
    trivial
  · cases h

/-- A name in braces is a valid parameter. -/
theorem customParameter_sound : customParameter.Sound := by
  intro back ts p size h
  unfold customParameter at h
  split at h
  · split at h
    · cases h
    · obtain ⟨n, -, hn⟩ := Option.map_eq_some_iff.1 h
      cases hn
      trivial
  · cases h

/-- A fixed name is the parameter that it stands for. -/
theorem fixedParameter_sound {name : Text} {q : Parameter} (hq : q.Valid) : (fixedParameter name q).Sound := by
  intro back ts p size h
  unfold fixedParameter at h
  split at h
  · cases h
    exact hq
  · cases h

/-- Optional text is one lower letter or more. -/
theorem optionalText_sound : optionalText.Sound := by
  intro back ts p size h
  unfold optionalText at h
  split at h
  · rename_i ts
    simp only at h
    split at h
    · rename_i c letters _ hl _
      cases h
      refine ⟨?_, leading_all ts⟩
      rw [hl]
      exact List.cons_ne_nil _ _
    · cases h
  · cases h

/-- Alternative texts are two words or more, none of them empty and all of them letters. -/
theorem alternativeText_sound : alternativeText.Sound := by
  intro back ts p size h
  unfold alternativeText at h
  simp only at h
  split at h
  · rename_i hlen
    cases h
    refine ⟨hlen, fun w hw => ?_⟩
    have hne := List.all_eq_true.1 (List.all_takeWhile (p := fun w : Text => !w.isEmpty)) w hw
    have hpart := (List.takeWhile_prefix _).subset hw
    refine ⟨by simpa using hne, fun c hc => ?_⟩
    have hp := leading_all _ c (((splitOn_bounds '/' _).2 w hpart).2 c hc)
    rw [Bool.or_eq_true] at hp
    rcases hp with hp | hp
    · exact hp
    · rw [beq_iff_eq] at hp
      subst hp
      exact absurd hc (Text.not_mem_of_mem_splitOn hpart)
  · cases h

/-- All rules find valid parameters. -/
theorem rules_sound : ∀ rule ∈ rules, rule.Sound := by
  intro rule h
  simp only [rules, List.mem_cons, List.not_mem_nil, or_false] at h
  rcases h with rfl | rfl | rfl | rfl | rfl | rfl | rfl | rfl | rfl | rfl
  · exact interpolation_sound
  · exact fixedParameter_sound trivial
  · exact fixedParameter_sound trivial
  · exact fixedParameter_sound trivial
  · exact fixedParameter_sound trivial
  · exact fixedParameter_sound trivial
  · exact fixedParameter_sound trivial
  · exact optionalText_sound
  · exact alternativeText_sound
  · exact customParameter_sound

/-- Every parameter among the tokens is valid. -/
def AllValid (ts : List Token) : Prop := ∀ p, .param p ∈ ts → p.Valid

/-- A rule keeps the parameters valid: those it leaves, and those it finds. -/
theorem rewriteFrom_valid {rule : Rule} (hr : rule.Sound) (ts : List Token) :
    ∀ back skip, AllValid ts → AllValid (rewriteFrom rule back skip ts) := by
  induction ts with
  | nil =>
    intro back skip _ p hp
    simp [rewriteFrom] at hp
  | cons t ts ih =>
    intro back skip hts
    have htail : AllValid ts := fun p hp => hts p (List.mem_cons_of_mem _ hp)
    cases skip with
    | succ skip => exact ih _ _ htail
    | zero =>
      intro p hp
      rw [rewriteFrom] at hp
      split at hp
      · rename_i q size hq
        rcases List.mem_cons.1 hp with hp | hp
        · cases hp
          exact hr _ _ _ _ hq
        · exact ih _ _ htail p hp
      · rcases List.mem_cons.1 hp with hp | hp
        · exact hts p (by rw [hp]; simp)
        · exact ih _ _ htail p hp

/-- Rules, one after the other, keep the parameters valid. -/
theorem foldl_rewrite_valid (rs : List Rule) (hr : ∀ rule ∈ rs, rule.Sound) :
    ∀ ts, AllValid ts → AllValid (rs.foldl rewrite ts) := by
  induction rs with
  | nil => intro ts h; exact h
  | cons rule rs ih =>
    intro ts h
    rw [List.foldl_cons]
    exact ih (fun r hm => hr r (List.mem_cons_of_mem _ hm)) _ (rewriteFrom_valid (hr rule (by simp)) ts none 0 h)

end Token

/-- The parameters of a body are valid. -/
theorem tokens_valid (body : Text) : Token.AllValid (tokens body) := by
  refine Token.foldl_rewrite_valid _ Token.rules_sound _ ?_
  intro p hp
  simp at hp

/-! ## Writing tokens -/

/-- A part of a body: a run of characters, or a parameter. -/
inductive Stretch where
  | run (s : Text)
  | param (p : Parameter)
  deriving DecidableEq, Repr

/-- The parts of tokens, every run of characters as long as possible. -/
def stretches : List Token → List Stretch
  | [] => []
  | .param p :: ts => .param p :: stretches ts
  | .char c :: ts =>
    match stretches ts with
    | .run s :: rest => .run (c :: s) :: rest
    | rest => .run [c] :: rest

/-- A part as a regular expression. -/
def Stretch.write (kind : Kind) : Stretch → Text
  | .run s => kind.escape s
  | .param p => p.source

/-- Tokens as a regular expression. -/
def render (kind : Kind) (ts : List Token) : Text := (stretches ts).flatMap (Stretch.write kind)

/-- The regular expression of a body, written from its tokens. -/
def tokenSource (kind : Kind) (anchored : Bool) (body : Text) : Text :=
  match kind with
  | .pureText => '^' :: render .pureText (tokens body) ++ (if anchored then ['$'] else [])
  | .pattern => render .pattern (tokens body)

end StepCatalog.Body
