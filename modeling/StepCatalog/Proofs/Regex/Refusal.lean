import Mathlib.Algebra.Group.Nat.Defs
import StepCatalog.Regex.Reader

/-!
# Patterns that are refused for no other reason than being malformed

A pattern that is no regular expression is malformed. There are two other reasons to refuse one: a count in braces that is too
large or too long to read, and flags that declare the whole pattern both ASCII and Unicode. Neither arises where counts have fewer
than ten digits (`shortCounts`) and the pattern does not begin with flags (`opensFlags`).

The reader is followed character by character: `Calm` says what holds of a draft before the rest of such a pattern.

Main statement: `ofText?_malformed`.
-/

namespace StepCatalog

/-- A numeral writes a number with as many digits at most. -/
theorem numeralValue_lt (digits : Text) : numeralValue digits < 10 ^ digits.length := by
  have hdigit : ∀ c, (digitValue? c).getD 0 ≤ 9 := by
    intro c
    unfold digitValue?
    cases h : zeroDigits.find? (fun z => z ≤ c.toNat && c.toNat ≤ z + 9) with
    | none => simp
    | some z =>
      have hz := List.find?_some h
      simp only [Bool.and_eq_true, decide_eq_true_eq] at hz
      simp only [Option.map_some, Option.getD_some]
      omega
  have hfold : ∀ (digits : Text) (n : Nat),
      digits.foldl (fun n c => n * 10 + (digitValue? c).getD 0) n < (n + 1) * 10 ^ digits.length := by
    intro digits
    induction digits with
    | nil => intro n; simp
    | cons c digits ih =>
      intro n
      have hc := hdigit c
      calc (c :: digits).foldl (fun n c => n * 10 + (digitValue? c).getD 0) n
          < (n * 10 + (digitValue? c).getD 0 + 1) * 10 ^ digits.length := ih _
        _ ≤ ((n + 1) * 10) * 10 ^ digits.length := Nat.mul_le_mul_right _ (by omega)
        _ = (n + 1) * 10 ^ (c :: digits).length := by
          rw [List.length_cons, Nat.pow_succ', Nat.mul_assoc]
  simpa [numeralValue] using hfold digits 0

namespace Regex

/-- The number of digits that every count in braces may have. -/
def countDigits : Nat := 9

/-- Whether a character stands in front of a count, if it stands in braces. -/
def opensCount (c : Char) : Bool := c == '\x7b' || c == ','

/-- The number of digits that a text begins with. -/
def digitsAhead (s : Text) : Nat := (s.takeWhile Char.isDigit).length

/-- Whether a text may follow a character: if a count may, it does not begin with more digits than `countDigits`. -/
def fewAhead (c : Char) (s : Text) : Bool := !opensCount c || digitsAhead s ≤ countDigits

/-- Whether no more digits than `countDigits` stand where a count may. -/
def shortCounts : Text → Bool
  | [] => true
  | c :: s => fewAhead c s && shortCounts s

/-- A digit in front is one more. -/
theorem digitsAhead_digit {c : Char} (h : c.isDigit = true) (s : Text) : digitsAhead (c :: s) = digitsAhead s + 1 := by
  simp [digitsAhead, h]

/-- Any other character in front leaves no digits ahead. -/
theorem digitsAhead_other {c : Char} (h : c.isDigit = false) (s : Text) : digitsAhead (c :: s) = 0 := by
  simp [digitsAhead, h]

/-- Whether a pattern begins with flags, or with a comment, which flags may follow. -/
def opensFlags : Text → Bool
  | '(' :: '?' :: c :: _ => isFlag c || c == '#'
  | _ => false

namespace Draft

/-- Whether anything has been read that flags for the whole pattern cannot follow. -/
def begun (d : Draft) : Bool := !(d.outer.isEmpty && d.level.alternatives.isEmpty && d.level.items.isEmpty)

/-- No flag for the whole pattern is in force. -/
structure Undeclared (d : Draft) : Prop where
  ascii : d.declaredAscii = false
  verbose : d.begun = false → d.level.flags.verbose = false

/-- What the mode of a draft may be before the rest of a pattern without long counts and without flags at its beginning. -/
def CalmMode (rest : Text) (d : Draft) : Prop :=
  match d.mode with
  | .item => d.begun = true ∨ opensFlags rest = false
  | .paren => d.begun = true ∨ opensFlags ('(' :: rest) = false
  | .question => d.begun = true ∨ opensFlags ('(' :: '?' :: rest) = false
  | .quantified _ _ => d.level.items ≠ []
  | .flagsOn _ | .comment | .commentEscape | .remark | .remarkEscape => d.begun = true
  | .braces lo none => lo.length + digitsAhead rest ≤ countDigits
  | .braces lo (some hi) => lo.length ≤ countDigits ∧ hi.length + digitsAhead rest ≤ countDigits
  | .refused _ | .refusedEscape _ => False
  | _ => True

/-- A draft before the rest of a pattern without long counts and without flags at its beginning. -/
structure Calm (rest : Text) (d : Draft) : Prop extends Undeclared d where
  mode : CalmMode rest d

/-- A reading gives a draft with a property, or the pattern is malformed. -/
def Gives (P : Draft → Prop) : Except Error Draft → Prop
  | .ok d => P d
  | .error e => e = .malformed

/-- What a reading gives may be said less exactly. -/
theorem Gives.mono {P Q : Draft → Prop} {r : Except Error Draft} (h : Gives P r) (hPQ : ∀ d, P d → Q d) : Gives Q r := by
  cases r with
  | ok d => exact hPQ d h
  | error e => exact h

/-- Two readings, one after the other. -/
theorem Gives.bind {P Q : Draft → Prop} {r : Except Error Draft} (h : Gives P r) {f : Draft → Except Error Draft}
    (hf : ∀ d, P d → Gives Q (f d)) : Gives Q (r >>= f) := by
  cases r with
  | ok d => exact hf d h
  | error e => exact h

/-! ## Drafts on which an item may follow -/

/-- Where an item may begin behind something that has been read. -/
structure Open (d : Draft) : Prop extends Undeclared d where
  mode : d.mode = .item
  begun : d.begun = true

/-- Where an item may begin, or a member of a set. -/
def Settled (d : Draft) : Prop := Open d ∨ (Undeclared d ∧ ∃ s stage, d.mode = .set s stage)

/-- A pattern with an item has begun. -/
theorem begun_of_items {d : Draft} (h : d.level.items ≠ []) : d.begun = true := by
  simp [Draft.begun, h]

/-- Behind a further item another one may begin. -/
theorem open_push {d : Draft} (h : d.declaredAscii = false) (n : Node) : (d.push n).Open := by
  have hbegun : (d.push n).begun = true := begun_of_items (List.cons_ne_nil _ _)
  exact ⟨⟨h, fun hb => absurd (hb.symm.trans hbegun) Bool.false_ne_true⟩, rfl, hbegun⟩

/-- Inside a new parenthesis an item may begin. -/
theorem open_enter {d : Draft} (h : d.declaredAscii = false) (o : Opening) (flags : Flags) : (d.enter o flags).Open := by
  have hbegun : (d.enter o flags).begun = true := rfl
  exact ⟨⟨h, fun hb => absurd (hb.symm.trans hbegun) Bool.false_ne_true⟩, rfl, hbegun⟩

/-- Where an item may begin, anything may follow. -/
theorem Open.calm {d : Draft} (h : d.Open) (rest : Text) : d.Calm rest := by
  refine ⟨h.toUndeclared, ?_⟩
  rw [CalmMode, h.mode]
  exact .inl h.begun

/-- A mode in which anything may follow. -/
theorem calm_of_mode {d : Draft} (h : d.Undeclared) {m : Mode} {rest : Text}
    (hm : CalmMode rest { d with mode := m }) : Calm rest { d with mode := m } :=
  ⟨⟨h.ascii, h.verbose⟩, hm⟩

/-- Where an item or a member of a set may begin, anything may follow. -/
theorem Settled.calm {d : Draft} (h : d.Settled) (rest : Text) : d.Calm rest := by
  rcases h with h | ⟨h, s, stage, hmode⟩
  · exact h.calm rest
  · refine ⟨h, ?_⟩
    rw [CalmMode, hmode]
    trivial

variable {d : Draft} {rest : Text} {c : Char}

/-- Behind a range a new member may begin, or the pattern is malformed. -/
theorem finishRange_settled (h : d.Undeclared) (s : SetDraft) (low high : Item) : Gives Settled (d.finishRange s low high) := by
  unfold finishRange
  split
  · split
    · exact .inr ⟨⟨h.ascii, h.verbose⟩, _, _, rfl⟩
    · rfl
  · rfl

/-- Behind a character that an escape names a new item or member may begin, or the pattern is malformed. -/
theorem deliver_settled (h : d.Undeclared) (t : Target) (item : Item) : Gives Settled (d.deliver t item) := by
  unfold deliver
  split
  · exact .inl (open_push h.ascii _)
  · exact .inl (open_push h.ascii _)
  · exact .inr ⟨⟨h.ascii, h.verbose⟩, _, _, rfl⟩
  · exact finishRange_settled h _ _ _

/-- Behind a reference an item may begin, or the pattern is malformed. -/
theorem pushReference_open (h : d.Undeclared) (i : Nat) : Gives Open (d.pushReference i) := by
  unfold pushReference
  split
  · exact open_push h.ascii _
  · rfl

/-- Behind an octal number a new item or member may begin, or the pattern is malformed. -/
theorem finishOctal_settled (h : d.Undeclared) (t : Target) (value : Nat) : Gives Settled (d.finishOctal t value) := by
  unfold finishOctal
  split
  · exact deliver_settled h t _
  · rfl

/-- Behind a hexadecimal number a new item or member may begin, or the pattern is malformed. -/
theorem finishHex_settled (h : d.Undeclared) (t : Target) (value : Nat) : Gives Settled (d.finishHex t value) := by
  unfold finishHex
  split
  · exact deliver_settled h t _
  · rfl

/-- Behind braces that are no quantifier an item may begin. -/
theorem open_unbrace (h : d.Undeclared) (lo : Text) (hi : Option Text) : (d.unbrace lo hi).Open := by
  have hfold : ∀ (s : Text) (d : Draft), d.Open → (s.foldl (fun d c => d.pushCode c.toNat) d).Open := by
    intro s
    induction s with
    | nil => exact fun d hd => hd
    | cons c s ih => exact fun d hd => ih _ (open_push hd.ascii _)
  exact hfold _ (d.pushCode _) (open_push h.ascii _)

/-- Behind a repetition an item may begin. -/
theorem open_repeatLast (h : d.Undeclared) (hitems : d.level.items ≠ []) (greed : Greed) (min : Nat) (max : Option Nat) :
    (d.repeatLast greed min max).Open := by
  unfold repeatLast
  cases hd : d.level.items with
  | nil => exact absurd hd hitems
  | cons n items =>
    have hbegun : ({ d with mode := .item, level := { d.level with items := .repeated greed min max n :: items } } : Draft).begun =
        true := begun_of_items (List.cons_ne_nil _ _)
    exact ⟨⟨h.ascii, fun hb => absurd (hb.symm.trans hbegun) Bool.false_ne_true⟩, rfl, hbegun⟩

/-! ## Items -/

/-- A quantifier has an item to repeat, or the pattern is malformed. -/
theorem quantify_calm (h : d.Undeclared) (min : Nat) (max : Option Nat) : Gives (Calm rest) (d.quantify min max) := by
  unfold quantify
  split
  · rfl
  · rfl
  · rfl
  · rename_i hitems
    exact ⟨⟨h.ascii, h.verbose⟩, by simp [CalmMode, hitems]⟩

/-- In the next alternative an item may begin, or the pattern is malformed. -/
theorem nextAlternative_open (h : d.Undeclared) (hmode : d.mode = .item) : Gives Open d.nextAlternative := by
  unfold nextAlternative
  split
  · rfl
  · have hbegun : ({ d with level := { d.level with
        alternatives := d.level.current :: d.level.alternatives, items := [] } } : Draft).begun = true := by
      simp [Draft.begun]
    exact ⟨⟨h.ascii, fun hb => absurd (hb.symm.trans hbegun) Bool.false_ne_true⟩, hmode, hbegun⟩

/-- Behind a closed parenthesis an item may begin, or the pattern is malformed. -/
theorem close_open (h : d.Undeclared) : Gives Open d.close := by
  unfold close
  split
  · simp [Gives, unbalanced, h.ascii]
  · simp only [Gives]
    split
    · exact open_push (by exact h.ascii) _
    · exact open_push (by exact h.ascii) _
    · exact open_push (by exact h.ascii) _
    · exact open_push (by exact h.ascii) _
    · exact open_push (by exact h.ascii) _
    · split <;> exact open_push (by exact h.ascii) _

/-- A character where an item may begin. -/
theorem feedItem_calm (h : d.Undeclared) (hmode : d.mode = .item) (hstart : d.begun = true ∨ opensFlags (c :: rest) = false)
    (hcount : fewAhead c rest = true) : Gives (Calm rest) (d.feedItem c) := by
  have hopen : ∀ {r}, Gives Open r → Gives (Calm rest) r := fun hr => hr.mono fun d hd => hd.calm rest
  -- a verbose pattern has begun with flags
  have hverbose : d.level.flags.verbose = true → d.begun = true := by
    intro hv
    cases hb : d.begun with
    | true => rfl
    | false =>
      rw [h.verbose hb] at hv
      cases hv
  unfold feedItem
  split
  · rename_i hv
    exact calm_of_mode h (.inl (hverbose (by simp_all)))
  · split
    · rename_i hv
      exact calm_of_mode h (hverbose (by simp_all))
    · split
      · exact calm_of_mode h trivial
      · exact calm_of_mode h trivial
      · exact calm_of_mode h hstart
      · exact hopen (close_open h)
      · exact hopen (nextAlternative_open h hmode)
      · exact quantify_calm h _ _
      · exact quantify_calm h _ _
      · exact quantify_calm h _ _
      · exact calm_of_mode h (by simpa [CalmMode, fewAhead, opensCount] using hcount)
      · exact hopen (open_push h.ascii _)
      · exact hopen (open_push h.ascii _)
      · exact hopen (open_push h.ascii _)
      · exact hopen (open_push h.ascii _)

/-- A character behind something that has been read. -/
theorem Open.feedItem (h : d.Open) (hcount : fewAhead c rest = true) : Gives (Calm rest) (d.feedItem c) :=
  feedItem_calm h.toUndeclared h.mode (.inl h.begun) hcount

/-! ## Sets and escapes -/

/-- A character where a member of a set may begin. -/
theorem feedMember_calm (h : d.Undeclared) (s : SetDraft) (c : Char) : Calm rest (d.feedMember s c) := by
  unfold feedMember
  split
  · exact (open_push h.ascii _).calm rest
  · split <;> exact calm_of_mode h trivial

/-- A character in a set. -/
theorem feedSet_calm (h : d.Undeclared) (s : SetDraft) (stage : SetStage) (c : Char) :
    Gives (Calm rest) (d.feedSet s stage c) := by
  unfold feedSet
  split
  · exact calm_of_mode h trivial
  · exact feedMember_calm h _ _
  · exact feedMember_calm h _ _
  · exact calm_of_mode h trivial
  · exact feedMember_calm h _ _
  · exact (open_push h.ascii _).calm rest
  · exact calm_of_mode h trivial
  · exact (finishRange_settled h _ _ _).mono fun d hd => hd.calm rest

/-- A character behind an octal number. -/
theorem Settled.refeed (h : d.Settled) (hcount : fewAhead c rest = true) : Gives (Calm rest) (d.refeed c) := by
  unfold Draft.refeed
  rcases h with h | ⟨h, s, stage, hmode⟩
  · rw [h.mode]
    exact h.feedItem hcount
  · rw [hmode]
    exact feedSet_calm h s stage c

/-- A character behind a backslash that names the same everywhere. -/
theorem feedCommonEscape_calm (h : d.Undeclared) (t : Target) (c : Char) :
    Gives (Calm rest) (d.feedCommonEscape t c) := by
  have hdeliver : ∀ item, Gives (Calm rest) (d.deliver t item) :=
    fun item => (deliver_settled h t item).mono fun d hd => hd.calm rest
  unfold feedCommonEscape
  split
  · exact hdeliver _
  · exact hdeliver _
  · split
    · exact calm_of_mode h trivial
    · exact calm_of_mode h trivial
    · exact calm_of_mode h trivial
    · split
      · rfl
      · exact hdeliver _

/-- A character behind a backslash. -/
theorem feedEscape_calm (h : d.Undeclared) (t : Target) (c : Char) : Gives (Calm rest) (d.feedEscape t c) := by
  unfold feedEscape
  split
  · split
    · exact (open_push h.ascii _).calm rest
    · split
      · exact calm_of_mode h trivial
      · split
        · exact calm_of_mode h trivial
        · exact feedCommonEscape_calm h _ c
  · split
    · exact (deliver_settled h _ _).mono fun d hd => hd.calm rest
    · split
      · exact calm_of_mode h trivial
      · exact feedCommonEscape_calm h _ c

/-- A character behind the digits of a reference. -/
theorem feedReference_calm (h : d.Undeclared) (first : Nat) (second : Option Nat) (hcount : fewAhead c rest = true) :
    Gives (Calm rest) (d.feedReference first second c) := by
  have hitem : ∀ i, Gives (Calm rest) (d.pushReference i >>= (·.feedItem c)) :=
    fun i => (pushReference_open h i).bind fun d hd => hd.feedItem hcount
  unfold feedReference
  split
  · split
    · exact calm_of_mode h trivial
    · exact hitem _
  · split
    · split
      · exact (finishOctal_settled h _ _).mono fun d hd => hd.calm rest
      · exact hitem _
    · exact hitem _

/-! ## Counts in braces -/

/-- A count of few digits can be read. -/
theorem count?_eq_ok {digits : Text} (h : digits.length ≤ countDigits) : ∃ n, count? digits = .ok n := by
  have hvalue : numeralValue digits < 10 ^ countDigits :=
    Nat.lt_of_lt_of_le (numeralValue_lt digits) (Nat.pow_le_pow_right (by decide) h)
  unfold countDigits at h hvalue
  unfold count?
  split
  · exact ⟨none, rfl⟩
  · rw [if_neg (by unfold maxNumeralDigits; omega), if_neg (by unfold repetitionLimit; omega)]
    exact ⟨_, rfl⟩

/-- Braces around counts of few digits are closed, or the pattern is malformed. -/
theorem closeBraces_calm (h : d.Undeclared) {lo hi : Text} (hlo : lo.length ≤ countDigits) (hhi : hi.length ≤ countDigits) :
    Gives (Calm rest) (d.closeBraces lo hi) := by
  obtain ⟨least, hleast⟩ := count?_eq_ok hlo
  obtain ⟨most, hmost⟩ := count?_eq_ok hhi
  simp only [closeBraces, hleast, hmost]
  split
  · rfl
  · exact quantify_calm h _ _

/-- A character in braces; a digit is one of those that were ahead. -/
theorem feedBraces_calm (h : d.Undeclared) {lo : Text} {hi : Option Text}
    (hbraces : match hi with
      | none => lo.length + digitsAhead (c :: rest) ≤ countDigits
      | some hi => lo.length ≤ countDigits ∧ hi.length + digitsAhead (c :: rest) ≤ countDigits)
    (hcount : fewAhead c rest = true) : Gives (Calm rest) (d.feedBraces lo hi c) := by
  have hunbrace : ∀ lo hi, Gives (Calm rest) ((d.unbrace lo hi).feedItem c) :=
    fun lo hi => (open_unbrace h lo hi).feedItem hcount
  unfold feedBraces
  split
  · split
    · exact hunbrace _ _
    · simp only at hbraces
      exact closeBraces_calm h (by rw [List.length_reverse]; omega) (by rw [List.length_reverse]; omega)
  · simp only at hbraces
    exact closeBraces_calm h (by rw [List.length_reverse]; omega) (by rw [List.length_reverse]; omega)
  · simp only at hbraces
    refine calm_of_mode h ?_
    have hlo : lo.length ≤ countDigits := by omega
    simpa [CalmMode, fewAhead, opensCount, hlo] using hcount
  · split
    · rename_i hc
      simp only [digitsAhead_digit hc] at hbraces
      refine calm_of_mode h ?_
      simp only [CalmMode, List.length_cons]
      omega
    · exact hunbrace _ _
  · split
    · rename_i hc
      simp only [digitsAhead_digit hc] at hbraces
      refine calm_of_mode h ?_
      simp only [CalmMode, List.length_cons]
      omega
    · exact hunbrace _ _

/-! ## Parentheses -/

/-- Inside a named group an item may begin, or the pattern is malformed. -/
theorem enterNamed_open (h : d.Undeclared) (name : Text) : Gives Open (d.enterNamed name) := by
  unfold enterNamed
  split
  · have hopen := open_enter h.ascii (.capture (d.groupCount + 1)) d.level.flags
    exact ⟨⟨hopen.ascii, hopen.verbose⟩, hopen.mode, hopen.begun⟩
  · rfl

/-- Behind a reference by name an item may begin, or the pattern is malformed. -/
theorem pushNamedReference_open (h : d.Undeclared) (name : Text) : Gives Open (d.pushNamedReference name) := by
  unfold pushNamedReference
  split
  · exact pushReference_open h _
  · rfl

/-- Inside a choice by a group an item may begin, or the pattern is malformed. -/
theorem enterCond_open (h : d.Undeclared) (name : Text) : Gives Open (d.enterCond name) := by
  unfold enterCond
  simp only
  split
  · rfl
  · split
    · exact open_enter (by exact h.ascii) _ _
    · rfl

/-- Inside a group with flags an item may begin, or the pattern is malformed. -/
theorem enterFlags_open (h : d.Undeclared) (on off : List Char) : Gives Open (d.enterFlags on off) := by
  unfold enterFlags
  split
  · rfl
  · exact open_enter h.ascii _ _

/-- A name, at whose end something is entered or referred to. -/
theorem feedName_calm (h : d.Undeclared) {stop : Char} {name : Text} {more : Text → Mode} {done : Text → Except Error Draft}
    (hmore : ∀ name, CalmMode rest { d with mode := more name }) (hdone : ∀ name, Gives Open (done name)) :
    Gives (Calm rest) (d.feedName stop name more done c) := by
  unfold feedName
  split
  · split
    · rfl
    · exact (hdone _).mono fun d hd => hd.calm rest
  · split
    · rfl
    · exact calm_of_mode h (hmore _)

/-- A flag is added, or the pattern is malformed. -/
theorem addFlag_eq (on : List Char) (c : Char) :
    addFlag on c = .ok (c :: on) ∧ isFlag c = true ∨ addFlag on c = .error .malformed := by
  unfold addFlag
  split
  · exact .inr rfl
  · rename_i hflag
    refine .inl ⟨rfl, ?_⟩
    cases hc : isFlag c with
    | true => rfl
    | false => simp [hc] at hflag

/-- A character among flags that are switched on, in a pattern that has begun. -/
theorem feedFlagsOn_calm (h : d.Undeclared) (hbegun : d.begun = true) (on : List Char) :
    Gives (Calm rest) (d.feedFlagsOn on c) := by
  unfold feedFlagsOn
  split
  · -- flags for the whole pattern come too late
    have hlate : (d.outer.isEmpty && d.level.alternatives.isEmpty && d.level.items.isEmpty) = false := by
      rw [Draft.begun, Bool.not_eq_true'] at hbegun
      exact hbegun
    rw [declare, hlate]
    rfl
  · exact (enterFlags_open h _ _).mono fun d hd => hd.calm rest
  · split
    · rfl
    · exact calm_of_mode h trivial
  · rcases addFlag_eq on c with ⟨hadd, -⟩ | hadd
    · rw [hadd]
      exact calm_of_mode h hbegun
    · rw [hadd]
      rfl

/-- A character among flags that are switched off. -/
theorem feedFlagsOff_calm (h : d.Undeclared) (on off : List Char) : Gives (Calm rest) (d.feedFlagsOff on off c) := by
  unfold feedFlagsOff
  split
  · exact (enterFlags_open h _ _).mono fun d hd => hd.calm rest
  · split
    · exact calm_of_mode h trivial
    · rfl

/-- A character behind `(?`, which begins no flags at the beginning of the pattern. -/
theorem feedQuestion_calm (h : d.Undeclared) (hstart : d.begun = true ∨ opensFlags ('(' :: '?' :: c :: rest) = false) :
    Gives (Calm rest) (d.feedQuestion c) := by
  have hopen : ∀ o flags, Calm rest (d.enter o flags) := fun o flags => (open_enter h.ascii o flags).calm rest
  unfold feedQuestion
  split
  · exact calm_of_mode h trivial
  · exact hopen _ _
  · refine calm_of_mode h ?_
    rcases hstart with hbegun | hflags
    · exact hbegun
    · cases hflags
  · exact hopen _ _
  · exact hopen _ _
  · exact calm_of_mode h trivial
  · exact calm_of_mode h trivial
  · exact hopen _ _
  · exact calm_of_mode h trivial
  · rcases addFlag_eq [] c with ⟨hadd, hflag⟩ | hadd
    · rw [hadd]
      refine calm_of_mode h ?_
      rcases hstart with hbegun | hflags
      · exact hbegun
      · simp [opensFlags, hflag] at hflags
    · rw [hadd]
      rfl

/-! ## The whole pattern -/

/-- One character of a pattern without long counts and without flags at its beginning. -/
theorem feed_calm (h : Calm (c :: rest) d) (hcount : fewAhead c rest = true) : Gives (Calm rest) (d.feed c) := by
  have hu := h.toUndeclared
  have hmode := h.mode
  unfold CalmMode at hmode
  unfold feed
  cases hm : d.mode with
  | item =>
    rw [hm] at hmode
    exact feedItem_calm hu hm hmode hcount
  | quantified min max =>
    rw [hm] at hmode
    have hopen : ∀ greed, (d.repeatLast greed min max).Open := fun greed => open_repeatLast hu hmode greed min max
    simp only
    split
    · exact (hopen _).calm rest
    · exact (hopen _).calm rest
    · exact (hopen _).feedItem hcount
  | braces lo hi =>
    refine feedBraces_calm hu ?_ hcount
    rw [hm] at hmode
    cases hi <;> exact hmode
  | refused e =>
    rw [hm] at hmode
    exact hmode.elim
  | refusedEscape e =>
    rw [hm] at hmode
    exact hmode.elim
  | escape t => exact feedEscape_calm hu t c
  | hex t left value =>
    simp only
    split
    · rfl
    · split
      · exact (finishHex_settled hu t _).mono fun d hd => hd.calm rest
      · exact calm_of_mode hu trivial
  | octal t left value =>
    simp only
    split
    · exact (finishOctal_settled hu t _).bind fun d hd => hd.refeed hcount
    · split
      · exact (finishOctal_settled hu t _).mono fun d hd => hd.calm rest
      · exact calm_of_mode hu trivial
  | reference first second => exact feedReference_calm hu first second hcount
  | set s stage => exact feedSet_calm hu s stage c
  | paren =>
    rw [hm] at hmode
    simp only
    split
    · rename_i hc
      subst hc
      exact calm_of_mode hu hmode
    · exact (open_enter (by exact hu.ascii) _ _).feedItem hcount
  | question =>
    rw [hm] at hmode
    exact feedQuestion_calm hu hmode
  | extension =>
    simp only
    split
    · exact calm_of_mode hu trivial
    · exact calm_of_mode hu trivial
    · rfl
  | lookBehind =>
    have hopen : ∀ negated, (d.enterBehind negated).Open := fun negated => open_enter (by exact hu.ascii) _ _
    simp only
    split
    · exact (hopen _).calm rest
    · exact (hopen _).calm rest
    · rfl
  | groupName name => exact feedName_calm hu (fun _ => trivial) (enterNamed_open hu)
  | referenceName name => exact feedName_calm hu (fun _ => trivial) (pushNamedReference_open hu)
  | condName name => exact feedName_calm hu (fun _ => trivial) (enterCond_open hu)
  | comment =>
    rw [hm] at hmode
    simp only
    split
    · exact calm_of_mode hu (.inl hmode)
    · split
      · exact calm_of_mode hu hmode
      · refine ⟨hu, ?_⟩
        rw [CalmMode, hm]
        exact hmode
  | commentEscape =>
    rw [hm] at hmode
    exact calm_of_mode hu hmode
  | remark =>
    rw [hm] at hmode
    simp only
    split
    · exact calm_of_mode hu (.inl hmode)
    · split
      · exact calm_of_mode hu hmode
      · refine ⟨hu, ?_⟩
        rw [CalmMode, hm]
        exact hmode
  | remarkEscape =>
    rw [hm] at hmode
    exact calm_of_mode hu hmode
  | flagsOn on =>
    rw [hm] at hmode
    exact feedFlagsOn_calm hu hmode on
  | flagsOff on off => exact feedFlagsOff_calm hu on off

/-- The rest of a pattern without long counts and without flags at its beginning. -/
theorem feedAll_calm (s : Text) : ∀ {d : Draft}, Calm s d → shortCounts s = true → Gives (Calm []) (d.feedAll s) := by
  induction s with
  | nil => exact fun h _ => h
  | cons c s ih =>
    intro d h hcounts
    rw [shortCounts, Bool.and_eq_true] at hcounts
    have hfeed : d.feedAll (c :: s) = d.feed c >>= fun d => d.feedAll s := rfl
    rw [hfeed]
    exact (feed_calm h hcounts.1).bind fun d hd => ih hd hcounts.2

/-- What is pending at the end is settled, or the pattern is malformed. -/
theorem settle_undeclared (h : Calm [] d) : Gives Undeclared d.settle := by
  have hu := h.toUndeclared
  have hmode := h.mode
  unfold CalmMode at hmode
  have hsettled : ∀ {r}, Gives Settled r → Gives Undeclared r := by
    intro r hr
    refine hr.mono fun d hd => ?_
    rcases hd with hd | hd
    · exact hd.toUndeclared
    · exact hd.1
  unfold settle
  split
  · exact hu
  · exact hu
  · rename_i min max hm
    rw [hm] at hmode
    exact (open_repeatLast hu hmode _ _ _).toUndeclared
  · exact (open_unbrace hu _ _).toUndeclared
  · rename_i e hm
    rw [hm] at hmode
    exact hmode.elim
  · exact hsettled (finishOctal_settled hu _ _)
  · exact (pushReference_open hu _).mono fun d hd => hd.toUndeclared
  · exact (pushReference_open hu _).mono fun d hd => hd.toUndeclared
  · rfl

/-- The end of a pattern is refused for nothing but being malformed. -/
theorem finish_malformed (h : Calm [] d) {e : Error} (he : d.finish = .error e) : e = .malformed := by
  have hsettle := settle_undeclared h
  unfold finish at he
  cases hs : d.settle with
  | error e' =>
    rw [hs] at he hsettle
    rw [← Except.error.inj he]
    exact hsettle
  | ok d' =>
    rw [hs] at he hsettle
    simp only [hsettle.ascii, Bool.false_and, Bool.false_eq_true, if_false] at he
    split at he
    · exact (Except.error.inj he).symm
    · split at he
      · exact (Except.error.inj he).symm
      · cases he

end Draft

/-- With short counts only and without flags at its beginning, a pattern is refused for nothing but being malformed. -/
theorem ofText?_malformed {s : Text} (hcounts : shortCounts s = true) (hflags : opensFlags s = false)
    {e : Error} (he : Node.ofText? s {} = .error e) : e = .malformed := by
  have hstart : (Draft.start {}).Calm s := ⟨⟨rfl, fun _ => rfl⟩, .inr hflags⟩
  have hread := Draft.feedAll_calm s hstart hcounts
  unfold Node.ofText? at he
  cases hd : (Draft.start {}).feedAll s with
  | error e' =>
    rw [hd] at he hread
    rw [← Except.error.inj he]
    exact hread
  | ok d =>
    rw [hd] at he hread
    exact Draft.finish_malformed hread he

example : Node.ofText? "a\x7b4294967295\x7d".toList {} = .error .repetitionTooLarge := by rfl

example : Node.ofText? "(?a)(?u)b".toList {} = .error .clashingFlags := by rfl

end Regex
end StepCatalog
