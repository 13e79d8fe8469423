import StepCatalog.Proofs.Text.Parts
import StepCatalog.Proofs.Text.Trim
import StepCatalog.Regex.Reader

/-!
# Slashes in regular expressions

A slash means nothing in a regular expression, and neither does a backslash in front of one. So a pattern is read as the same tree,
or refused for the same reason, with and without it, wherever the slash stands: among items, behind a quantifier or in the middle of
one, in a set or at an end of a range, in a comment (`feed_slash`). In one place the two readings part: a name may hold a slash until
it ends, and a backslash not at all. But no name with a slash in it is a name (`read_slashedName`), so that either reading ends
with a malformed pattern.

The only place where a slash must be left alone is behind a backslash, and there the reader is only if the character in front was one
(`clear_feed`).
-/

namespace StepCatalog.Regex

/-- Whether the character in front was a backslash that takes the next one. -/
def Mode.behindBackslash : Mode → Bool
  | .escape _ | .refusedEscape _ | .commentEscape | .remarkEscape => true
  | _ => false

namespace Draft

/-! ## Behind a backslash -/

/-- No draft that a reading gives is behind a backslash. -/
def Clear (r : Except Error Draft) : Prop := ∀ e, r = .ok e → e.mode.behindBackslash = false

/-- A draft that is not behind a backslash may be given. -/
theorem clear_ok {d : Draft} (h : d.mode.behindBackslash = false) : Clear (.ok d) := by
  rintro e ⟨⟩
  exact h

/-- A refused pattern leaves no draft behind a backslash. -/
theorem clear_error (e : Error) : Clear (.error e) := by
  intro d h
  cases h

/-- What is read after something else is clear, if it is from every draft that may have been reached. -/
theorem Clear.bind {r : Except Error Draft} {f : Draft → Except Error Draft} (h : ∀ d, r = .ok d → Clear (f d)) :
    Clear (r >>= f) := by
  cases r with
  | ok d => exact h d rfl
  | error e => exact clear_error e

variable {d : Draft} {c : Char}

/-- Behind a quantifier its mark may follow, or the pattern is refused. -/
theorem clear_quantify (min : Nat) (max : Option Nat) : Clear (d.quantify min max) := by
  unfold quantify
  split
  all_goals first | exact clear_error _ | exact clear_ok rfl

/-- A closed parenthesis is an item, behind which a new one may begin. -/
theorem clear_close : Clear d.close := by
  unfold close
  split
  · exact clear_error _
  · refine clear_ok ?_
    split
    · rfl
    · rfl
    · rfl
    · rfl
    · rfl
    · split <;> rfl

/-- Of the characters that begin an item only the backslash takes the next one. -/
theorem clear_feedItem (hmode : d.mode.behindBackslash = false) (hc : c ≠ '\\') : Clear (d.feedItem c) := by
  unfold feedItem
  split
  · exact clear_ok rfl
  split
  · exact clear_ok rfl
  split
  · exact absurd rfl hc
  · exact clear_ok rfl
  · exact clear_ok rfl
  · exact clear_close
  · unfold nextAlternative
    split
    · exact clear_error _
    · exact clear_ok hmode
  · exact clear_quantify _ _
  · exact clear_quantify _ _
  · exact clear_quantify _ _
  all_goals exact clear_ok rfl

/-- Of the characters that begin a member of a set only the backslash takes the next one. -/
theorem clear_feedMember (s : SetDraft) (hc : c ≠ '\\') : Clear (.ok (d.feedMember s c)) := by
  unfold feedMember
  split
  · exact clear_ok rfl
  · exact clear_ok rfl

/-- Behind the high end of a range a new member may begin, or the range is refused. -/
theorem clear_finishRange (s : SetDraft) (low high : Item) : Clear (d.finishRange s low high) := by
  unfold finishRange
  split
  · split
    · exact clear_ok rfl
    · exact clear_error _
  · exact clear_error _

/-- A character that an escape names is an item, a member of a set or the high end of a range. -/
theorem clear_deliver (t : Target) (item : Item) : Clear (d.deliver t item) := by
  unfold deliver
  split
  · exact clear_ok rfl
  · exact clear_ok rfl
  · exact clear_ok rfl
  · exact clear_finishRange _ _ _

/-- In a set only a backslash takes the next character. -/
theorem clear_feedSet (s : SetDraft) (stage : SetStage) (hc : c ≠ '\\') : Clear (d.feedSet s stage c) := by
  unfold feedSet
  split
  · exact clear_ok rfl
  · exact clear_feedMember s hc
  · exact clear_feedMember s hc
  · exact clear_ok rfl
  · exact clear_feedMember _ hc
  · exact clear_ok rfl
  · exact absurd rfl hc
  · exact clear_finishRange _ _ _

/-- An octal number names a character, or is too large. -/
theorem clear_finishOctal (t : Target) (value : Nat) : Clear (d.finishOctal t value) := by
  unfold finishOctal
  split
  · exact clear_deliver _ _
  · exact clear_error _

/-- A hexadecimal number names a character, or is too large. -/
theorem clear_finishHex (t : Target) (value : Nat) : Clear (d.finishHex t value) := by
  unfold finishHex
  split
  · exact clear_deliver _ _
  · exact clear_error _

/-- A character that ends an octal number is read as if it stood alone. -/
theorem clear_refeed (hmode : d.mode.behindBackslash = false) (hc : c ≠ '\\') : Clear (d.refeed c) := by
  unfold refeed
  split
  · exact clear_feedSet _ _ hc
  · exact clear_feedItem hmode hc

/-- A reference is an item, or its group is not closed. -/
theorem clear_pushReference (i : Nat) : Clear (d.pushReference i) := by
  unfold pushReference
  split
  · exact clear_ok rfl
  · exact clear_error _

/-- Behind the digits of a reference the next character is read as if it stood alone. -/
theorem clear_feedReference (first : Nat) (second : Option Nat) (hc : c ≠ '\\') : Clear (d.feedReference first second c) := by
  have hitem (i : Nat) : Clear (d.pushReference i >>= (·.feedItem c)) :=
    Clear.bind fun d' hd' => clear_feedItem (clear_pushReference i d' hd') hc
  unfold feedReference
  split
  · split
    · exact clear_ok rfl
    · exact hitem _
  · split
    · split
      · exact clear_finishOctal _ _
      · exact hitem _
    · exact hitem _

/-- An escape that is allowed everywhere takes its character or waits for digits. -/
theorem clear_feedCommonEscape (t : Target) : Clear (d.feedCommonEscape t c) := by
  unfold feedCommonEscape
  split
  · exact clear_deliver _ _
  · exact clear_deliver _ _
  · split
    · exact clear_ok rfl
    · exact clear_ok rfl
    · exact clear_ok rfl
    · split
      · exact clear_error _
      · exact clear_deliver _ _

/-- The character behind a backslash is taken, also if it is a backslash itself. -/
theorem clear_feedEscape (t : Target) : Clear (d.feedEscape t c) := by
  unfold feedEscape
  split
  · split
    · exact clear_ok rfl
    · split
      · exact clear_ok rfl
      · split
        · exact clear_ok rfl
        · exact clear_feedCommonEscape _
  · split
    · exact clear_deliver _ _
    · split
      · exact clear_ok rfl
      · exact clear_feedCommonEscape _

/-- Closed braces are a quantifier, or are refused. -/
theorem clear_closeBraces (lo hi : Text) : Clear (d.closeBraces lo hi) := by
  unfold closeBraces
  split
  · exact clear_ok rfl
  · exact clear_ok rfl
  · split
    · exact clear_error _
    · exact clear_quantify _ _

/-- Repeating the last item does not put the draft behind a backslash. -/
theorem behindBackslash_repeatLast (h : d.mode.behindBackslash = false) (greed : Greed) (min : Nat) (max : Option Nat) :
    (d.repeatLast greed min max).mode.behindBackslash = false := by
  unfold repeatLast
  split
  · exact h
  · rfl

/-- Braces that are no quantifier are characters, behind which a new item may begin. -/
theorem mode_unbrace (lo : Text) (hi : Option Text) : (d.unbrace lo hi).mode = .item := by
  have hpush : ∀ (s : Text) (e : Draft), e.mode = .item → (s.foldl (fun d c => d.pushCode c.toNat) e).mode = .item := by
    intro s
    induction s with
    | nil => exact fun e he => he
    | cons x s ih => exact fun e _ => ih _ rfl
  exact hpush _ (d.pushCode _) rfl

/-- A character that ends the digits in braces is read as if it stood alone. -/
theorem clear_feedBraces (lo : Text) (hi : Option Text) (hc : c ≠ '\\') : Clear (d.feedBraces lo hi c) := by
  have hitem (x : Char) (hx : x ≠ '\\') : Clear ((d.unbrace lo hi).feedItem x) :=
    clear_feedItem (by rw [mode_unbrace]; rfl) hx
  unfold feedBraces
  split
  · split
    · exact hitem _ (by decide)
    · exact clear_closeBraces _ _
  · exact clear_closeBraces _ _
  · exact clear_ok rfl
  · split
    · exact clear_ok rfl
    · exact hitem _ hc
  · split
    · exact clear_ok rfl
    · exact hitem _ hc

/-- No character behind `(?` takes the next one. -/
theorem clear_feedQuestion : Clear (d.feedQuestion c) := by
  unfold feedQuestion
  split
  all_goals try exact clear_ok rfl
  unfold addFlag
  split
  · exact clear_error _
  · exact clear_ok rfl

/-- Flags for a group open it, or clash. -/
theorem clear_enterFlags (on off : List Char) : Clear (d.enterFlags on off) := by
  unfold enterFlags
  split
  · exact clear_error _
  · exact clear_ok rfl

/-- No character among the flags that are switched on takes the next one. -/
theorem clear_feedFlagsOn (on : List Char) : Clear (d.feedFlagsOn on c) := by
  unfold feedFlagsOn
  split
  · unfold declare
    split
    · exact clear_ok rfl
    · exact clear_error _
  · exact clear_enterFlags _ _
  · split
    · exact clear_error _
    · exact clear_ok rfl
  · unfold addFlag
    split
    · exact clear_error _
    · exact clear_ok rfl

/-- No character among the flags that are switched off takes the next one. -/
theorem clear_feedFlagsOff (on off : List Char) : Clear (d.feedFlagsOff on off c) := by
  unfold feedFlagsOff
  split
  · exact clear_enterFlags _ _
  · split
    · exact clear_ok rfl
    · exact clear_error _

/-- No character of a name takes the next one, if what is done with the name does not either. -/
theorem clear_feedName {stop : Char} {name : Text} {more : Text → Mode} {done : Text → Except Error Draft}
    (hmore : ∀ name, (more name).behindBackslash = false) (hdone : Clear (done name.reverse)) :
    Clear (d.feedName stop name more done c) := by
  unfold feedName
  split
  · split
    · exact clear_error _
    · exact hdone
  · split
    · exact clear_error _
    · exact clear_ok (hmore _)

/-- A named group is opened, or its name is none. -/
theorem clear_enterNamed (name : Text) : Clear (d.enterNamed name) := by
  unfold enterNamed
  split
  · exact clear_ok rfl
  · exact clear_error _

/-- A reference by name is an item, or is refused. -/
theorem clear_pushNamedReference (name : Text) : Clear (d.pushNamedReference name) := by
  unfold pushNamedReference
  split
  · exact clear_pushReference _
  · exact clear_error _

/-- A choice by a group is opened, or its group is none. -/
theorem clear_enterCond (name : Text) : Clear (d.enterCond name) := by
  unfold enterCond
  simp only
  split
  · exact clear_error _
  · split
    · exact clear_ok rfl
    · exact clear_error _

/-- A reader is behind a backslash only if the last character was one. -/
theorem clear_feed (hc : c ≠ '\\') : Clear (d.feed c) := by
  unfold feed
  cases hm : d.mode with
  | item => exact clear_feedItem (by rw [hm]; rfl) hc
  | quantified min max =>
    have hlast (greed : Greed) : (d.repeatLast greed min max).mode.behindBackslash = false :=
      behindBackslash_repeatLast (by rw [hm]; rfl) greed min max
    simp only
    split
    · exact clear_ok (hlast _)
    · exact clear_ok (hlast _)
    · exact clear_feedItem (hlast _) hc
  | braces lo hi => exact clear_feedBraces lo hi hc
  | refused e =>
    simp only
    rw [if_neg hc]
    exact clear_error e
  | refusedEscape e => exact clear_error e
  | escape t => exact clear_feedEscape t
  | hex t left value =>
    simp only
    split
    · exact clear_error _
    · split
      · exact clear_finishHex _ _
      · exact clear_ok rfl
  | octal t left value =>
    simp only
    split
    · exact Clear.bind fun d' hd' => clear_refeed (clear_finishOctal _ _ d' hd') hc
    · split
      · exact clear_finishOctal _ _
      · exact clear_ok rfl
  | reference first second => exact clear_feedReference first second hc
  | set s stage => exact clear_feedSet s stage hc
  | paren =>
    simp only
    split
    · exact clear_ok rfl
    · exact clear_feedItem rfl hc
  | question => exact clear_feedQuestion
  | extension =>
    simp only
    split
    · exact clear_ok rfl
    · exact clear_ok rfl
    · exact clear_error _
  | lookBehind =>
    simp only
    split
    · exact clear_ok rfl
    · exact clear_ok rfl
    · exact clear_error _
  | groupName name => exact clear_feedName (fun _ => rfl) (clear_enterNamed _)
  | referenceName name => exact clear_feedName (fun _ => rfl) (clear_pushNamedReference _)
  | condName name => exact clear_feedName (fun _ => rfl) (clear_enterCond _)
  | comment =>
    refine clear_ok ?_
    rw [if_neg hc]
    split
    · rfl
    · rw [hm]
      rfl
  | commentEscape => exact clear_ok rfl
  | remark =>
    refine clear_ok ?_
    rw [if_neg hc]
    split
    · rfl
    · rw [hm]
      rfl
  | remarkEscape => exact clear_ok rfl
  | flagsOn on => exact clear_feedFlagsOn on
  | flagsOff on off => exact clear_feedFlagsOff on off

/-! ## Names with a slash -/

/-- A text with a slash is no name. -/
theorem isIdentifier_of_slash {name : Text} (h : '/' ∈ name) : isIdentifier name = false := by
  have hstart : isIdentifierStart '/' = false := by decide +kernel
  have hcontinue : isIdentifierContinue '/' = false := by decide +kernel
  cases name with
  | nil => rfl
  | cons x rest =>
    rw [isIdentifier, Bool.and_eq_false_iff]
    rcases List.mem_cons.1 h with rfl | hrest
    · exact .inl hstart
    · exact .inr (List.all_eq_false.2 ⟨_, hrest, by rw [hcontinue]; exact Bool.false_ne_true⟩)

/-- A text with a slash is no numeral, whatever underscores stand in it. -/
theorem groupedNumeral?_of_slash {s : Text} (h : '/' ∈ s) : groupedNumeral? s = none := by
  obtain ⟨part, hpart, hmem⟩ : ∃ part ∈ Text.splitOn '_' s, '/' ∈ part := by
    rw [← Text.join_splitOn '_' s] at h
    exact (Text.mem_join h).resolve_left (by decide)
  have hdigits : (Text.splitOn '_' s).all (fun p => !p.isEmpty && p.all isDecimalDigit) = false := by
    refine List.all_eq_false.2 ⟨part, hpart, fun hall => ?_⟩
    rw [Bool.and_eq_true] at hall
    exact absurd (List.all_eq_true.1 hall.2 _ hmem) (by decide +kernel)
  unfold groupedNumeral?
  simp only [hdigits]
  rfl

/-- A text with a slash is no number of a group. -/
theorem groupNumber?_of_slash {name : Text} (h : '/' ∈ name) : groupNumber? name = none := by
  have htrim : '/' ∈ Text.trim name := Text.mem_trim (by decide +kernel) h
  unfold groupNumber?
  split
  · rename_i s hs
    rw [hs] at htrim
    exact groupedNumeral?_of_slash ((List.mem_cons.1 htrim).resolve_left (by decide))
  · exact groupedNumeral?_of_slash htrim

/-- Inside a name that holds a slash. -/
def inSlashedName (d : Draft) : Prop :=
  match d.mode with
  | .groupName name | .referenceName name | .condName name => '/' ∈ name
  | _ => False

/-- A name with a slash goes on, or the pattern is malformed. -/
theorem feedName_of_slash {stop : Char} {name : Text} {more : Text → Mode} {done : Text → Except Error Draft} (h : '/' ∈ name)
    (hmore : ∀ e : Draft, e.mode = more (c :: name) → e.inSlashedName) (hdone : done name.reverse = .error .malformed) :
    d.feedName stop name more done c = .error .malformed ∨
      ∃ e, d.feedName stop name more done c = .ok e ∧ e.inSlashedName := by
  have hne : name.isEmpty = false := by
    cases name with
    | nil => cases h
    | cons x name => rfl
  unfold feedName
  split
  · rw [hne, hdone]
    exact .inl rfl
  · split
    · exact .inl rfl
    · exact .inr ⟨_, rfl, hmore _ rfl⟩

/-- Inside a name with a slash, the next character belongs to the name, or the pattern is malformed. -/
theorem feed_slashedName (h : d.inSlashedName) (c : Char) :
    d.feed c = .error .malformed ∨ ∃ e, d.feed c = .ok e ∧ e.inSlashedName := by
  have hmore {e : Draft} {name : Text} (h : '/' ∈ name)
      (he : e.mode = .groupName (c :: name) ∨ e.mode = .referenceName (c :: name) ∨ e.mode = .condName (c :: name)) :
      e.inSlashedName := by
    unfold inSlashedName
    rcases he with he | he | he <;> (rw [he]; exact List.mem_cons_of_mem c h)
  unfold inSlashedName at h
  unfold feed
  split at h
  · rename_i name hm
    have hdone : d.enterNamed name.reverse = .error .malformed := by
      rw [enterNamed, isIdentifier_of_slash (List.mem_reverse.2 h)]
      rfl
    simp only [hm]
    exact feedName_of_slash h (fun e he => hmore h (.inl he)) hdone
  · rename_i name hm
    have hdone : d.pushNamedReference name.reverse = .error .malformed := by
      rw [pushNamedReference, isIdentifier_of_slash (List.mem_reverse.2 h)]
    simp only [hm]
    exact feedName_of_slash h (fun e he => hmore h (.inr (.inl he))) hdone
  · rename_i name hm
    have hdone : d.enterCond name.reverse = .error .malformed := by
      rw [enterCond, isIdentifier_of_slash (List.mem_reverse.2 h), groupNumber?_of_slash (List.mem_reverse.2 h)]
      rfl
    simp only [hm]
    exact feedName_of_slash h (fun e he => hmore h (.inr (.inr he))) hdone
  · exact h.elim

/-- A pattern that ends inside a name is malformed. -/
theorem finish_slashedName (h : d.inSlashedName) : d.finish = .error .malformed := by
  unfold inSlashedName at h
  unfold finish settle
  split at h
  · rename_i name hm
    rw [hm]
  · rename_i name hm
    rw [hm]
  · rename_i name hm
    rw [hm]
  · exact h.elim

/-- A pattern is malformed once a name in it holds a slash. -/
theorem read_slashedName (s : Text) : ∀ {d : Draft}, d.inSlashedName → d.feedAll s >>= finish = .error .malformed := by
  induction s with
  | nil => exact fun h => finish_slashedName h
  | cons c s ih =>
    intro d h
    have hcons : d.feedAll (c :: s) = d.feed c >>= (·.feedAll s) := rfl
    rw [hcons]
    rcases feed_slashedName h c with hfeed | ⟨e, hfeed, he⟩
    · rw [hfeed]
      rfl
    · rw [hfeed]
      exact ih he

/-! ## With and without a backslash -/

/-- Where an item may begin, a slash stands for itself. -/
theorem feedItem_slash : d.feedItem '/' = .ok (d.pushCode 47) := by simp [feedItem, isLayout, isAsciiBlank]

/-- Where an item may begin, a slash is read alike with and without a backslash. -/
theorem feedItem_escapedSlash : d.feedItem '\\' >>= (·.feed '/') = d.feedItem '/' := by
  have hback : d.feedItem '\\' = .ok { d with mode := .escape .sequence } := by simp [feedItem, isLayout, isAsciiBlank]
  rw [hback, feedItem_slash]
  rfl

/-- In a set a slash is read alike with and without a backslash. -/
theorem feedSet_escapedSlash (s : SetDraft) (stage : SetStage) :
    d.feedSet s stage '\\' >>= (·.feed '/') = d.feedSet s stage '/' := by
  cases stage <;> rfl

/-- Behind an octal number a slash is read alike with and without a backslash. -/
theorem refeed_escapedSlash : d.refeed '\\' >>= (·.feed '/') = d.refeed '/' := by
  unfold refeed
  split
  · exact feedSet_escapedSlash _ _
  · exact feedItem_escapedSlash

/-- Behind a reference a slash is read alike with and without a backslash. -/
theorem feedReference_escapedSlash (first : Nat) (second : Option Nat) :
    d.feedReference first second '\\' >>= (·.feed '/') = d.feedReference first second '/' := by
  have hpush (i : Nat) : d.pushReference i >>= (·.feedItem '\\') >>= (·.feed '/') = d.pushReference i >>= (·.feedItem '/') := by
    cases d.pushReference i with
    | error e => rfl
    | ok d' => exact feedItem_escapedSlash
  cases second with
  | none => exact hpush _
  | some n => exact hpush _

/-- In braces a slash is read alike with and without a backslash: they are no quantifier. -/
theorem feedBraces_escapedSlash (lo : Text) (hi : Option Text) :
    d.feedBraces lo hi '\\' >>= (·.feed '/') = d.feedBraces lo hi '/' := by
  cases hi with
  | none => exact feedItem_escapedSlash
  | some more => exact feedItem_escapedSlash

/-- A draft is the same with its own mode put in. -/
theorem with_mode {mode : Mode} (h : d.mode = mode) : { d with mode := mode } = d := by
  subst h
  rfl

/-- A slash is read with a backslash in front as it is without one, or the pattern is malformed for its sake. -/
theorem feed_slash (h : d.mode.behindBackslash = false) :
    d.feed '\\' >>= (·.feed '/') = d.feed '/' ∨
      d.feed '\\' = .error .malformed ∧ ∃ e, d.feed '/' = .ok e ∧ e.inSlashedName := by
  unfold feed
  cases hm : d.mode with
  | item => exact .inl feedItem_escapedSlash
  | quantified min max => exact .inl feedItem_escapedSlash
  | braces lo hi => exact .inl (feedBraces_escapedSlash lo hi)
  | refused e => exact .inl rfl
  | refusedEscape e => rw [hm] at h; cases h
  | escape t => rw [hm] at h; cases h
  | hex t left value => exact .inl rfl
  | octal t left value =>
    left
    have hoctal : octalValue? '\\' = none ∧ octalValue? '/' = none := by decide
    simp only [hoctal.1, hoctal.2]
    cases d.finishOctal t value with
    | error e => rfl
    | ok d' => exact refeed_escapedSlash
  | reference first second => exact .inl (feedReference_escapedSlash first second)
  | set s stage => exact .inl (feedSet_escapedSlash s stage)
  | paren => exact .inl feedItem_escapedSlash
  | question => exact .inl rfl
  | extension => exact .inl rfl
  | lookBehind => exact .inl rfl
  | groupName name => exact .inr ⟨rfl, _, rfl, List.mem_cons_self⟩
  | referenceName name => exact .inr ⟨rfl, _, rfl, List.mem_cons_self⟩
  | condName name => exact .inr ⟨rfl, _, rfl, List.mem_cons_self⟩
  | comment => exact .inl (congrArg Except.ok (with_mode hm))
  | commentEscape => rw [hm] at h; cases h
  | remark => exact .inl (congrArg Except.ok (with_mode hm))
  | remarkEscape => rw [hm] at h; cases h
  | flagsOn on => exact .inl rfl
  | flagsOff on off => exact .inl rfl

end Draft
end StepCatalog.Regex
