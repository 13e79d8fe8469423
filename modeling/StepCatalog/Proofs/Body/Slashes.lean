import StepCatalog.Body.Compile
import StepCatalog.Proofs.Body.Parking
import StepCatalog.Proofs.Regex.Slash

/-!
# Slashes in bodies that are regular expressions

In a body that is a regular expression already, a backslash is put in front of every slash that has none. This does not change the
expression: with its slashes escaped a text is read as the same tree, or refused for the same reason (`ofText?_escapeSlashes`). So a
body in which no rule finds a parameter is the expression that its author wrote.

Main statement: `source_keeps_expression`.
-/

namespace StepCatalog.Body

open Regex
open Text (of)

/-- A pattern is read to the same end with a backslash in front of each of its bare slashes. The character in front tells which
slashes are bare; the invariant is that it is a backslash wherever the reader waits for the character behind one. -/
theorem read_escapeFrom (s : Text) : ∀ (d : Draft) (back : Option Char), (d.mode.behindBackslash = true → back = some '\\') →
    d.feedAll (Kind.pattern.escapeFrom back s) >>= Draft.finish = d.feedAll s >>= Draft.finish := by
  induction s with
  | nil =>
    intro d back _
    rfl
  | cons c s ih =>
    intro d back hback
    -- the same character on both sides, with the rest behind it
    have hsame : d.feed c >>= (·.feedAll (Kind.pattern.escapeFrom (some c) s)) >>= Draft.finish =
        d.feed c >>= (·.feedAll s) >>= Draft.finish := by
      cases hfeed : d.feed c with
      | error e => rfl
      | ok d' =>
        refine ih d' (some c) fun hbehind => ?_
        by_contra hc
        rw [Draft.clear_feed (fun h => hc (congrArg some h)) d' hfeed] at hbehind
        cases hbehind
    have hcons : d.feedAll (c :: s) = d.feed c >>= (·.feedAll s) := rfl
    by_cases hbare : c = '/' ∧ back ≠ some '\\'
    · obtain ⟨rfl, hno⟩ := hbare
      have hmode : d.mode.behindBackslash = false := by
        rw [← Bool.not_eq_true]
        exact fun h => hno (hback h)
      have hescaped : d.feedAll (Kind.pattern.escapeFrom back ('/' :: s)) =
          d.feed '\\' >>= (·.feed '/') >>= (·.feedAll (Kind.pattern.escapeFrom (some '/') s)) := by
        rw [Kind.escapeFrom, Kind.escapeChar, if_pos ⟨rfl, hno⟩, bind_assoc]
        rfl
      rcases Draft.feed_slash hmode with heq | ⟨herror, e, hfeed, he⟩
      · rw [hescaped, heq, hcons]
        exact hsame
      · rw [hescaped, herror, hcons, hfeed]
        exact (Draft.read_slashedName s he).symm
    · rw [Kind.escapeFrom, Kind.escapeChar, if_neg hbare, hcons]
      exact hsame

/-- Escaping its bare slashes does not change a pattern. -/
theorem ofText?_escapeSlashes (s : Text) (flags : Flags) : Node.ofText? (escapeSlashes s) flags = Node.ofText? s flags := by
  have hescape : escapeSlashes s = Kind.pattern.escapeFrom none s := Kind.escape_eq_escapeFrom .pattern s
  rw [hescape]
  exact read_escapeFrom s (Draft.start flags) none fun h => by cases h

/-! ## Bodies without parameters -/

/-- Characters are written as their run is escaped. -/
theorem renderFrom_chars (kind : Kind) (s : Text) : ∀ back, renderFrom kind back (s.map .char) = kind.escapeFrom back s := by
  induction s with
  | nil => exact fun back => rfl
  | cons c s ih =>
    intro back
    rw [List.map_cons, renderFrom, Kind.escapeFrom, ih]

/-- A body in which no rule finds a parameter is escaped as a whole. -/
theorem unanchored_of_hits_nil (kind : Kind) {body : Text} (hnul : nul ∉ body)
    (hplain : ∀ rule ∈ parameterRules, Piece.hits (pieces rule body) = []) : unanchored kind body = .ok (kind.escape body) := by
  rw [unanchored_eq_render kind hnul, tokens_of_hits_nil hnul hplain, render_eq_renderFrom, renderFrom_chars,
    Kind.escape_eq_escapeFrom]

theorem Pattern.ofText?_eq_ok {s : Text} {p : Pattern} (h : Pattern.ofText? s = .ok p) : Node.ofText? s {} = .ok p.node := by
  unfold Pattern.ofText? at h
  cases hnode : Node.ofText? s {} with
  | error e =>
    rw [hnode] at h
    cases h
  | ok node =>
    rw [hnode] at h
    cases h
    rfl

theorem Pattern.ofText?_eq_error {s : Text} {e : Regex.Error} : Pattern.ofText? s = .error e ↔ Node.ofText? s {} = .error e := by
  unfold Pattern.ofText?
  cases Node.ofText? s {} with
  | error e' => constructor <;> (rintro ⟨⟩; rfl)
  | ok node => constructor <;> (intro h; cases h)

/-- A body without NUL in which no rule finds a parameter is written as it is, but for a backslash in front of each of its bare
slashes. The expression that is written is refused exactly if the body is, and for the same reason; otherwise the two find the same
in every text. -/
theorem source_keeps_expression (body : Text) (anchored : Bool) (hnul : nul ∉ body)
    (hplain : ∀ rule ∈ parameterRules, Piece.hits (pieces rule body) = []) :
    ∃ written, source .pattern anchored body = .ok written ∧
      (∀ e, Pattern.ofText? written = .error e ↔ Pattern.ofText? body = .error e) ∧
      ∀ p q, Pattern.ofText? written = .ok p → Pattern.ofText? body = .ok q →
        ∀ text, (p.occursIn text = true ↔ q.occursIn text = true) ∧ p.node.search? text = q.node.search? text := by
  have hread := ofText?_escapeSlashes body {}
  refine ⟨escapeSlashes body, ?_, fun e => ?_, fun p q hp hq text => ?_⟩
  · unfold source
    rw [unanchored_of_hits_nil .pattern hnul hplain]
    rfl
  · rw [Pattern.ofText?_eq_error, Pattern.ofText?_eq_error, hread]
  · have hnode : p.node = q.node := by
      have hp := Pattern.ofText?_eq_ok hp
      rw [hread, Pattern.ofText?_eq_ok hq] at hp
      exact (Except.ok.inj hp).symm
    refine ⟨?_, by rw [hnode]⟩
    unfold Pattern.occursIn
    rw [hnode]

/-- Slashes behind an escaped backslash, at the end of a range, in a brace that opens no quantifier, in a comment and at the end: the
expression is written with four more backslashes and still finds what its author meant. -/
theorem source_keeps_expression_everywhere :
    let body := of "^\\\\/[+-/]1\x7b2/3\x7d(?#1/2)/$"
    let text := of "\\/.1\x7b2/3\x7d/"
    nul ∉ body ∧ (∀ rule ∈ parameterRules, Piece.hits (pieces rule body) = []) ∧
      source .pattern true body = .ok (of "^\\\\/[+-\\/]1\x7b2\\/3\x7d(?#1\\/2)\\/$") ∧
      ∃ p q, Pattern.ofText? (of "^\\\\/[+-\\/]1\x7b2\\/3\x7d(?#1\\/2)\\/$") = .ok p ∧ Pattern.ofText? body = .ok q ∧
        q.occursIn text = true ∧ p.occursIn text = true := by
  intro body text
  have hnul : nul ∉ body := by decide
  have hplain : ∀ rule ∈ parameterRules, Piece.hits (pieces rule body) = [] := by decide +kernel
  have hwritten : source .pattern true body = .ok (of "^\\\\/[+-\\/]1\x7b2\\/3\x7d(?#1\\/2)\\/$") := by decide +kernel
  obtain ⟨written, hsource, hfails, hfinds⟩ := source_keeps_expression body true hnul hplain
  obtain rfl := Except.ok.inj (hwritten.symm.trans hsource)
  have hread : ((Pattern.ofText? body).toOption.map (·.occursIn text)) = some true := by decide +kernel
  cases hq : Pattern.ofText? body with
  | error e => simp [hq, Except.toOption] at hread
  | ok q =>
    cases hp : Pattern.ofText? (of "^\\\\/[+-\\/]1\x7b2\\/3\x7d(?#1\\/2)\\/$") with
    | error e =>
      rw [(hfails e).1 hp] at hq
      cases hq
    | ok p =>
      have hfound : q.occursIn text = true := by simpa [hq, Except.toOption] using hread
      exact ⟨hnul, hplain, hwritten, p, q, rfl, rfl, hfound, (hfinds p q hp hq text).1.2 hfound⟩

end StepCatalog.Body
