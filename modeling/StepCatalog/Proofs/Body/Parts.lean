import StepCatalog.Body.Compile
import StepCatalog.Proofs.Body.Language

/-!
# The parts of a regular expression

A regular expression is cut into parts at its spaces, and the leading pattern puts the parts together again with a way out around
each. So that no text has to be cut as a whole, `Passes` says which texts are cut nowhere, whatever follows them, and `Divides` says
what the parts of a text write; both are closed under the ways in which regular expressions are put together.

Main statement: `compile_of_writes` (a body whose regular expression and whose parts write something compiles, and its two patterns
are found just where these take something).
-/

namespace StepCatalog.Body

open Regex
open Text (of)

/-! ## Texts that are cut nowhere -/

/-- The parts with a text put in front of the first one. -/
def glue (u : Text) (parts : List Text) : List Text := u.foldr Text.consFirst parts

theorem glue_append (u v : Text) (parts : List Text) : glue (u ++ v) parts = glue u (glue v parts) :=
  List.foldr_append

theorem glue_cons (u part : Text) (parts : List Text) : glue u (part :: parts) = (u ++ part) :: parts := by
  induction u with
  | nil => rfl
  | cons c u ih =>
    rw [glue, List.foldr_cons, ← glue, ih]
    rfl

/-- At a depth of parentheses, the text is cut nowhere and leads back to the same depth. -/
def Passes (depth : Nat) (u : Text) : Prop := ∀ s, splitPartsFrom depth false (u ++ s) = glue u (splitPartsFrom depth false s)

theorem passes_nil (depth : Nat) : Passes depth [] := fun _ => rfl

theorem Passes.append {depth : Nat} {u v : Text} (hu : Passes depth u) (hv : Passes depth v) : Passes depth (u ++ v) := by
  intro s
  rw [List.append_assoc, hu, hv, glue_append]

/-- A character that opens, closes and escapes nothing, and is no space outside of parentheses. -/
theorem passes_char {depth : Nat} {c : Char} (h1 : c ≠ '\\') (h2 : c ≠ '(') (h3 : c ≠ ')') (h4 : c = ' ' → depth ≠ 0) :
    Passes depth [c] := by
  intro s
  have hblank : ¬ (c = ' ' && depth == 0) = true := by simpa using h4
  rw [List.singleton_append, splitPartsFrom, if_neg h1, if_neg h2, if_neg h3, if_neg hblank]
  rfl

/-- Any character behind a backslash. -/
theorem passes_escaped (depth : Nat) (c : Char) : Passes depth ['\\', c] := fun _ => rfl

/-- Parentheses around a text that is cut nowhere inside of them. -/
theorem Passes.group {depth : Nat} {u : Text} (h : Passes (depth + 1) u) : Passes depth ('(' :: u ++ [')']) := by
  intro s
  rw [List.cons_append, List.cons_append, List.append_assoc, splitPartsFrom, if_neg (by decide), if_pos rfl, h]
  rw [List.singleton_append, splitPartsFrom, if_neg (by decide), if_neg (by decide), if_pos rfl, Nat.add_sub_cancel]
  show glue ['('] (glue u (glue [')'] _)) = _
  rw [← glue_append, ← glue_append]
  rfl

theorem passes_chars {depth : Nat} {u : Text} (h : ∀ c ∈ u, c ≠ '\\' ∧ c ≠ '(' ∧ c ≠ ')' ∧ (c = ' ' → depth ≠ 0)) :
    Passes depth u := by
  induction u with
  | nil => exact passes_nil depth
  | cons c u ih =>
    obtain ⟨h1, h2, h3, h4⟩ := h c (by simp)
    exact (passes_char h1 h2 h3 h4).append (ih fun x hx => h x (List.mem_cons_of_mem _ hx))

/-! ## What the parts write -/

/-- The parts of the text write the spans, in order. -/
def Divides (s : Text) (Ls : List Span) : Prop := List.Forall₂ (fun part L => Writes part L ∧ Fresh part) (splitParts s) Ls

/-- The empty text is one part. -/
theorem divides_nil : Divides [] [fun _ w _ => w = []] :=
  .cons ⟨writes_nil, by decide⟩ .nil

/-- A space begins a new part. -/
theorem Divides.space {s : Text} {Ls : List Span} (h : Divides s Ls) : Divides (' ' :: s) ((fun _ w _ => w = []) :: Ls) :=
  .cons ⟨writes_nil, by decide⟩ h

/-- A text that is cut nowhere joins the first part. -/
theorem Divides.push {u s : Text} {L M N : Span} {Ls : List Span} (hp : Passes 0 u) (hu : Writes u L) (hf : Fresh u)
    (h : Divides s (M :: Ls)) (hN : ∀ before w after, Span.seq L M before w after ↔ N before w after) :
    Divides (u ++ s) (N :: Ls) := by
  unfold Divides at h ⊢
  rw [splitParts, hp s, ← splitParts]
  cases hs : splitParts s with
  | nil =>
    rw [hs] at h
    cases h
  | cons part parts =>
    rw [hs] at h
    cases h with
    | cons hfirst hrest =>
      rw [glue_cons]
      exact .cons ⟨(hu.append hfirst.1 hfirst.2).congr hN, hf.append hfirst.2⟩ hrest

/-! ## The leading pattern -/

/-- A space, or the end. -/
def gap : Span := Span.or (fun _ w _ => w = [' ']) Span.stop

/-- What the parts take one after the other, each of them or the end of the text, with a space or the end between two of them. -/
def chain : List Span → Span
  | [] => fun _ w _ => w = []
  | [L] => L.or Span.stop
  | L :: Ls => Span.seq (L.or Span.stop) (Span.seq gap (chain Ls))

theorem writes_gap : Writes (of "( |$)") gap := by
  rw [show of "( |$)" = '(' :: ([' '] ++ '|' :: ['$']) ++ [')'] by decide]
  exact ((writes_char (by decide)).bar writes_stop.choice).group (by decide)

/-- A part with the way out. -/
def way (part : Text) : Text := '(' :: part ++ of "|$)"

theorem writes_way {part : Text} {L : Span} (h : Writes part L) (hf : Fresh part) : Writes (way part) (L.or Span.stop) := by
  have hhead : (part ++ '|' :: ['$']).head? ≠ some '?' := by
    cases part with
    | nil => decide
    | cons c part =>
      intro hc
      exact (hf c rfl).1 (Option.some.inj hc)
  have hway : way part = '(' :: (part ++ '|' :: ['$']) ++ [')'] := by
    unfold way
    rw [show of "|$)" = ['|', '$', ')'] by decide]
    simp
  rw [hway]
  exact (h.bar writes_stop.choice).group hhead

/-- The ways of several parts, with gaps between them. -/
def ways (parts : List Text) : Text := Text.join (of "( |$)") (parts.map way)

theorem ways_cons (part next : Text) (rest : List Text) :
    ways (part :: next :: rest) = way part ++ (of "( |$)" ++ ways (next :: rest)) := by
  unfold ways
  rw [List.map_cons, Text.join_cons (by simp)]

theorem ways_singleton (part : Text) : ways [part] = way part := Text.join_singleton _ _

theorem fresh_ways (parts : List Text) : Fresh (ways parts) := by
  cases parts with
  | nil => decide
  | cons part parts =>
    cases parts with
    | nil =>
      rw [ways_singleton]
      rintro c ⟨⟩
      decide
    | cons next rest =>
      rw [ways_cons]
      rintro c ⟨⟩
      decide

theorem writes_ways {parts : List Text} {Ls : List Span} (h : List.Forall₂ (fun part L => Writes part L ∧ Fresh part) parts Ls) :
    Writes (ways parts) (chain Ls) := by
  induction h with
  | nil => exact writes_nil
  | @cons part L parts Ls hpart hrest ih =>
    cases hrest with
    | nil =>
      rw [ways_singleton]
      exact writes_way hpart.1 hpart.2
    | @cons next M rest Ms hnext hrest =>
      rw [ways_cons]
      exact (writes_way hpart.1 hpart.2).append (writes_gap.append ih (fresh_ways _)) (by rintro c ⟨⟩; decide)

/-- The leading pattern of parts that write something. -/
theorem Divides.writes_leadingOf {s : Text} {Ls : List Span} (h : Divides s Ls) :
    Writes (leadingOf (splitParts s)) (Span.seq Span.start (chain Ls)) :=
  writes_start.append (writes_ways h) (fresh_ways _)

/-! ## Compiling -/

/-- The pattern is found just where the span takes something. -/
def Pattern.Finds (p : Pattern) (L : Span) : Prop :=
  ∀ s, p.occursIn s = true ↔ ∃ pre w after, s = pre ++ (w ++ after) ∧ L pre.reverse w after

/-- A text that writes something is a pattern. -/
theorem pattern_of_writesChoice {s : Text} {L : Span} (h : WritesChoice s L) :
    ∃ p, Pattern.ofText? s = .ok p ∧ p.node.Regular ∧ ∀ before w after, p.node.Takes before w after ↔ L before w after := by
  obtain ⟨n, h1, h2, h3⟩ := ofText?_of_writesChoice h
  refine ⟨⟨s, n⟩, ?_, h2, h3⟩
  unfold Pattern.ofText?
  rw [h1]
  rfl

theorem Pattern.finds_of_takes {p : Pattern} {L : Span} (hp : p.node.Regular)
    (hL : ∀ before w after, p.node.Takes before w after ↔ L before w after) : p.Finds L := by
  intro s
  unfold Pattern.occursIn
  rw [search?_isSome_iff hp]
  simp only [hL]

/-- A body whose regular expression and whose parts write something compiles without a fallback. -/
theorem compile_of_writes {kind : Kind} {body s : Text} (hs : source kind true body = .ok s) {L : Span} (hL : WritesChoice s L)
    {Ls : List Span} (hLs : Divides s Ls) :
    ∃ c, compile kind body = .ok c ∧ c.fellBack = false ∧ c.full.Finds L ∧ c.leading.Finds (Span.seq Span.start (chain Ls)) := by
  obtain ⟨full, hfull, hr, ht⟩ := pattern_of_writesChoice hL
  obtain ⟨leading, hleading, hr', ht'⟩ := pattern_of_writesChoice hLs.writes_leadingOf.choice
  have h1 : fullPattern kind body = .ok full := by
    unfold fullPattern
    rw [hs]
    simp only [hfull]
  have h2 : leadingPattern? kind body = .ok (some leading) := by
    have hsource : leadingSource kind body = .ok (leadingOf (splitParts s)) := by
      unfold leadingSource
      rw [hs]
      rfl
    unfold leadingPattern?
    rw [hsource]
    simp only [hleading]
  refine ⟨⟨kind.display body, full, leading, false⟩, ?_, rfl, Pattern.finds_of_takes hr ht, Pattern.finds_of_takes hr' ht'⟩
  unfold compile
  rw [h1, h2]
  rfl

end StepCatalog.Body
