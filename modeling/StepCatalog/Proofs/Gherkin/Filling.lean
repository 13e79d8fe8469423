import StepCatalog.Catalog.Registry
import StepCatalog.Proofs.Body.Parking

/-!
# Filling in placeholders at once

The placeholders of a line are filled in one after the other, each time at the first place where the name stands in brackets. Here
this is shown to be the same as writing the value of every placeholder in its own place, all at once (`foldl_fillNext`): what has
been filled in, an opening bracket that nothing closes, and a placeholder without a value are passed over by every later search.

Main statement: `stepLine?_fills_at_once`.
-/

namespace StepCatalog

/-- What stands in front of a character on a line. -/
theorem untilOnLine_eq_some {stop : Char} {s inner rest : Text} (h : untilOnLine stop s = some (inner, rest)) :
    s = inner ++ stop :: rest ∧ stop ∉ inner ∧ '\n' ∉ inner := by
  induction s generalizing inner with
  | nil => cases h
  | cons c s ih =>
    unfold untilOnLine at h
    split at h
    · rename_i hc
      cases h
      exact ⟨by rw [hc]; rfl, by simp, by simp⟩
    · rename_i hc
      split at h
      · cases h
      · rename_i hn
        obtain ⟨⟨inner, rest'⟩, hs, heq⟩ := Option.map_eq_some_iff.1 h
        cases heq
        obtain ⟨rfl, hstop, hline⟩ := ih hs
        exact ⟨rfl, by simp [hstop, Ne.symm hc], by simp [hline, Ne.symm hn]⟩

theorem untilOnLine_append {stop : Char} {inner : Text} (hstop : stop ∉ inner) (hline : '\n' ∉ inner) (rest : Text) :
    untilOnLine stop (inner ++ stop :: rest) = some (inner, rest) := by
  induction inner with
  | nil => simp [untilOnLine]
  | cons c inner ih =>
    rw [List.mem_cons, not_or] at hstop hline
    rw [List.cons_append, untilOnLine, if_neg (Ne.symm hstop.1), if_neg (Ne.symm hline.1), ih hstop.2 hline.2]
    rfl

namespace Gherkin

/-! ## Lines with placeholders -/

/-- A placeholder as it stands in a line. -/
def bracketed (name : Text) : Text := '<' :: name ++ ['>']

/-- The pieces of a line: placeholders, and characters, among which an opening bracket stands for itself if nothing closes it on the
line. -/
inductive Outlined : List (Piece Text) → Text → Prop
  | nil : Outlined [] []
  | hit (name : Text) {ps : List (Piece Text)} {s : Text} :
      '>' ∉ name → '\n' ∉ name → Outlined ps s → Outlined (.hit name :: ps) (bracketed name ++ s)
  | char (c : Char) {ps : List (Piece Text)} {s : Text} :
      (c = '<' → untilOnLine '>' s = none) → Outlined ps s → Outlined (.char c :: ps) (c :: s)

theorem placeholder_eq_none {back : Option Char} {c : Char} {s : Text} (h : placeholder back (c :: s) = none) (hc : c = '<') :
    untilOnLine '>' s = none := by
  subst hc
  exact Option.map_eq_none_iff.1 h

theorem placeholder_eq_some {back : Option Char} {c : Char} {s name : Text} {size : Nat}
    (h : placeholder back (c :: s) = some (name, size)) :
    ∃ rest, c :: s = bracketed name ++ rest ∧ '>' ∉ name ∧ '\n' ∉ name ∧ size = name.length + 2 := by
  unfold placeholder at h
  split at h
  · rename_i heq
    cases heq
    obtain ⟨⟨inner, rest⟩, hs, heq⟩ := Option.map_eq_some_iff.1 h
    cases heq
    obtain ⟨rfl, hstop, hline⟩ := untilOnLine_eq_some hs
    exact ⟨rest, by simp [bracketed], hstop, hline, rfl⟩
  · cases h

/-- A line consists of its pieces. -/
theorem outlined_piecesFrom (back : Option Char) (line : Text) : Outlined (piecesFrom placeholder back 0 line) line := by
  induction hlen : line.length using Nat.strongRecOn generalizing back line with
  | ind n ih =>
    cases line with
    | nil => exact .nil
    | cons c s =>
      subst hlen
      rw [piecesFrom]
      split
      · rename_i name size hfind
        obtain ⟨rest, hline, hstop, hname, rfl⟩ := placeholder_eq_some hfind
        have hs : s = (name ++ ['>']) ++ rest := (List.cons.inj hline).2
        have hsize : name.length + 2 - 1 = (name ++ ['>']).length := by simp
        rw [hline, hs, hsize, Body.piecesFrom_skip]
        exact .hit name hstop hname (ih rest.length (by simp [hs]; omega) _ rest rfl)
      · rename_i hfind
        exact .char c (placeholder_eq_none hfind) (ih s.length (by simp) _ s rfl)

theorem outlined_pieces (line : Text) : Outlined (pieces placeholder line) line := outlined_piecesFrom none line

theorem Outlined.of_mem_hits {ps : List (Piece Text)} {line : Text} (h : Outlined ps line) :
    ∀ name ∈ Piece.hits ps, '>' ∉ name ∧ '\n' ∉ name := by
  induction h with
  | nil => intro name hname; cases hname
  | hit name hstop hline _ ih =>
    intro other hother
    rcases List.mem_cons.1 hother with rfl | hother
    · exact ⟨hstop, hline⟩
    · exact ih other hother
  | char c _ _ ih => exact ih

/-! ## One placeholder after the other -/

/-- The line with the first placeholder of a name replaced, if the name is bound. -/
def fillNext (b : Bindings) (write : Text → Text) (line name : Text) : Text :=
  match Entries.get? name b with
  | some value => if value.isEmpty then line else Text.replaceFirst (bracketed name) (write value) line
  | none => line

theorem fillPlaceholders_eq (b : Bindings) (write : Text → Text) (names : List Text) (line : Text) :
    fillPlaceholders b write names line = names.foldl (fillNext b write) line := rfl

/-- What a placeholder becomes: its value, as `write` gives it, or itself if its name is not bound. -/
def placeholderText (b : Bindings) (write : Text → Text) (name : Text) : Text :=
  match Entries.get? name b with
  | some value => write value
  | none => bracketed name

section

variable {b : Bindings} {write : Text → Text}

/-- A replacement that finds nothing at a character goes on behind it. -/
theorem replaceFirst_cons {old new : Text} {c : Char} {s : Text} (h : ∀ rest, c :: s ≠ old ++ rest) :
    Text.replaceFirst old new (c :: s) = c :: Text.replaceFirst old new s := by
  have hnone : Text.after? old (c :: s) = none := by
    cases hafter : Text.after? old (c :: s) with
    | none => rfl
    | some rest => exact absurd (Text.after?_eq_some_iff.1 hafter) (h rest)
  rw [Text.replaceFirst, hnone]

theorem replaceFirst_bracketed (name new rest : Text) :
    Text.replaceFirst (bracketed name) new (bracketed name ++ rest) = new ++ rest := by
  have hafter : Text.after? (bracketed name) (bracketed name ++ rest) = some rest := Text.after?_eq_some_iff.2 rfl
  rw [bracketed, List.cons_append, List.cons_append] at hafter ⊢
  rw [Text.replaceFirst, hafter]

/-- Behind the opening bracket of a placeholder stands its name, up to the closing one. -/
theorem untilOnLine_of_bracketed {name s rest : Text} (hname : '>' ∉ name ∧ '\n' ∉ name) (h : '<' :: s = bracketed name ++ rest) :
    untilOnLine '>' s = some (name, rest) := by
  have hs : s = name ++ '>' :: rest := by simpa [bracketed] using h
  rw [hs, untilOnLine_append hname.1 hname.2]

/-- Filling in a name goes on behind a character at which no placeholder of a bound name stands. -/
theorem fillNext_cons {name : Text} {c : Char} {s : Text}
    (h : ∀ rest, (Entries.get? name b).isSome = true → c :: s ≠ bracketed name ++ rest) :
    fillNext b write (c :: s) name = c :: fillNext b write s name := by
  unfold fillNext
  split
  · rename_i value hvalue
    split
    · rfl
    · exact replaceFirst_cons fun rest => h rest (by rw [hvalue]; rfl)
  · rfl

/-- Filling in names goes on behind a text without opening brackets. -/
theorem foldl_fillNext_append {u : Text} (hu : '<' ∉ u) (names : List Text) (s : Text) :
    names.foldl (fillNext b write) (u ++ s) = u ++ names.foldl (fillNext b write) s := by
  have hcons : ∀ c ≠ '<', ∀ (names : List Text) (s : Text),
      names.foldl (fillNext b write) (c :: s) = c :: names.foldl (fillNext b write) s := by
    intro c hc names
    induction names with
    | nil => intro s; rfl
    | cons name names ih =>
      intro s
      rw [List.foldl_cons, List.foldl_cons, fillNext_cons fun rest _ heq => hc (List.cons.inj heq).1, ih]
  induction u with
  | nil => rfl
  | cons c u ih =>
    rw [List.mem_cons, not_or] at hu
    rw [List.cons_append, List.cons_append, hcons c (Ne.symm hu.1), ih hu.2]

/-- Filling in a name leaves a line open that nothing closes. -/
theorem untilOnLine_fillNext {name s : Text} (hname : '>' ∉ name ∧ '\n' ∉ name) (h : untilOnLine '>' s = none) :
    untilOnLine '>' (fillNext b write s name) = none := by
  induction s with
  | nil =>
    have hnil : fillNext b write [] name = [] := by
      unfold fillNext
      split
      · split <;> rfl
      · rfl
    rw [hnil]
    rfl
  | cons c s ih =>
    have hopen : ∀ rest, c :: s ≠ bracketed name ++ rest := by
      intro rest heq
      obtain rfl : c = '<' := (List.cons.inj heq).1
      have hclosed := untilOnLine_of_bracketed hname heq
      simp [untilOnLine, hclosed] at h
    rw [fillNext_cons fun rest _ => hopen rest]
    unfold untilOnLine at h ⊢
    split at h
    · cases h
    · rename_i hc
      rw [if_neg hc]
      split at h
      · rename_i hn
        rw [if_pos hn]
      · rename_i hn
        rw [if_neg hn, ih (Option.map_eq_none_iff.1 h)]
        rfl

/-- Filling in names goes on behind an opening bracket that nothing closes. -/
theorem foldl_fillNext_open {names : List Text} (hnames : ∀ name ∈ names, '>' ∉ name ∧ '\n' ∉ name) {s : Text}
    (h : untilOnLine '>' s = none) :
    names.foldl (fillNext b write) ('<' :: s) = '<' :: names.foldl (fillNext b write) s := by
  induction names generalizing s with
  | nil => rfl
  | cons name names ih =>
    rw [List.forall_mem_cons] at hnames
    have hopen : ∀ rest, '<' :: s ≠ bracketed name ++ rest := by
      intro rest heq
      rw [untilOnLine_of_bracketed hnames.1 heq] at h
      cases h
    rw [List.foldl_cons, List.foldl_cons, fillNext_cons fun rest _ => hopen rest]
    exact ih hnames.2 (untilOnLine_fillNext hnames.1 h)

/-- Filling in names goes on behind a placeholder whose name is not bound. -/
theorem foldl_fillNext_unbound {unbound : Text} (hunbound : Entries.get? unbound b = none) (hplain : '>' ∉ unbound ∧ '\n' ∉ unbound)
    (hbracket : '<' ∉ unbound) {names : List Text} (hnames : ∀ name ∈ names, '>' ∉ name ∧ '\n' ∉ name) (s : Text) :
    names.foldl (fillNext b write) (bracketed unbound ++ s) = bracketed unbound ++ names.foldl (fillNext b write) s := by
  induction names generalizing s with
  | nil => rfl
  | cons name names ih =>
    rw [List.forall_mem_cons] at hnames
    have hinner : '<' ∉ unbound ++ ['>'] := by simp [hbracket]
    have hother : ∀ rest, (Entries.get? name b).isSome = true → '<' :: ((unbound ++ ['>']) ++ s) ≠ bracketed name ++ rest := by
      intro rest hbound heq
      have hname := untilOnLine_of_bracketed hnames.1 heq
      have hown : untilOnLine '>' ((unbound ++ ['>']) ++ s) = some (unbound, s) := untilOnLine_of_bracketed hplain rfl
      rw [hown] at hname
      cases hname
      rw [hunbound] at hbound
      cases hbound
    have hstep : fillNext b write (bracketed unbound ++ s) name = bracketed unbound ++ fillNext b write s name := by
      have hbehind : fillNext b write ((unbound ++ ['>']) ++ s) name = (unbound ++ ['>']) ++ fillNext b write s name :=
        foldl_fillNext_append hinner [name] s
      show fillNext b write ('<' :: ((unbound ++ ['>']) ++ s)) name = _
      rw [fillNext_cons hother, hbehind]
      rfl
    rw [List.foldl_cons, List.foldl_cons, hstep, ih hnames.2]

/-- Filling in the placeholders of a line one after the other writes the value of each in its own place. -/
theorem Outlined.foldl_fillNext {ps : List (Piece Text)} {line : Text} (h : Outlined ps line)
    (hnames : ∀ name ∈ Piece.hits ps, '<' ∉ name)
    (hvalues : ∀ name value, Entries.get? name b = some value → value ≠ [] ∧ '<' ∉ write value) :
    (Piece.hits ps).foldl (fillNext b write) line = Piece.render (placeholderText b write) ps := by
  induction h with
  | nil => rfl
  | @hit name ps s hstop hline hrest ih =>
    have hlater : ∀ name ∈ Piece.hits ps, '<' ∉ name := fun other hother => hnames other (List.mem_cons_of_mem _ hother)
    have hrender : Piece.render (placeholderText b write) (.hit name :: ps) =
        placeholderText b write name ++ Piece.render (placeholderText b write) ps := List.flatMap_cons
    show (Piece.hits ps).foldl (fillNext b write) (fillNext b write (bracketed name ++ s) name) = _
    rw [hrender, ← ih hlater]
    cases hget : Entries.get? name b with
    | none =>
      rw [fillNext, placeholderText, hget]
      exact foldl_fillNext_unbound hget ⟨hstop, hline⟩ (hnames name (by simp [Piece.hits])) hrest.of_mem_hits s
    | some value =>
      obtain ⟨hne, hvalue⟩ := hvalues name value hget
      have hfilled : fillNext b write (bracketed name ++ s) name = write value ++ s := by
        rw [fillNext, hget]
        simp only [List.isEmpty_iff, hne, if_false]
        exact replaceFirst_bracketed name (write value) s
      rw [hfilled, placeholderText, hget]
      exact foldl_fillNext_append hvalue _ s
  | @char c ps s hopen hrest ih =>
    have hrender : Piece.render (placeholderText b write) (.char c :: ps) =
        c :: Piece.render (placeholderText b write) ps := List.flatMap_cons
    have hhits : Piece.hits (.char c :: ps) = Piece.hits ps := rfl
    rw [hhits] at hnames ⊢
    rw [hrender, ← ih hnames]
    by_cases hc : c = '<'
    · subst hc
      exact foldl_fillNext_open hrest.of_mem_hits (hopen rfl)
    · exact foldl_fillNext_append (u := [c]) (by simpa using Ne.symm hc) _ s

/-- Written as they stand, the pieces of a line give the line. -/
theorem Outlined.render_bracketed {ps : List (Piece Text)} {line : Text} (h : Outlined ps line) :
    Piece.render bracketed ps = line := by
  induction h with
  | nil => rfl
  | hit name _ _ _ ih => rw [Piece.render, List.flatMap_cons, ← Piece.render, ih]
  | char c _ _ ih => rw [Piece.render, List.flatMap_cons, ← Piece.render, ih]; rfl

end

/-! ## Values -/

/-- A row binds no name to the empty text. -/
theorem ne_nil_of_get?_bindRow {names values : List Text} {name value : Text}
    (h : Entries.get? name (bindRow names values) = some value) : value ≠ [] := by
  have hfold : ∀ (cells : List (Text × Text)) (b : Bindings), (∀ name value, Entries.get? name b = some value → value ≠ []) →
      ∀ name value, Entries.get? name
        (cells.foldl (fun b cell => if cell.2.isEmpty then b else Entries.put cell.1 cell.2 b) b) = some value →
      value ≠ [] := by
    intro cells
    induction cells with
    | nil => exact fun b hb => hb
    | cons cell cells ih =>
      intro b hb
      refine ih _ fun name value hget => ?_
      dsimp only at hget
      split at hget
      · exact hb name value hget
      · rename_i hne
        rw [Entries.get?_put] at hget
        split at hget
        · cases hget
          simpa using hne
        · exact hb name value hget
  exact hfold _ [] (by simp [Entries.get?]) name value h

theorem ne_nil_of_get?_bindingsIn {ls : List Language} {lines : List Text} {name value : Text}
    (h : Entries.get? name (bindingsIn ls lines) = some value) : value ≠ [] := by
  fun_induction bindingsIn ls lines with
  | case1 header names values rest _ => exact ne_nil_of_get?_bindRow h
  | case2 header names values rest _ ih => exact ih h
  | case3 => cases h

/-- The line in which every bound placeholder has been replaced by its value, in its own place. -/
def filledLine (b : Bindings) (write : Text → Text) (line : Text) : Text := substitute placeholder (placeholderText b write) line

/-- Placeholders that are filled in one after the other are filled in at once. -/
theorem fillPlaceholders_eq_filledLine {b : Bindings} {write : Text → Text} {line : Text}
    (hnames : ∀ name ∈ placeholderNames line, '<' ∉ name)
    (hvalues : ∀ name value, Entries.get? name b = some value → value ≠ [] ∧ '<' ∉ write value) :
    fillPlaceholders b write (placeholderNames line) line = filledLine b write line := by
  rw [fillPlaceholders_eq]
  exact (outlined_pieces line).foldl_fillNext hnames hvalues

/-- The step line of a line with placeholders, from the line with quoted values and the line with bare values. -/
theorem stepLineIn?_eq {ls : List Language} {known : Text → Bool} {line : Text} {document : List Text} {lineNumber : Int}
    (hnames : ∀ name ∈ placeholderNames line, '<' ∉ name)
    (hvalues : ∀ name value, Entries.get? name (outlineBindings ls document lineNumber) = some value → '<' ∉ value) :
    stepLineIn? ls known line document lineNumber =
      match StepLine.parse? ls (filledLine (outlineBindings ls document lineNumber) quoted line) with
      | some s =>
        if !s.text.isEmpty && known s.text then some s
        else StepLine.parse? ls (filledLine (outlineBindings ls document lineNumber) id line)
      | none => StepLine.parse? ls (filledLine (outlineBindings ls document lineNumber) id line) := by
  have hne : ∀ name value, Entries.get? name (outlineBindings ls document lineNumber) = some value → value ≠ [] :=
    fun _ _ hget => ne_nil_of_get?_bindingsIn hget
  have hbare := fillPlaceholders_eq_filledLine hnames fun name value hget =>
    show value ≠ [] ∧ '<' ∉ id value from ⟨hne name value hget, hvalues name value hget⟩
  have hquoted := fillPlaceholders_eq_filledLine hnames fun name value hget =>
    show value ≠ [] ∧ '<' ∉ quoted value from ⟨hne name value hget, by simpa [quoted] using hvalues name value hget⟩
  rw [← hbare, ← hquoted]
  unfold stepLineIn?
  cases hline : placeholderNames line with
  | nil =>
    -- without placeholders both lines are the line itself
    show StepLine.parse? ls line = match StepLine.parse? ls line with
      | some s => if !s.text.isEmpty && known s.text then some s else StepLine.parse? ls line
      | none => StepLine.parse? ls line
    split
    · rename_i s hs
      split
      · exact hs
      · rfl
    · rfl
  | cons name names => rfl

end Gherkin

namespace Catalog.Registry

open Gherkin
open Text (of)

theorem knows_iff (r : Registry) (text : Text) : r.knows text = true ↔ ∃ step ∈ r.steps, step.full.occursIn text = true := by
  simp [knows, findByText, isOfType]

/-- A line with placeholders is read with all its values filled in at once, each in its own place: quoted, if that is a step line
with a text that some step matches, and bare otherwise. The pieces in which this is done are those of the line. -/
theorem stepLine?_fills_at_once (r : Registry) (line : Text) (document : List Text) (lineNumber : Int)
    (hnames : ∀ name ∈ placeholderNames line, '<' ∉ name)
    (hvalues : ∀ name value,
      Entries.get? name (outlineBindings r.settings.languages document lineNumber) = some value → '<' ∉ value) :
    let ls := r.settings.languages
    let b := outlineBindings ls document lineNumber
    substitute placeholder bracketed line = line ∧
    (∀ s, StepLine.parse? ls (filledLine b quoted line) = some s → s.text ≠ [] →
      (∃ step ∈ r.steps, step.full.occursIn s.text = true) → r.stepLine? line document lineNumber = some s) ∧
    ((∀ s, StepLine.parse? ls (filledLine b quoted line) = some s → s.text = [] ∨
      ∀ step ∈ r.steps, step.full.occursIn s.text = false) →
      r.stepLine? line document lineNumber = StepLine.parse? ls (filledLine b id line)) := by
  intro ls b
  refine ⟨(outlined_pieces line).render_bracketed, fun s hs htext hstep => ?_, fun hnone => ?_⟩
  · rw [stepLine?, stepLineIn?_eq hnames hvalues, hs]
    simp [htext, (r.knows_iff s.text).2 hstep]
  · rw [stepLine?, stepLineIn?_eq hnames hvalues]
    split
    · rename_i s hs
      have hunknown : (!s.text.isEmpty && r.knows s.text) = false := by
        rcases hnone s hs with hempty | hno
        · simp [hempty]
        · have hunknown : r.knows s.text = false := by
            rw [Bool.eq_false_iff, ne_eq, knows_iff]
            rintro ⟨step, hstep, hoccurs⟩
            rw [hno step hstep] at hoccurs
            cases hoccurs
          rw [hunknown, Bool.and_false]
      rw [hunknown]
      rfl
    · rfl

/-- A name that stands twice, a name without a value, a value with a closing bracket and an opening bracket that nothing closes: the
line with quoted values is no known step, so the bare values count. The short line is a known step with its value quoted. -/
theorem stepLine?_fills_at_once_bracket :
    let p : Body.Pattern := ⟨of "^\"1>0\"$", .ofSeq [.anchor .textStart, .literal .exact (of "\"1>0\""), .anchor .finalEnd]⟩
    let r : Registry :=
      { settings := { languages := [⟨"q", ["Given "], [], [], [], [], ["Examples"]⟩] }
        rule := .ofLanguages []
        steps := [⟨of "a", of "\"1>0\"", p, p, [], [], [], 0, .given, 0⟩]
        places := [(of "a", 0)] }
    let document := ["Given <n> of <m> is <n> < 3", "Given <n>", "Examples:", "| n |", "| 1>0 |"].map of
    r.stepLine? (of "Given <n> of <m> is <n> < 3") document 0 = some ⟨[], of "Given", of " ", of "1>0 of <m> is 1>0 < 3"⟩ ∧
      r.stepLine? (of "Given <n>") document 1 = some ⟨[], of "Given", of " ", of "\"1>0\""⟩ := by
  intro p r document
  have hbindings : ∀ i : Int, i = 0 ∨ i = 1 → outlineBindings r.settings.languages document i = [(of "n", of "1>0")] := by
    rintro i (rfl | rfl) <;> decide +kernel
  have hvalues : ∀ i : Int, i = 0 ∨ i = 1 → ∀ name value,
      Entries.get? name (outlineBindings r.settings.languages document i) = some value → '<' ∉ value := by
    intro i hi name value hget
    rw [hbindings i hi, Entries.get?] at hget
    split at hget
    · cases hget
      decide
    · cases hget
  obtain ⟨-, -, hbare⟩ :=
    r.stepLine?_fills_at_once (of "Given <n> of <m> is <n> < 3") document 0 (by decide +kernel) (hvalues 0 (.inl rfl))
  obtain ⟨-, hquoted, -⟩ := r.stepLine?_fills_at_once (of "Given <n>") document 1 (by decide +kernel) (hvalues 1 (.inr rfl))
  rw [hbindings 0 (.inl rfl)] at hbare
  rw [hbindings 1 (.inr rfl)] at hquoted
  refine ⟨(hbare fun s hs => .inr ?_).trans (by decide +kernel),
    hquoted _ (by decide +kernel) (by decide) ⟨_, List.mem_singleton_self _, by decide +kernel⟩⟩
  obtain rfl : (⟨[], of "Given", of " ", of "\"1>0\" of <m> is \"1>0\" < 3"⟩ : StepLine) = s :=
    Option.some.inj (Eq.trans (by decide +kernel) hs)
  decide +kernel

end Catalog.Registry
end StepCatalog
