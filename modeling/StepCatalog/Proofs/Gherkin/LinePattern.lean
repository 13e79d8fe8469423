import StepCatalog.Gherkin.StepLine
import StepCatalog.Proofs.Regex.Progress
import StepCatalog.Proofs.Regex.Reading
import StepCatalog.Proofs.Text.Parts

/-!
# The pattern of step lines

Step lines are those that a regular expression matches (`linePattern`): blanks, one of the keywords, blanks, and the rest of the
line. Reading the pattern gives one alternative for each keyword, in which every character of it stands for itself
(`ofText?_linePattern`). A match never gives blanks back: in front of the keyword because no keyword begins with a blank
(`run_keywords_of_blank`), and behind it because the rest of the line may be anything (`run_tail`); so cutting the line by hand
gives the groups of the match.

Main statement: `match?_lineNode`.
-/

namespace StepCatalog

namespace Regex

/-! ## Repeated characters, words and choices -/

/-- As many characters of a set as there are, if what comes after fails with fewer whenever it fails with all of them. -/
theorem upToGreedy_one {set : CharSet} {u after : Text} {groups : List (Nat × Text)} {k : Cont}
    (hu : ∀ c ∈ u, set.holds c = true) (hafter : ∀ c rest, after = c :: rest → set.holds c = false) :
    ∀ {before : Text} {n : Nat} {last : Option Nat}, u.length < n → (∀ m, last = some m → (u ++ after).length < m) →
    (k ⟨u.reverse ++ before, after, groups⟩ = none →
      ∀ v c w, u = v ++ c :: w → k ⟨v.reverse ++ before, c :: w ++ after, groups⟩ = none) →
    upToGreedy (Node.one set).run n last ⟨before, u ++ after, groups⟩ k = k ⟨u.reverse ++ before, after, groups⟩ := by
  induction u with
  | nil =>
    intro before n last hn _ _
    obtain ⟨n, rfl⟩ : ∃ m, n = m + 1 := ⟨n - 1, by simp at hn; omega⟩
    have hround : ∀ k : Cont, (Node.one set).run ⟨before, after, groups⟩ k = none := by
      intro k
      cases after with
      | nil => rfl
      | cons c rest =>
        rw [run_one_cons, hafter c rest rfl]
        rfl
    rw [List.nil_append, upToGreedy, hround]
    split <;> rfl
  | cons c u ih =>
    intro before n last hn hlast hfewer
    rw [List.length_cons] at hn
    obtain ⟨n, rfl⟩ : ∃ m, n = m + 1 := ⟨n - 1, by omega⟩
    rw [List.forall_mem_cons] at hu
    have hround : last ≠ some (c :: u ++ after).length := fun h => absurd (hlast _ h) (Nat.lt_irrefl _)
    have hall : (c :: u).reverse ++ before = u.reverse ++ c :: before := by simp
    rw [hall] at hfewer ⊢
    have hrest : upToGreedy (Node.one set).run n (some (c :: u ++ after).length) ⟨c :: before, u ++ after, groups⟩ k =
        k ⟨u.reverse ++ c :: before, after, groups⟩ := by
      refine ih hu.2 (by omega) ?_ ?_
      · intro m hm
        rw [← Option.some.inj hm]
        simp
      · intro hnone v d w hsplit
        have hnone := hfewer hnone (c :: v) d w (by rw [hsplit]; rfl)
        simpa using hnone
    rw [upToGreedy, if_neg hround, List.cons_append, run_one_cons, hu.1, if_pos rfl, ← List.cons_append, hrest]
    cases hk : k ⟨u.reverse ++ c :: before, after, groups⟩ with
    | some r => rfl
    | none => exact hfewer hk [] c u rfl

/-- A repetition takes as many characters of its set as there are, if what comes after fails with fewer whenever it fails with all
of them. -/
theorem run_repeated_one {set : CharSet} {u after : Text} {groups : List (Nat × Text)} {k : Cont} {least : Nat}
    (hleast : least ≤ u.length) (hu : ∀ c ∈ u, set.holds c = true) (hafter : ∀ c rest, after = c :: rest → set.holds c = false)
    {before : Text}
    (hfewer : k ⟨u.reverse ++ before, after, groups⟩ = none →
      ∀ v c w, u = v ++ c :: w → k ⟨v.reverse ++ before, c :: w ++ after, groups⟩ = none) :
    (Node.repeated .greedy least none (.one set)).run ⟨before, u ++ after, groups⟩ k =
      k ⟨u.reverse ++ before, after, groups⟩ := by
  rw [Node.run]
  induction least generalizing u before with
  | zero =>
    have hrounds : u.length < furtherRounds 0 none ⟨before, u ++ after, groups⟩ := by
      rw [furtherRounds, List.length_append]
      omega
    exact upToGreedy_one hu hafter hrounds (by simp) hfewer
  | succ least ih =>
    cases u with
    | nil => simp at hleast
    | cons c u =>
      rw [List.forall_mem_cons] at hu
      rw [List.length_cons] at hleast
      have hall : (c :: u).reverse ++ before = u.reverse ++ c :: before := by simp
      rw [hall] at hfewer ⊢
      rw [exactly, List.cons_append, run_one_cons, hu.1, if_pos rfl]
      refine ih (by omega) hu.2 fun hnone v d w hsplit => ?_
      have hnone := hfewer hnone (c :: v) d w (by rw [hsplit]; rfl)
      simpa using hnone

/-- A repetition that must take something fails where its set does not go on. -/
theorem run_repeated_one_of_none {set : CharSet} {s : Text} (hs : ∀ c rest, s = c :: rest → set.holds c = false) (least : Nat)
    (before : Text) (groups : List (Nat × Text)) (k : Cont) :
    (Node.repeated .greedy (least + 1) none (.one set)).run ⟨before, s, groups⟩ k = none := by
  rw [Node.run, exactly]
  cases s with
  | nil => rfl
  | cons c rest =>
    rw [run_one_cons, hs c rest rfl]
    rfl

/-- A text that stands for itself, with what comes after. -/
theorem run_literal_exact (w before s : Text) (groups : List (Nat × Text)) (k : Cont) :
    (Node.literal .exact w).run ⟨before, s, groups⟩ k =
      (Text.after? w s).bind fun rest => k ⟨w.reverse ++ before, rest, groups⟩ := by
  induction w generalizing before s with
  | nil => rfl
  | cons a w ih =>
    rw [Node.literal, List.map_cons, run_ofSeq_cons, ← Node.literal]
    cases s with
    | nil => rfl
    | cons c s =>
      rw [Node.char, run_one_cons, Text.after?]
      by_cases hc : a = c
      · rw [if_pos ((literal_holds_iff a c).2 hc.symm), if_pos hc, ih, hc]
        simp
      · rw [if_neg fun h => hc ((literal_holds_iff a c).1 h).symm, if_neg hc]
        rfl

/-- The first alternative with which what comes after succeeds. -/
theorem run_ofAlts {ns : List Node} (hne : ns ≠ []) (p : Place) (k : Cont) :
    (Node.ofAlts ns).run p k = ns.findSome? fun n => n.run p k := by
  induction ns with
  | nil => exact absurd rfl hne
  | cons n ns ih =>
    rw [List.findSome?_cons]
    cases ns with
    | nil =>
      show n.run p k = _
      cases n.run p k <;> rfl
    | cons m ns =>
      show (n.run p k <|> (Node.ofAlts (m :: ns)).run p k) = _
      rw [ih (List.cons_ne_nil _ _)]
      cases n.run p k <;> rfl

end Regex

namespace Gherkin

open Regex
open Text (of)

/-! ## The nodes of the pattern -/

/-- The pattern of step lines. -/
def linePattern (ls : List Language) : Text := of "^(\\s*)(" ++ (alternation (stepKeywords ls) ++ of ")(\\s+)(.*)")

/-- A group of blanks, at least some number of them. -/
def blanksNode (index least : Nat) : Node := .group (some index) (.repeated .greedy least none (.one (.ofCategory false .blank)))

/-- The keywords in order of preference, each taken literally. -/
def keywordsNode (keywords : List Text) : Node := .group (some 2) (.ofAlts (keywords.map (.literal .exact)))

/-- The rest of the line. -/
def restNode : Node := .group (some 4) (.repeated .greedy 0 none (.one .notNewline))

/-- The node of the pattern of step lines. -/
def lineNode (keywords : List Text) : Node :=
  .ofSeq [.anchor .textStart, blanksNode 1 0, keywordsNode keywords, blanksNode 3 1, restNode]

/-! ## Reading the pattern -/

theorem isAlphanum_of_needsEscape {c : Char} (h : needsEscape c = true) : c.isAlphanum = false := by
  rw [needsEscape, Bool.or_eq_true, Bool.and_eq_true, decide_eq_true_eq, decide_eq_true_eq] at h
  rcases h with h | ⟨_, h⟩
  · have hall : (of " #$&()*+-.?[\\]^\x7b|\x7d~").all (fun c => !c.isAlphanum) = true := by decide
    simpa using List.all_eq_true.1 hall c (List.contains_iff_mem.1 h)
  · have hall : ∀ n ≤ 13, (Char.ofNat n).isAlphanum = false := by decide
    rw [← Char.ofNat_toNat c]
    exact hall c.toNat h

theorem isOperator_of_needsEscape {c : Char} (h : needsEscape c = false) : isOperator c = false := by
  have hall : (of "\\[()|*+?\x7b.^$").all needsEscape = true := by decide
  rw [← Bool.not_eq_true] at h ⊢
  exact fun hop => h (List.all_eq_true.1 hall c (List.contains_iff_mem.1 hop))

/-- A character of a word is read as one that stands for itself. -/
theorem writesSet_escapeChar (c : Char) :
    WritesSet (if needsEscape c then ['\\', c] else [c]) (CharSet.literal .exact false c.toNat) := by
  split
  · rename_i h
    exact writesSet_escaped (isAlphanum_of_needsEscape h)
  · rename_i h
    exact writesSet_char (isOperator_of_needsEscape (Bool.not_eq_true _ ▸ h))

/-- A word is read as its characters. -/
theorem feedAll_escapeWord (w : Text) {d : Draft} (hd : d.Ready) :
    d.feedAll (escapeWord w) = .ok (d.grown (d.level.add (w.map (Node.char .exact))) d.groupCount d.widths) := by
  induction w generalizing d with
  | nil =>
    show Except.ok d = _
    rw [Draft.grown, ← hd.mode]
    rfl
  | cons c w ih =>
    rw [escapeWord, List.flatMap_cons, Draft.feedAll_append_of_ok (writesSet_escapeChar c d hd), ← escapeWord, ih]
    · simp [Level.add, Draft.grown, Draft.push, Node.char]
    · exact hd.grown (d.level.add [Node.char .exact c]) hd.flags _ _

/-- No word begins with a question mark in the pattern. -/
theorem escapeWord_eq_cons {w : Text} (hw : w ≠ []) : ∃ c rest, escapeWord w = c :: rest ∧ c ≠ '?' := by
  obtain ⟨c, w, rfl⟩ := List.exists_cons_of_ne_nil hw
  rw [escapeWord, List.flatMap_cons]
  split
  · exact ⟨'\\', _, rfl, by decide⟩
  · rename_i hc
    refine ⟨c, _, rfl, ?_⟩
    rintro rfl
    exact hc (by decide)

/-- Words with bars between them are read as alternatives. -/
theorem feedAll_alternation {words : List Text} (hne : words ≠ []) {d : Draft} (hd : d.Ready) (hitems : d.level.items = []) :
    ∃ level : Level, d.feedAll (alternation words) = .ok (d.grown level d.groupCount d.widths) ∧ level.flags = {} ∧
      level.node = .ofAlts (d.level.alternatives.reverse ++ words.map (.literal .exact)) := by
  induction words generalizing d with
  | nil => exact absurd rfl hne
  | cons w words ih =>
    have hword := feedAll_escapeWord w hd
    have hcurrent : (d.level.add (w.map (Node.char .exact))).current = .literal .exact w := by
      simp [Level.add, Level.current, hitems, Node.literal]
    cases words with
    | nil =>
      refine ⟨d.level.add (w.map (Node.char .exact)), ?_, hd.flags, ?_⟩
      · rw [alternation, List.map_singleton, Text.join_singleton, hword]
      · rw [Level.node, hcurrent]
        simp [Level.add]
    | cons w' words =>
      have hready := hd.grown (d.level.add (w.map (Node.char .exact))) hd.flags d.groupCount d.widths
      obtain ⟨level, hread, hflags, hnode⟩ := ih (List.cons_ne_nil _ _)
        (hready.grown (d.level.add (w.map (Node.char .exact))).next hd.flags d.groupCount d.widths) rfl
      refine ⟨level, ?_, hflags, ?_⟩
      · rw [alternation, List.map_cons, Text.join_cons (by simp), ← alternation, Draft.feedAll_append_of_ok hword,
          List.singleton_append, Draft.feedAll_cons_of_ok (feed_bar hready)]
        exact hread
      · have hnext : (d.level.add (w.map (Node.char .exact))).next.alternatives = .literal .exact w :: d.level.alternatives := by
          rw [Level.next, hcurrent]
          rfl
        rw [hnode, Draft.grown, hnext]
        simp

/-- The pattern of step lines is read as its nodes. -/
theorem ofText?_linePattern {ls : List Language} (hne : stepKeywords ls ≠ [])
    (hwords : ∀ w ∈ stepKeywords ls, w ≠ []) : Node.ofText? (linePattern ls) {} = .ok (lineNode (stepKeywords ls)) := by
  -- the draft behind the indentation, which no keyword plays a part in
  let d : Draft :=
    { level := { flags := {}, items := [blanksNode 1 0, .anchor .textStart] }, groupCount := 1, widths := [(1, ⟨0, none⟩)] }
  have hindent : (Draft.start {}).feedAll (of "^(\\s*)") = .ok d := by rfl
  have hd : d.Ready := ⟨rfl, rfl, rfl, nofun⟩
  obtain ⟨level, hread, hflags, hnode⟩ :=
    feedAll_alternation hne (d := d.enterGroup) ⟨rfl, rfl, rfl, by intro i level h; cases h⟩ rfl
  obtain ⟨c, rest, hfirst, hc⟩ : ∃ c rest, alternation (stepKeywords ls) ++ of ")(\\s+)(.*)" = c :: rest ∧ c ≠ '?' := by
    obtain ⟨w, words, hw⟩ := List.exists_cons_of_ne_nil hne
    obtain ⟨c, u, hu, hc⟩ := escapeWord_eq_cons (hwords w (by rw [hw]; simp))
    obtain ⟨others, hothers⟩ := Text.join_append ['|'] [escapeWord w] (words.map escapeWord)
    rw [List.singleton_append, ← List.map_cons, ← hw, ← alternation, Text.join_singleton, hu] at hothers
    exact ⟨c, u ++ others ++ of ")(\\s+)(.*)", by rw [hothers]; rfl, hc⟩
  have hopen : d.feedAll ('(' :: (alternation (stepKeywords ls) ++ of ")(\\s+)(.*)")) =
      (d.enterGroup.grown level 2 d.widths).feedAll (of ")(\\s+)(.*)") := by
    rw [hfirst, feedAll_open hd hc, ← hfirst, Draft.feedAll_append_of_ok hread]
    rfl
  have hpattern : linePattern ls = of "^(\\s*)" ++ '(' :: (alternation (stepKeywords ls) ++ of ")(\\s+)(.*)") := rfl
  rw [Node.ofText?, hpattern, Draft.feedAll_append_of_ok hindent, hopen]
  obtain ⟨flags, alternatives, items⟩ := level
  obtain rfl : flags = {} := hflags
  exact congrArg
    (fun n : Node => Except.ok (Node.ofSeq [.anchor .textStart, blanksNode 1 0, .group (some 2) n, blanksNode 3 1, restNode])) hnode

/-! ## Matching a line -/

theorem holds_blank_iff (c : Char) : (CharSet.ofCategory false .blank).holds c = true ↔ isBlank c = true :=
  ofCategory_holds_iff false .blank c

theorem holds_notNewline_iff (c : Char) : CharSet.notNewline.holds c = true ↔ (c != '\n') = true := by
  rw [notNewline_holds_iff, bne_iff_ne]

/-- A repetition takes the characters up to the first one that is not in its set, if what comes after fails with fewer whenever it
fails with all of them. -/
theorem run_repeated_while {set : CharSet} {p : Char → Bool} (hset : ∀ c, set.holds c = true ↔ p c = true) {s before : Text}
    {least : Nat} (hleast : least ≤ (s.takeWhile p).length) {groups : List (Nat × Text)} {k : Cont}
    (hfewer : k ⟨(s.takeWhile p).reverse ++ before, s.dropWhile p, groups⟩ = none →
      ∀ v c w, s.takeWhile p = v ++ c :: w → k ⟨v.reverse ++ before, c :: w ++ s.dropWhile p, groups⟩ = none) :
    (Node.repeated .greedy least none (.one set)).run ⟨before, s, groups⟩ k =
      k ⟨(s.takeWhile p).reverse ++ before, s.dropWhile p, groups⟩ := by
  have hall : ∀ c ∈ s.takeWhile p, set.holds c = true := fun c hc => (hset c).2 (List.all_eq_true.1 List.all_takeWhile c hc)
  have hend : ∀ c rest, s.dropWhile p = c :: rest → set.holds c = false := by
    intro c rest hs
    have hhead := List.head?_dropWhile_not p s
    rw [hs] at hhead
    rw [← Bool.not_eq_true, hset]
    simpa using hhead
  have hcut : s = s.takeWhile p ++ s.dropWhile p := List.takeWhile_append_dropWhile.symm
  generalize s.takeWhile p = u at *
  generalize s.dropWhile p = after at *
  subst hcut
  exact run_repeated_one hleast hall hend hfewer

/-- A group of repeated characters captures all of them, if what comes after fails with fewer whenever it fails with all of them. -/
theorem run_captured {set : CharSet} {p : Char → Bool} (hset : ∀ c, set.holds c = true ↔ p c = true) {s before : Text}
    {least i : Nat} (hleast : least ≤ (s.takeWhile p).length) {groups : List (Nat × Text)} {k : Cont}
    (hfewer : k ⟨(s.takeWhile p).reverse ++ before, s.dropWhile p, (i, s.takeWhile p) :: groups⟩ = none →
      ∀ v c w, s.takeWhile p = v ++ c :: w → k ⟨v.reverse ++ before, c :: w ++ s.dropWhile p, (i, v) :: groups⟩ = none) :
    (Node.group (some i) (.repeated .greedy least none (.one set))).run ⟨before, s, groups⟩ k =
      k ⟨(s.takeWhile p).reverse ++ before, s.dropWhile p, (i, s.takeWhile p) :: groups⟩ := by
  have hcapture : ∀ u after before', s = u ++ after →
      Place.capture i ⟨before, s, groups⟩ ⟨before', after, groups⟩ = ⟨before', after, (i, u) :: groups⟩ := by
    rintro u after before' rfl
    exact capture_append _ _ _ _ _ _ _
  have hcut : s = s.takeWhile p ++ s.dropWhile p := List.takeWhile_append_dropWhile.symm
  rw [Node.run, run_repeated_while hset hleast, hcapture _ _ _ hcut]
  intro hnone v c w hu
  rw [hcapture _ _ _ hcut] at hnone
  rw [hcapture v _ _ (by rw [← List.append_assoc, ← hu]; exact hcut)]
  exact hfewer hnone v c w hu

/-- The place where a step line ends whose keyword ends at a place. -/
def StepLine.endOf (before rest : Text) (groups : List (Nat × Text)) (s : StepLine) : Place :=
  ⟨s.text.reverse ++ (s.gap.reverse ++ before), (rest.dropWhile isBlank).dropWhile (· != '\n'),
    (4, s.text) :: (3, s.gap) :: groups⟩

/-- Behind a keyword the pattern takes the gap and the rest of the line. -/
theorem run_tail (indent keyword before rest : Text) (groups : List (Nat × Text)) :
    (Node.ofSeq [blanksNode 3 1, restNode]).run ⟨before, rest, groups⟩ some =
      (StepLine.ofRest? indent keyword rest).map (StepLine.endOf before rest groups) := by
  -- the rest of the line is taken whatever stands in front of it
  have htext : ∀ (before s : Text) (groups : List (Nat × Text)), (Node.ofSeq [restNode]).run ⟨before, s, groups⟩ some =
      some ⟨(untilNewline s).reverse ++ before, s.dropWhile (· != '\n'), (4, untilNewline s) :: groups⟩ :=
    fun before s groups => run_captured holds_notNewline_iff (Nat.zero_le _) nofun
  rw [StepLine.ofRest?, run_ofSeq_cons]
  split
  · rename_i hnone
    refine run_repeated_one_of_none (fun c s hs => ?_) 0 before groups _
    rw [← Bool.not_eq_true, holds_blank_iff]
    intro hc
    rw [hs, List.takeWhile_cons, if_pos hc] at hnone
    cases hnone
  · rename_i gap hgap
    have hsome : 1 ≤ (rest.takeWhile isBlank).length := List.length_pos_iff.2 hgap
    rw [blanksNode, run_captured holds_blank_iff hsome fun hnone => by rw [htext] at hnone; cases hnone]
    exact htext _ _ _

/-- The keywords are tried in turn. -/
theorem run_keywords {keywords : List Text} (hne : keywords ≠ []) (before s : Text) (groups : List (Nat × Text)) (k : Cont) :
    (keywordsNode keywords).run ⟨before, s, groups⟩ k =
      keywords.findSome? fun w => (Text.after? w s).bind fun rest => k ⟨w.reverse ++ before, rest, (2, w) :: groups⟩ := by
  rw [keywordsNode, Node.run, run_ofAlts (by simpa using hne), List.findSome?_map]
  congr 1
  funext w
  rw [Function.comp_apply, run_literal_exact]
  refine Option.bind_congr fun rest hrest => ?_
  rw [Text.after?_eq_some_iff.1 hrest, capture_append]

/-- Where the line goes on with a blank, there is no keyword. -/
theorem run_keywords_of_blank {keywords : List Text} (hne : keywords ≠ [])
    (hwords : ∀ w ∈ keywords, ∃ c rest, w = c :: rest ∧ isBlank c = false) {before s : Text} {c : Char} (hc : isBlank c = true)
    (groups : List (Nat × Text)) (k : Cont) : (keywordsNode keywords).run ⟨before, c :: s, groups⟩ k = none := by
  rw [run_keywords hne, List.findSome?_eq_none_iff]
  intro w hw
  obtain ⟨d, w, rfl, hd⟩ := hwords w hw
  have hdc : d ≠ c := by
    rintro rfl
    rw [hc] at hd
    cases hd
  rw [Text.after?, if_neg hdc]
  rfl

/-- Where there are keywords, the first one that a gap follows is taken. -/
theorem withKeywords?_eq {keywords : List Text} (hne : keywords ≠ []) (line : Text) :
    StepLine.withKeywords? keywords line =
      keywords.findSome? fun w => (Text.after? w (line.dropWhile isBlank)).bind (StepLine.ofRest? (line.takeWhile isBlank) w) := by
  unfold StepLine.withKeywords?
  cases keywords with
  | nil => exact absurd rfl hne
  | cons w keywords => rfl

/-- A step line as a match. -/
def StepLine.asMatch (s : StepLine) : Match :=
  ⟨0, (s.indent ++ (s.keyword ++ (s.gap ++ s.text))).length, [(4, s.text), (3, s.gap), (2, s.keyword), (1, s.indent)]⟩

/-- The groups of a match are the parts of the step line. -/
theorem match?_lineNode {keywords : List Text} (hne : keywords ≠ [])
    (hwords : ∀ w ∈ keywords, ∃ c rest, w = c :: rest ∧ isBlank c = false) (line : Text) :
    (lineNode keywords).match? line = (StepLine.withKeywords? keywords line).map StepLine.asMatch := by
  have hindent : (lineNode keywords).run ⟨[], line, []⟩ some =
      (keywordsNode keywords).run ⟨(line.takeWhile isBlank).reverse, line.dropWhile isBlank, [(1, line.takeWhile isBlank)]⟩
        fun q => (Node.ofSeq [blanksNode 3 1, restNode]).run q some := by
    show (Node.ofSeq [blanksNode 1 0, keywordsNode keywords, blanksNode 3 1, restNode]).run ⟨[], line, []⟩ some = _
    rw [run_ofSeq_cons, blanksNode, run_captured holds_blank_iff (Nat.zero_le _)]
    · rw [run_ofSeq_cons, List.append_nil]
    · intro _ v c w hv
      have hc : c ∈ line.takeWhile isBlank := by rw [hv]; simp
      rw [run_ofSeq_cons]
      exact run_keywords_of_blank hne hwords (List.all_eq_true.1 List.all_takeWhile c hc) _ _
  rw [Node.match?, Node.matchAt, hindent, run_keywords hne, withKeywords?_eq hne, List.map_findSome?, List.map_findSome?]
  congr 1
  funext w
  rw [Function.comp_apply, Function.comp_apply, Option.map_bind, Option.map_bind]
  refine Option.bind_congr fun rest _ => ?_
  rw [Function.comp_apply, Function.comp_apply, run_tail (line.takeWhile isBlank) w, Option.map_map]
  rw [StepLine.ofRest?]
  split
  · rfl
  · simp [StepLine.endOf, StepLine.asMatch]
    omega

end Gherkin
end StepCatalog
