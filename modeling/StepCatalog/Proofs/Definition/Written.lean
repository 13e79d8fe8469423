import Mathlib.Data.List.Forall2
import StepCatalog.Proofs.Definition.Keyword

/-!
# Definitions as they are written

A definition is written as a call: a keyword, a parenthesis, and a body between two marks. The rule of languages tries the keywords
in turn and ignores letter case, so that several of them may fit what is written; but none of them holds a parenthesis, and each
one that fits takes just the text in front of the parenthesis (`run_literal_cases`). Behind it, the body ends at the first mark that
is like the one in front of it.

Main statement: `Call.find?_line`.
-/

namespace StepCatalog

/-! ## Letter case below the letters -/

/-- A mapping either leaves a code point as it is or leads to the images of its runs. -/
theorem mapCase_eq_or_le {bound : Nat} {runs : List CaseRun} (h : ∀ run ∈ runs, bound ≤ run.2.2.2) (n : Nat) :
    mapCase runs n = n ∨ bound ≤ mapCase runs n := by
  induction runs with
  | nil => exact .inl rfl
  | cons run runs ih =>
    obtain ⟨first, last, stride, image⟩ := run
    rw [List.forall_mem_cons] at h
    rw [mapCase]
    split
    · exact .inl rfl
    · split
      · exact .inr (Nat.le_trans h.1 (Nat.le_add_right _ _))
      · exact ih h.2

/-- Nothing else has a lower case in front of the lower-case letters. -/
theorem eq_of_lowerCode {n k : Nat} (hk : k < 97) (h : lowerCode n = k) : n = k := by
  have himages : ∀ run ∈ lowerRuns, 97 ≤ run.2.2.2 := by decide +kernel
  rcases mapCase_eq_or_le himages n with hsame | hle
  · exact hsame.symm.trans h
  · rw [lowerCode] at h
    omega

theorem le_of_mem_sameUpper {n k : Nat} (h : k ∈ sameUpper n) : 97 ≤ k := by
  have htable : ∀ entry ∈ sameUpperTable, ∀ k ∈ entry.2, 97 ≤ k := by decide
  unfold sameUpper at h
  cases hlookup : sameUpperTable.lookup n with
  | none => simp [hlookup] at h
  | some others =>
    rw [hlookup] at h
    obtain ⟨before, after, htab, -⟩ := List.lookup_eq_some_iff.1 hlookup
    exact htable (n, others) (by simp [htab]) k h

namespace Regex

/-- A character stands for itself. -/
theorem literal_holds_self (c : Char) : (CharSet.literal .full false c.toNat).holds c = true := by
  unfold CharSet.literal
  split
  · simp [CharSet.holds, CaseFold.partners, CaseFold.code, Member.holds]
  · simp [CharSet.holds, CaseFold.code, Member.holds]

/-- A character below the letters is not another form of any other character. -/
theorem literal_holds_small {c : Char} (hc : c.toNat < 65) {n : Nat} :
    (CharSet.literal .full false n).holds c = true ↔ n = c.toNat := by
  have hlower : ∀ k < 65, lowerCode k = k := by decide
  constructor
  · intro h
    unfold CharSet.literal at h
    split at h
    · have hmem : c.toNat ∈ CaseFold.full.partners n := by
        simpa [CharSet.holds, CaseFold.code, hlower _ hc, Member.holds] using h
      rcases List.mem_cons.1 hmem with heq | hmem
      · exact eq_of_lowerCode (by omega) heq.symm
      · have hle := le_of_mem_sameUpper hmem
        omega
    · simpa [CharSet.holds, CaseFold.code, Member.holds] using h
  · rintro rfl
    exact literal_holds_self c

/-! ## Runs over literal text -/

/-- A word takes itself. -/
theorem run_literal_self (w before after : Text) (groups : List (Nat × Text)) (k : Cont) :
    (Node.literal .full w).run ⟨before, w ++ after, groups⟩ k = k ⟨w.reverse ++ before, after, groups⟩ := by
  induction w generalizing before with
  | nil => rfl
  | cons c w ih =>
    rw [Node.literal, List.map_cons, run_ofSeq_cons, List.cons_append, Node.char, run_one_cons, literal_holds_self, if_pos rfl,
      ← Node.literal, ih]
    simp

/-- A word that takes something takes as many characters as it has, each a form of its own. -/
theorem run_literal_cases (w : Text) (before s : Text) (groups : List (Nat × Text)) (k : Cont) :
    (Node.literal .full w).run ⟨before, s, groups⟩ k = none ∨
    ∃ u after, s = u ++ after ∧ List.Forall₂ (fun a c => (CharSet.literal .full false a.toNat).holds c = true) w u ∧
      (Node.literal .full w).run ⟨before, s, groups⟩ k = k ⟨u.reverse ++ before, after, groups⟩ := by
  induction w generalizing before s with
  | nil => exact .inr ⟨[], s, rfl, .nil, rfl⟩
  | cons a w ih =>
    rw [Node.literal, List.map_cons, run_ofSeq_cons, ← Node.literal]
    cases s with
    | nil => exact .inl rfl
    | cons c s =>
      rw [Node.char, run_one_cons]
      split
      · rename_i hc
        rcases ih (c :: before) s with hnone | ⟨u, after, rfl, hu, hrun⟩
        · exact .inl hnone
        · exact .inr ⟨c :: u, after, rfl, .cons hc hu, by rw [hrun]; simp⟩
      · exact .inl rfl

/-- Where every alternative that succeeds leads to the same place, the first of them does. -/
theorem run_ofAlts_eq_some {ns : List Node} {p r : Place} {k : Cont} (hall : ∀ n ∈ ns, n.run p k = none ∨ n.run p k = some r)
    (hsome : ∃ n ∈ ns, n.run p k = some r) : (Node.ofAlts ns).run p k = some r := by
  fun_induction Node.ofAlts ns with
  | case1 => simp at hsome
  | case2 n =>
    obtain ⟨m, hm, hrun⟩ := hsome
    rw [List.mem_singleton.1 hm] at hrun
    exact hrun
  | case3 n ns _ ih =>
    rw [List.forall_mem_cons] at hall
    rw [Node.run]
    rcases hall.1 with hnone | hfirst
    · rw [hnone]
      refine ih hall.2 ?_
      obtain ⟨m, hm, hrun⟩ := hsome
      rcases List.mem_cons.1 hm with rfl | hm
      · rw [hnone] at hrun
        cases hrun
      · exact ⟨m, hm, hrun⟩
    · rw [hfirst]
      rfl

/-- As few rounds of any character as possible: those up to the first place where the rest succeeds. -/
theorem upToLazy_eq_some {set : CharSet} (hset : ∀ c, set.holds c = true) {u after : Text} {groups : List (Nat × Text)} {k : Cont}
    {r : Place} : ∀ {before : Text} {n : Nat} {last : Option Nat}, u.length < n → (∀ m, last = some m → (u ++ after).length < m) →
    (∀ v c w, u = v ++ c :: w → k ⟨v.reverse ++ before, c :: w ++ after, groups⟩ = none) →
    k ⟨u.reverse ++ before, after, groups⟩ = some r →
    upToLazy (Node.one set).run n last ⟨before, u ++ after, groups⟩ k = some r := by
  induction u with
  | nil =>
    intro before n last hn _ _ hend
    obtain ⟨n, rfl⟩ : ∃ m, n = m + 1 := ⟨n - 1, by simp at hn; omega⟩
    rw [upToLazy]
    rw [List.reverse_nil, List.nil_append] at hend
    rw [List.nil_append, hend]
    rfl
  | cons c u ih =>
    intro before n last hn hlast hinside hend
    rw [List.length_cons] at hn
    obtain ⟨n, rfl⟩ : ∃ m, n = m + 1 := ⟨n - 1, by omega⟩
    have hhere : k ⟨before, c :: u ++ after, groups⟩ = none := hinside [] c u rfl
    have hround : last ≠ some (c :: u ++ after).length := fun h => absurd (hlast _ h) (Nat.lt_irrefl _)
    rw [upToLazy, hhere]
    dsimp only [Option.orElse_eq_orElse, Option.orElse_eq_or, Option.none_or]
    rw [if_neg hround, List.cons_append, run_one_cons, hset, if_pos rfl]
    refine ih (by omega) ?_ ?_ ?_
    · intro m hm
      rw [← Option.some.inj hm]
      simp
    · intro v d w hu
      have hnone := hinside (c :: v) d w (by rw [hu]; rfl)
      simpa using hnone
    · simpa using hend

/-- No round at all, where the rest succeeds without one. -/
theorem run_lazy_of_some {body : Node} {p r : Place} {k : Cont} (h : k p = some r) :
    (Node.repeated .lazy 0 none body).run p k = some r := by
  rw [Node.run, exactly, furtherRounds, upToLazy, h]
  rfl

/-- No round at all, where none can be made. -/
theorem run_greedy_of_none {body : Node} {max : Option Nat} {p : Place} (h : ∀ k, body.run p k = none) (k : Cont) :
    (Node.repeated .greedy 0 max body).run p k = k p := by
  rw [Node.run, exactly]
  cases furtherRounds 0 max p with
  | zero => rfl
  | succ n =>
    rw [upToGreedy, if_neg (by simp), h]
    rfl

theorem searchFrom_of_matchAt {n : Node} {before s : Text} {m : Match} (h : n.matchAt before s = some m) :
    n.searchFrom before s = some m := by
  cases s with
  | nil => exact h
  | cons c s => rw [Node.searchFrom, h]

end Regex

namespace Definition

open Regex
open Text (of)

/-! ## Behind the keyword -/

/-- What ends the body: the opening mark again, and a comma or a parenthesis behind blanks. -/
def closingNodes : List Node := bodyNodes.drop 2

/-- Only a parenthesis follows a keyword. -/
theorem run_argument_eq_none {before : Text} {c : Char} {s : Text} {groups : List (Nat × Text)} (hc : c ≠ '(') (k : Cont) :
    (Node.ofSeq argumentNodes).run ⟨before, c :: s, groups⟩ k = none := by
  have hset : CharSet.literal .full false '('.toNat = ⟨.exact, false, [.code 40]⟩ := by decide +kernel
  have hholds : (CharSet.literal .full false '('.toNat).holds c = false := by
    rw [hset]
    simpa [CharSet.holds, CaseFold.code, Member.holds, ← Char.toNat_inj] using Ne.symm hc
  rw [argumentNodes, headNodes, List.tail_cons, List.cons_append, run_ofSeq_cons, Node.char, run_one_cons, hholds]
  rfl

/-- The body does not end at another character. -/
theorem run_closing_eq_none {before : Text} {c : Char} {s : Text} {groups : List (Nat × Text)}
    (hopening : groups.lookup 3 = some ['\'']) (hc : c ≠ '\'') (k : Cont) :
    (Node.ofSeq closingNodes).run ⟨before, c :: s, groups⟩ k = none := by
  have hagrees : agrees .full ['\''] (c :: s) = false := by
    have hlower : lowerCode 39 = 39 := by decide
    have hne : 39 ≠ lowerCode c.toNat := by
      intro heq
      have hcode : c.toNat = '\''.toNat := eq_of_lowerCode (by decide) heq.symm
      exact hc (Char.toNat_inj.1 hcode)
    simpa [agrees, CaseFold.code, hlower] using hne
  rw [closingNodes, bodyNodes, List.drop_succ_cons, List.drop_succ_cons, List.drop_zero, run_ofSeq_cons, Node.run, Place.group?,
    hopening]
  simp [hagrees]

/-- The body ends at the mark, if a comma follows. -/
theorem run_closing {before rest : Text} {groups : List (Nat × Text)} (hopening : groups.lookup 3 = some ['\'']) (k : Cont) :
    (Node.ofSeq closingNodes).run ⟨before, '\'' :: ',' :: rest, groups⟩ k = k ⟨',' :: '\'' :: before, rest, groups⟩ := by
  have hagrees : agrees .full ['\''] ('\'' :: ',' :: rest) = true := by simp [agrees]
  have hblank : ∀ k, blankNode.run ⟨'\'' :: before, ',' :: rest, groups⟩ k = none := by
    have hholds : (CharSet.ofItems .full false false [.category .blank false]).holds ',' = false := by decide +kernel
    intro k
    rw [blankNode, anyOf, run_one_cons, hholds]
    rfl
  have hcomma : (CharSet.ofItems .full false false (",)".toList.map fun c => .code c.toNat)).holds ',' = true := by decide +kernel
  have hadvance : Place.advance ⟨before, '\'' :: ',' :: rest, groups⟩ ['\''].length =
      ⟨'\'' :: before, ',' :: rest, groups⟩ := rfl
  rw [closingNodes, bodyNodes, List.drop_succ_cons, List.drop_succ_cons, List.drop_zero, run_ofSeq_cons, Node.run, Place.group?,
    hopening]
  dsimp only
  rw [if_pos hagrees, hadvance, run_ofSeq_cons, run_greedy_of_none hblank, Node.ofSeq, anyOf, run_one_cons, hcomma, if_pos rfl]

/-- The body is what stands in front of the first mark. -/
theorem run_body {before body rest : Text} {groups : List (Nat × Text)} (hopening : groups.lookup 3 = some ['\''])
    (hbody : '\'' ∉ body) :
    (Node.ofSeq (.group (some 5) (.repeated .lazy 0 none anyNode) :: closingNodes)).run
        ⟨before, body ++ '\'' :: ',' :: rest, groups⟩ some =
      some ⟨',' :: '\'' :: (body.reverse ++ before), rest, (5, body) :: groups⟩ := by
  have hany : ∀ c, (CharSet.ofItems .full false false [.category .blank false, .category .blank true]).holds c = true := by
    have hset : CharSet.ofItems .full false false [.category .blank false, .category .blank true] =
        ⟨.exact, false, [.category .blank false false, .category .blank false true]⟩ := by decide +kernel
    intro c
    rw [hset]
    simp [CharSet.holds, Member.holds, CaseFold.code]
  rw [run_ofSeq_cons, Node.run, Node.run, exactly, furtherRounds]
  have hopening' : ∀ u, List.lookup 3 ((5, u) :: groups) = some ['\''] := fun u => hopening
  refine upToLazy_eq_some hany ?_ ?_ ?_ ?_
  · simp only [List.length_append]
    omega
  · intro _ hlast
    cases hlast
  · rintro v c w rfl
    have hc : c ≠ '\'' := by
      rintro rfl
      exact hbody (by simp)
    rw [List.append_assoc, capture_append]
    exact run_closing_eq_none (hopening' v) hc some
  · rw [capture_append, run_closing (hopening' body)]

/-- What follows a keyword, as it is written: the body is what stands between the first two marks. -/
theorem run_argument {before body rest : Text} {groups : List (Nat × Text)} (hbody : '\'' ∉ body) :
    (Node.ofSeq argumentNodes).run ⟨before, '(' :: '\'' :: (body ++ '\'' :: ',' :: rest), groups⟩ some =
      some ⟨',' :: '\'' :: (body.reverse ++ '\'' :: '(' :: before), rest, (5, body) :: (3, ['\'']) :: (4, ['\'']) :: groups⟩ := by
  have hraw : (CharSet.ofItems .full false false ("rRuU".toList.map fun c => .code c.toNat)).holds '\'' = false := by decide +kernel
  have hmark : (CharSet.ofItems .full false false ("/\"'".toList.map fun c => .code c.toNat)).holds '\'' = true := by decide +kernel
  rw [argumentNodes, headNodes, List.tail_cons, List.cons_append, run_ofSeq_cons, Node.char, run_one_cons, literal_holds_self,
    if_pos rfl, List.cons_append, run_ofSeq_cons]
  refine run_lazy_of_some ?_
  rw [List.cons_append, run_ofSeq_cons, run_greedy_of_none, List.nil_append, bodyNodes, run_ofSeq_cons, Node.run, Node.run, anyOf,
    run_one_cons, hmark, if_pos rfl]
  · have hcapture : ∀ i groups groups', Place.capture i ⟨'(' :: before, '\'' :: (body ++ '\'' :: ',' :: rest), groups⟩
        ⟨'\'' :: '(' :: before, body ++ '\'' :: ',' :: rest, groups'⟩ =
          ⟨'\'' :: '(' :: before, body ++ '\'' :: ',' :: rest, (i, ['\'']) :: groups'⟩ :=
      fun i groups groups' => capture_append i ['\''] _ _ _ groups groups'
    rw [hcapture, hcapture]
    exact run_body rfl hbody
  · intro k
    rw [anyOf, run_one_cons, hraw]
    rfl

/-! ## Keywords -/

theorem mem_declaringWords {ls : List Gherkin.Language} {w : Text} :
    w ∈ declaringWords ls ↔ w ∈ Gherkin.stepKeywords ls ∨ Gherkin.stepKeywords ls = [] ∧ w = [] ∨ w ∈ genericWords := by
  unfold declaringWords
  split
  · rename_i hnone
    simp [hnone]
  · rename_i hsome
    have hne : Gherkin.stepKeywords ls ≠ [] := hsome
    simp [hne]

/-- A word without parentheses takes none of them. -/
theorem paren_not_mem_of_forall₂ {w u : Text} (hw : '(' ∉ w)
    (h : List.Forall₂ (fun a c => (CharSet.literal .full false a.toNat).holds c = true) w u) : '(' ∉ u := by
  induction h with
  | nil => simp
  | @cons a c w u hc _ ih =>
    rw [List.mem_cons, not_or] at hw ⊢
    refine ⟨?_, ih hw.2⟩
    rintro rfl
    have hcode : a.toNat = '('.toNat := (literal_holds_small (by decide)).1 hc
    exact hw.1 (Char.toNat_inj.1 hcode).symm

/-- The words that declare a step: each one that fits a call takes the keyword of the call. -/
theorem run_keyword {ls : List Gherkin.Language} (hwords : ∀ w ∈ declaringWords ls, '(' ∉ w) {keyword : Text}
    (hkeyword : keyword ∈ declaringWords ls) {s : Text} {k : Cont} {r : Place}
    (hother : ∀ before c s groups, c ≠ '(' → k ⟨before, c :: s, groups⟩ = none)
    (hcall : k ⟨keyword.reverse, '(' :: s, [(2, keyword)]⟩ = some r) :
    (wordsNode ls).run ⟨[], keyword ++ '(' :: s, []⟩ k = some r := by
  have hparen : '(' ∉ keyword := hwords keyword hkeyword
  have hcapture : Place.capture 2 ⟨[], keyword ++ '(' :: s, []⟩ ⟨keyword.reverse, '(' :: s, []⟩ =
      ⟨keyword.reverse, '(' :: s, [(2, keyword)]⟩ := capture_append 2 keyword _ _ _ _ _
  rw [wordsNode, Node.run]
  refine run_ofAlts_eq_some ?_ ?_
  · rw [List.forall_mem_map]
    intro w hw
    rcases run_literal_cases w [] (keyword ++ '(' :: s) [] _ with hnone | ⟨u, after, hsplit, hu, hrun⟩
    · exact .inl hnone
    · have hu' := paren_not_mem_of_forall₂ (hwords w hw) hu
      obtain ⟨v, hv, rfl⟩ : ∃ v, keyword = u ++ v ∧ after = v ++ '(' :: s := by
        rcases List.append_eq_append_iff.1 hsplit with ⟨v, rfl, hafter⟩ | hv
        · cases v with
          | nil => exact ⟨[], by simp, hafter.symm⟩
          | cons d v =>
            rw [List.cons_append, List.cons.injEq] at hafter
            exact absurd (by rw [hafter.1]; simp) hu'
        · exact hv
      cases v with
      | nil =>
        rw [List.append_nil] at hv
        rw [hrun, ← hv, List.append_nil, List.nil_append, hcapture]
        exact .inr hcall
      | cons d v =>
        -- a shorter word is followed by a character of the keyword
        have hd : d ≠ '(' := by
          rintro rfl
          exact hparen (by rw [hv]; simp)
        rw [hrun]
        exact .inl (hother _ d _ _ hd)
  · refine ⟨_, List.mem_map_of_mem hkeyword, ?_⟩
    rw [run_literal_self, List.append_nil, hcapture, hcall]

/-! ## Calls -/

/-- A call that defines a step. -/
structure Call where
  keyword : Text
  body : Text
  deriving DecidableEq, Repr

namespace Call

/-- The line in which a call is written, up to where it opens the function. -/
def line (c : Call) : Text := c.keyword ++ '(' :: '\'' :: (c.body ++ '\'' :: ',' :: of " function () \x7b")

/-- The definition that stands in the line of a call. -/
def found (c : Call) : Found := ⟨0, c.keyword.length + c.body.length + 4, some c.keyword, some ['\''], some c.body⟩

/-- The rule of languages finds the definition that is written with one of their keywords. -/
theorem find?_line {ls : List Gherkin.Language} (hwords : ∀ w ∈ declaringWords ls, '(' ∉ w) {c : Call}
    (hkeyword : c.keyword ∈ declaringWords ls) (hbody : '\'' ∉ c.body) : (Rule.ofLanguages ls).find? c.line = some c.found := by
  let before : Text := ',' :: '\'' :: (c.body.reverse ++ '\'' :: '(' :: c.keyword.reverse)
  let groups : List (Nat × Text) := [(5, c.body), (3, ['\'']), (4, ['\'']), (1, c.keyword), (2, c.keyword)]
  have hrun : (Rule.ofLanguages ls).node.run ⟨[], c.line, []⟩ some = some ⟨before, of " function () \x7b", groups⟩ := by
    rw [node_ofLanguages, run_ofSeq_cons, Node.run]
    refine run_keyword hwords hkeyword ?_ ?_
    · intro before c s groups hc
      exact run_argument_eq_none hc some
    · rw [line, capture_append]
      exact run_argument hbody
  have hlength : before.length = c.keyword.length + c.body.length + 4 := by
    simp only [before, List.length_cons, List.length_append, List.length_reverse]
    omega
  have hmatch : (Rule.ofLanguages ls).node.matchAt [] c.line = some ⟨0, c.keyword.length + c.body.length + 4, groups⟩ := by
    rw [Node.matchAt, hrun, Option.map_some, hlength]
    rfl
  rw [Rule.find?, Node.search?, searchFrom_of_matchAt hmatch]
  rfl

end Call

/-- Nothing is found in an empty line. -/
theorem find?_nil (ls : List Gherkin.Language) : (Rule.ofLanguages ls).find? [] = none := by
  cases hfound : (Rule.ofLanguages ls).find? [] with
  | none => rfl
  | some found =>
    obtain ⟨pre, post, m, hsplit, -, hmatch, -⟩ := matchAt_of_find? hfound
    obtain ⟨rfl, rfl⟩ := List.append_eq_nil_iff.1 hsplit.symm
    obtain ⟨p, hrun, -⟩ := Option.map_eq_some_iff.1 hmatch
    rw [node_ofLanguages, run_ofSeq_cons, Node.run] at hrun
    obtain ⟨q, hq, hargument⟩ := leads_run _ _ _ _ hrun
    obtain ⟨w, hafter, -⟩ := hq.taken
    have hend : q.after = [] := (List.append_eq_nil_iff.1 hafter.symm).2
    rw [argumentNodes, headNodes, List.tail_cons, List.cons_append, run_ofSeq_cons, Node.char, Node.run, Place.capture, hend]
      at hargument
    cases hargument

end Definition

end StepCatalog
