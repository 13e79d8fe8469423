import StepCatalog.Gherkin.Context

/-!
# The category of a step, by a rule that looks at all step lines above

A step that goes on with what came before has the category of the nearest step line above it that has a primary one, where the
category of that line is found by the same rule (`contextType`). The scan of `resolveType` passes over the lines that themselves go
on with what came before: what such a line would resolve to is what the scan finds behind it (`findSome?_inherited`), so passing it
over changes nothing.

Main statement: `resolveType_eq_contextType`.
-/

namespace StepCatalog.Gherkin

open Text (of)

/-- Whether a category stands for more of what came before. -/
def StepType.continues : StepType → Bool
  | .conjunction | .contrast => true
  | _ => false

/-- The step line at a line of a document, if that line is one. -/
def stepLineAt? (ls : List Language) (document : List Text) (i : Nat) : Option StepLine :=
  document[i]?.bind (StepLine.parse? ls)

/-- The category of a step with a keyword at a line, by the rule: its own, unless it goes on with what came before; then, from the
nearest line upwards, that of the first step line whose category by this rule is primary. -/
def contextType (ls : List Language) (document : List Text) (n : Nat) (keyword : Text) : StepType :=
  if (stepTypeOf ls keyword).continues then
    ((List.finRange n).reverse.findSome? fun (j : Fin n) =>
      (stepLineAt? ls document j).bind fun s =>
        let t := contextType ls document j s.keyword
        if t.isPrimary then some t else none).getD .other
  else stepTypeOf ls keyword
termination_by n
decreasing_by exact j.isLt

/-- The category that is handed down to a line from those above it. -/
def inheritedType (ls : List Language) (document : List Text) (n : Nat) : StepType := nearestType ls (document.take n).reverse

variable {ls : List Language} {document : List Text}

theorem isPrimary_of_continues {t : StepType} (h : t.continues = true) : t.isPrimary = false := by
  cases t <;> first | rfl | cases h

theorem resolveType_eq (ls : List Language) (document : List Text) (n : Nat) (keyword : Text) :
    resolveType ls keyword n document =
      if (stepTypeOf ls keyword).continues then inheritedType ls document n else stepTypeOf ls keyword := by
  have hslice : leadingSlice (n : Int) document = document.take n := by
    rw [leadingSlice, if_neg (by omega), Int.toNat_natCast]
  unfold resolveType
  rw [hslice]
  cases stepTypeOf ls keyword <;> rfl

/-! ## What is handed down, line by line -/

/-- One more line: it decides if it is a step line with a primary category. -/
theorem inheritedType_succ (n : Nat) :
    inheritedType ls document (n + 1) =
      match stepLineAt? ls document n with
      | none => inheritedType ls document n
      | some s => if (stepTypeOf ls s.keyword).isPrimary then stepTypeOf ls s.keyword else inheritedType ls document n := by
  unfold inheritedType stepLineAt?
  rw [List.take_add_one]
  cases hline : document[n]? with
  | none => simp
  | some line =>
    rw [Option.toList_some, List.reverse_append, List.reverse_singleton, List.singleton_append, Option.bind_some]
    rfl

/-- Lines without a primary category hand down what was handed down to them. -/
theorem inheritedType_eq_of_between {i n : Nat} (hle : i ≤ n)
    (h : ∀ j s, i ≤ j → j < n → stepLineAt? ls document j = some s → (stepTypeOf ls s.keyword).isPrimary = false) :
    inheritedType ls document n = inheritedType ls document i := by
  obtain ⟨m, rfl⟩ := Nat.exists_eq_add_of_le hle
  induction m with
  | zero => rfl
  | succ m ih =>
    have hrest := ih (by omega) fun j s hij hjm => h j s hij (by omega)
    rw [← Nat.add_assoc, inheritedType_succ]
    split
    · exact hrest
    · rename_i s hs
      rw [h (i + m) s (by omega) (by omega) hs]
      exact hrest

/-! ## The rule -/

/-- The first primary category among the lines above, where the lines that go on with what came before stand for what is handed down
to them, is the one that is handed down. -/
theorem findSome?_inherited (n : Nat) :
    ((List.finRange n).reverse.findSome? fun (j : Fin n) =>
      (stepLineAt? ls document j).bind fun s =>
        let t := if (stepTypeOf ls s.keyword).continues then inheritedType ls document j else stepTypeOf ls s.keyword
        if t.isPrimary then some t else none).getD .other = inheritedType ls document n := by
  induction n with
  | zero => rfl
  | succ n ih =>
    rw [List.finRange_succ_last, List.reverse_append, List.reverse_singleton, List.singleton_append, List.findSome?_cons,
      inheritedType_succ, ← List.map_reverse, List.findSome?_map]
    simp only [Fin.val_last, Function.comp_def, Fin.val_castSucc]
    cases stepLineAt? ls document n with
    | none => exact ih
    | some s =>
      rw [Option.bind_some]
      cases hcontinues : (stepTypeOf ls s.keyword).continues with
      | false =>
        -- a category of its own decides if it is primary, here and there alike
        cases hprimary : (stepTypeOf ls s.keyword).isPrimary with
        | false => simpa [hprimary] using ih
        | true => simp [hprimary]
      | true =>
        -- what the line would resolve to is found behind it anyway
        have hown := isPrimary_of_continues hcontinues
        cases hprimary : (inheritedType ls document n).isPrimary with
        | false => simpa [hown, hprimary] using ih
        | true => simp [hown, hprimary]

/-- The rule gives a step that goes on with what came before what is handed down to it. -/
theorem contextType_eq (n : Nat) (keyword : Text) :
    contextType ls document n keyword =
      if (stepTypeOf ls keyword).continues then inheritedType ls document n else stepTypeOf ls keyword := by
  induction n using Nat.strongRecOn generalizing keyword with
  | ind n ih =>
    have habove : ∀ (j : Fin n) keyword, contextType ls document j keyword =
        if (stepTypeOf ls keyword).continues then inheritedType ls document j else stepTypeOf ls keyword :=
      fun j keyword => ih j j.isLt keyword
    rw [contextType]
    simp only [habove]
    rw [findSome?_inherited]

/-- The category of a step is the one the rule gives it. It depends only on the lines above, and two steps that go on with what came
before have the same category if no step line with a primary one stands between them. -/
theorem resolveType_eq_contextType (ls : List Language) (document : List Text) (n : Nat) (keyword : Text) :
    resolveType ls keyword n document = contextType ls document n keyword ∧
    (∀ document' : List Text, document'.take n = document.take n →
      resolveType ls keyword n document' = resolveType ls keyword n document) ∧
    ∀ i s s', i < n → stepLineAt? ls document i = some s → stepLineAt? ls document n = some s' →
      (stepTypeOf ls s.keyword).continues = true → (stepTypeOf ls s'.keyword).continues = true →
      (∀ j t, i < j → j < n → stepLineAt? ls document j = some t → (stepTypeOf ls t.keyword).isPrimary = false) →
      resolveType ls s'.keyword n document = resolveType ls s.keyword i document := by
  refine ⟨?_, ?_, ?_⟩
  · rw [resolveType_eq, contextType_eq]
  · intro document' hlines
    rw [resolveType_eq, resolveType_eq, inheritedType, inheritedType, hlines]
  · intro i s s' hlt hs _ hcontinues hcontinues' hbetween
    rw [resolveType_eq, resolveType_eq, if_pos hcontinues, if_pos hcontinues']
    refine inheritedType_eq_of_between (Nat.le_of_lt hlt) fun j t hij hjn ht => ?_
    rcases Nat.eq_or_lt_of_le hij with rfl | hij
    · -- the upper of the two lines has no primary category itself
      obtain rfl : s = t := Option.some.inj (hs.symm.trans ht)
      exact isPrimary_of_continues hcontinues
    · exact hbetween j t hij hjn ht

/-- Two continuations of a step, with a table between them. -/
theorem resolveType_eq_contextType_table :
    let ls : List Language := [⟨"q", [], ["When "], [], ["* ", "And "], [], []⟩]
    let document := ["When b", "  And c", "| x |", "And d"].map of
    contextType ls document 3 (of "And") = .action ∧
      resolveType ls (of "And") 3 document = resolveType ls (of "And") 1 document := by
  intro ls document
  -- the keywords are listed longest first already, so that nothing is left to sort
  have hkeywords : stepKeywords ls = [of "When", of "And"] := by
    have hsorted : List.Pairwise (fun a b => longestFirst a b = true) [of "When", of "And"] := by decide +kernel
    have hwords : (ls.flatMap fun l => l.keywords.map (·.1)).eraseDups = [of "When", of "And"] := by decide +kernel
    rw [stepKeywords, alternatives, hwords, List.mergeSort_of_pairwise hsorted]
  have hat : ∀ i, stepLineAt? ls document i = document[i]?.bind (StepLine.withKeywords? [of "When", of "And"]) := by
    intro i
    rw [← hkeywords]
    rfl
  have hfirst : stepLineAt? ls document 0 = some ⟨[], of "When", of " ", of "b"⟩ := (hat 0).trans (by decide +kernel)
  have hupper : stepLineAt? ls document 1 = some ⟨of "  ", of "And", of " ", of "c"⟩ := (hat 1).trans (by decide +kernel)
  have htable : stepLineAt? ls document 2 = none := (hat 2).trans (by decide +kernel)
  have hlower : stepLineAt? ls document 3 = some ⟨[], of "And", of " ", of "d"⟩ := (hat 3).trans (by decide +kernel)
  have hcontinues : (stepTypeOf ls (of "And")).continues = true := by decide +kernel
  obtain ⟨-, -, hsame⟩ := resolveType_eq_contextType ls document 3 (of "And")
  refine ⟨?_, hsame 1 _ _ (by decide) hupper hlower hcontinues hcontinues fun j t hlo hhi ht => ?_⟩
  · rw [contextType_eq, if_pos hcontinues, inheritedType_succ, htable, inheritedType_succ, hupper, inheritedType_succ, hfirst]
    decide +kernel
  · obtain rfl : j = 2 := by omega
    rw [htable] at ht
    cases ht

end StepCatalog.Gherkin
