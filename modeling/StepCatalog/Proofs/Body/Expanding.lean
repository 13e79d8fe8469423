import StepCatalog.Proofs.Body.Phrase

/-!
# Expanding keeps the meaning

The expansion of a body works on its text: it cuts the text at the first group without parentheses inside and puts each alternative
in the group's place. On phrases this is `Phrase.reduce`, which replaces the first group of plain alternatives, wherever it stands.
One step on texts is one step on phrases (`variants?_write`), and such a step divides what the phrase stands for among the results
(`denotes_reduce`); so the whole expansion does (`expand_anchored`).

Main statement: `occursIn_iff_exists_expand`.
-/

namespace StepCatalog.Body

open Regex
open Text (of)

/-! ## The expansion of several bodies -/

theorem expandAll_cons_none {s : Text} (h : cutGroup? s = none) (rest : List Text) :
    expandAll (s :: rest) = s :: expandAll rest := by
  rw [expandAll]
  split
  · rfl
  · rename_i cut hcut
    rw [h] at hcut
    cases hcut

theorem expandAll_cons_some {s : Text} {cut : GroupCut} (h : cutGroup? s = some cut) (rest : List Text) :
    expandAll (s :: rest) = expandAll (cut.variants ++ rest) := by
  rw [expandAll]
  split
  · rename_i hcut
    rw [h] at hcut
    cases hcut
  · rename_i cut' hcut
    rw [h] at hcut
    cases hcut
    rfl

/-- Bodies are expanded one after the other. -/
theorem expandAll_append (xs ys : List Text) : expandAll (xs ++ ys) = expandAll xs ++ expandAll ys := by
  induction xs using expandAll.induct with
  | case1 => rw [List.nil_append, expandAll, List.nil_append]
  | case2 s rest hcut ih => rw [List.cons_append, expandAll_cons_none hcut, expandAll_cons_none hcut, ih, List.cons_append]
  | case3 s rest cut hcut ih =>
    rw [List.cons_append, expandAll_cons_some hcut, expandAll_cons_some hcut, ← List.append_assoc]
    exact ih

theorem expandAll_eq_flatMap (xs : List Text) : expandAll xs = xs.flatMap expand := by
  induction xs with
  | nil => rw [expandAll, List.flatMap_nil]
  | cons s xs ih =>
    rw [← List.singleton_append, expandAll_append, ih]
    rfl

/-- The variants of a body, if it has a group of alternatives. -/
def variants? (s : Text) : Option (List Text) := (cutGroup? s).map GroupCut.variants

/-- A body without a group is its only expansion. -/
theorem expand_of_variants?_none {s : Text} (h : variants? s = none) : expand s = [s] := by
  have hcut : cutGroup? s = none := Option.map_eq_none_iff.1 h
  rw [expand, expandAll_cons_none hcut, expandAll]

/-- The expansions of a body with a group are those of its variants. -/
theorem expand_of_variants?_some {s : Text} {vs : List Text} (h : variants? s = some vs) : expand s = vs.flatMap expand := by
  obtain ⟨cut, hcut, rfl⟩ := Option.map_eq_some_iff.1 h
  rw [expand, expandAll_cons_some hcut, List.append_nil, expandAll_eq_flatMap]

theorem openings_lt_of_variants? {s v : Text} {vs : List Text} (h : variants? s = some vs) (hv : v ∈ vs) :
    openings v < openings s := by
  obtain ⟨cut, hcut, rfl⟩ := Option.map_eq_some_iff.1 h
  have hfewer := (variant_bounds hcut hv).2
  omega

/-! ## The first group of a text -/

/-- A character at which no group of alternatives opens stays in front. -/
theorem variants?_cons {c : Char} {s : Text} (h : c = '(' → groupInside? s = none) :
    variants? (c :: s) = (variants? s).map fun vs => vs.map (c :: ·) := by
  have hnone : (if c = '(' then groupInside? s else none) = none := by
    split
    · rename_i hc
      exact h hc
    · rfl
  unfold variants?
  rw [cutGroup?, hnone, Option.map_map, Option.map_map]
  congr 1
  funext cut
  simp [GroupCut.variants]

theorem variants?_skip {u : Text} (hu : ∀ c ∈ u, isInside c = true) (s : Text) :
    variants? (u ++ s) = (variants? s).map fun vs => vs.map (u ++ ·) := by
  induction u with
  | nil =>
    simp only [List.nil_append]
    cases variants? s <;> simp
  | cons c u ih =>
    have hc : c ≠ '(' := by
      rintro rfl
      exact absurd (hu '(' (by simp)) (by decide)
    rw [List.cons_append, variants?_cons fun h => absurd h hc, ih fun x hx => hu x (List.mem_cons_of_mem _ hx), Option.map_map]
    congr 1
    funext vs
    simp

/-- A parenthesis with another one inside of it opens no group yet. -/
theorem groupInside?_nested {u : Text} (hu : ∀ c ∈ u, isInside c = true) (v : Text) : groupInside? (u ++ '(' :: v) = none := by
  unfold groupInside?
  rw [List.dropWhile_append_of_pos hu, List.dropWhile_cons_of_neg (by decide)]
  rfl

theorem groupInside?_of_parenthesis {pre w u v : Text} (hpre : ∀ c ∈ pre, isInside c = true) (hw : w = u ++ '(' :: v)
    (hu : ∀ c ∈ u, isInside c = true) (s : Text) : groupInside? (pre ++ (w ++ s)) = none := by
  have hnested : groupInside? ((pre ++ u) ++ '(' :: (v ++ s)) = none := by
    refine groupInside?_nested (fun c hc => ?_) _
    exact (List.mem_append.1 hc).elim (hpre c) (hu c)
  simpa [hw] using hnested

/-- Characters that are no parentheses, closed by one, are the inside of a group if a bar stands among them. -/
theorem groupInside?_append {inside : Text} (hinside : ∀ c ∈ inside, isInside c = true) (s : Text) :
    groupInside? (inside ++ ')' :: s) = if hasInnerBar inside then some (alternativesOf inside, s) else none := by
  unfold groupInside?
  rw [List.dropWhile_append_of_pos hinside, List.dropWhile_cons_of_neg (by decide), List.takeWhile_append_of_pos hinside,
    List.takeWhile_cons_of_neg (by decide), List.append_nil]
  rfl

/-- A parenthesis with a bar and no parenthesis inside of it opens a group. -/
theorem variants?_group {inside : Text} (hinside : ∀ c ∈ inside, isInside c = true) (hbar : hasInnerBar inside = true) (s : Text) :
    variants? ('(' :: (inside ++ ')' :: s)) = some ((alternativesOf inside).map (· ++ s)) := by
  unfold variants?
  rw [cutGroup?, if_pos rfl, groupInside?_append hinside, if_pos hbar]
  simp [GroupCut.variants]

theorem hasInnerBar_append {u v : Text} (hu : u ≠ []) (hv : v ≠ []) : hasInnerBar (u ++ '|' :: v) = true := by
  obtain ⟨c, u, rfl⟩ := List.exists_cons_of_ne_nil hu
  rw [List.cons_append, hasInnerBar, List.dropLast_append_of_ne_nil (List.cons_ne_nil _ _), List.dropLast_cons_of_ne_nil hv]
  simp

/-! ## The first group of a phrase -/

namespace Phrase

/-- The alternatives one by one. -/
def alternatives : Phrase .choice → List (Phrase .sequence)
  | .one alternative => [alternative]
  | .more alternative others => alternative :: others.alternatives

/-- The phrases with the first group of plain alternatives replaced by each of them, if there is a group. -/
def reduce {k : Shape} : Phrase k → Option (List (Phrase k))
  | .char _ _ => none
  | .both first second =>
    match first.reduce with
    | some firsts => some (firsts.map (.both · second))
    | none => second.reduce.map fun seconds => seconds.map (.both first ·)
  | .group captures first others =>
    match first.reduce, others.reduce with
    | some firsts, _ => some (firsts.map (.group captures · others))
    | none, some rests => some (rests.map (.group captures first ·))
    | none, none => some (first :: others.alternatives)
  | .one alternative => alternative.reduce.map fun ps => ps.map .one
  | .more alternative others =>
    match alternative.reduce with
    | some ps => some (ps.map (.more · others))
    | none => others.reduce.map fun rests => rests.map (.more alternative ·)

/-! ### What the results stand for -/

theorem denotes_alternatives : ∀ (p : Phrase .choice) (w : Text), p.Denotes w ↔ ∃ q ∈ p.alternatives, q.Denotes w
  | .one alternative, w => by simp [Denotes, alternatives]
  | .more alternative others, w => by
    rw [Denotes, denotes_alternatives others w, alternatives, List.exists_mem_cons_iff]

/-- There is always a result. -/
theorem reduce_ne_nil {k : Shape} (p : Phrase k) : p.reduce ≠ some [] := by
  induction p with
  | char c hc =>
    intro h
    cases h
  | both first second ih1 ih2 =>
    rw [reduce]
    split
    · rename_i firsts hfirst
      intro h
      rw [List.map_eq_nil_iff.1 (Option.some.inj h)] at hfirst
      exact ih1 hfirst
    · simpa using ih2
  | group captures first others ih1 ih2 =>
    rw [reduce]
    split
    · rename_i firsts hfirst
      intro h
      rw [List.map_eq_nil_iff.1 (Option.some.inj h)] at hfirst
      exact ih1 hfirst
    · rename_i rests _ hothers
      intro h
      rw [List.map_eq_nil_iff.1 (Option.some.inj h)] at hothers
      exact ih2 hothers
    · intro h
      cases h
  | one alternative ih => simpa [reduce] using ih
  | more alternative others ih1 ih2 =>
    rw [reduce]
    split
    · rename_i ps hps
      intro h
      rw [List.map_eq_nil_iff.1 (Option.some.inj h)] at hps
      exact ih1 hps
    · simpa using ih2

/-- If the first of two alternatives is divided among results, so are both together, beside the second one. -/
theorem or_left_divided {α : Type} {A : α → Prop} {B : Prop} {qs : List α} (hne : qs ≠ []) :
    (∃ q ∈ qs, A q) ∨ B ↔ ∃ q ∈ qs, A q ∨ B := by
  obtain ⟨q₀, qs, rfl⟩ := List.exists_cons_of_ne_nil hne
  constructor
  · rintro (⟨q, hq, hA⟩ | hB)
    · exact ⟨q, hq, Or.inl hA⟩
    · exact ⟨q₀, by simp, Or.inr hB⟩
  · rintro ⟨q, hq, hA | hB⟩
    · exact Or.inl ⟨q, hq, hA⟩
    · exact Or.inr hB

theorem or_right_divided {α : Type} {A : Prop} {B : α → Prop} {qs : List α} (hne : qs ≠ []) :
    A ∨ (∃ q ∈ qs, B q) ↔ ∃ q ∈ qs, A ∨ B q := by
  rw [or_comm, or_left_divided hne]
  simp only [or_comm]

/-- The results of replacing the first group divide among them what the phrase stands for. -/
theorem denotes_reduce {k : Shape} (p : Phrase k) :
    ∀ {ps : List (Phrase k)}, p.reduce = some ps → ∀ w, p.Denotes w ↔ ∃ q ∈ ps, q.Denotes w := by
  induction p with
  | char c hc =>
    intro ps h
    cases h
  | both first second ih1 ih2 =>
    intro ps h w
    rw [reduce] at h
    split at h
    · rename_i firsts hfirst
      cases h
      simp only [List.mem_map, exists_exists_and_eq_and, Denotes, ih1 hfirst]
      constructor
      · rintro ⟨u, v, rfl, ⟨q, hq, hu⟩, hv⟩
        exact ⟨q, hq, u, v, rfl, hu, hv⟩
      · rintro ⟨q, hq, u, v, rfl, hu, hv⟩
        exact ⟨u, v, rfl, ⟨q, hq, hu⟩, hv⟩
    · obtain ⟨seconds, hsecond, rfl⟩ := Option.map_eq_some_iff.1 h
      simp only [List.mem_map, exists_exists_and_eq_and, Denotes, ih2 hsecond]
      constructor
      · rintro ⟨u, v, rfl, hu, q, hq, hv⟩
        exact ⟨q, hq, u, v, rfl, hu, hv⟩
      · rintro ⟨q, hq, u, v, rfl, hu, hv⟩
        exact ⟨u, v, rfl, hu, q, hq, hv⟩
  | group captures first others ih1 ih2 =>
    intro ps h w
    rw [reduce] at h
    split at h
    · rename_i firsts hfirst
      cases h
      have hne : firsts ≠ [] := fun hnil => first.reduce_ne_nil (hnil ▸ hfirst)
      simp only [List.mem_map, exists_exists_and_eq_and, Denotes, ih1 hfirst]
      exact or_left_divided hne
    · rename_i rests _ hothers
      cases h
      have hne : rests ≠ [] := fun hnil => others.reduce_ne_nil (hnil ▸ hothers)
      simp only [List.mem_map, exists_exists_and_eq_and, Denotes, ih2 hothers]
      exact or_right_divided hne
    · cases h
      rw [Denotes, List.exists_mem_cons_iff, denotes_alternatives others w]
  | one alternative ih =>
    intro ps h w
    obtain ⟨qs, hqs, rfl⟩ := Option.map_eq_some_iff.1 h
    simp only [List.mem_map, exists_exists_and_eq_and, Denotes, ih hqs]
  | more alternative others ih1 ih2 =>
    intro ps h w
    rw [reduce] at h
    split at h
    · rename_i qs hqs
      cases h
      have hne : qs ≠ [] := fun hnil => alternative.reduce_ne_nil (hnil ▸ hqs)
      simp only [List.mem_map, exists_exists_and_eq_and, Denotes, ih1 hqs]
      exact or_left_divided hne
    · obtain ⟨rests, hrests, rfl⟩ := Option.map_eq_some_iff.1 h
      have hne : rests ≠ [] := fun hnil => others.reduce_ne_nil (hnil ▸ hrests)
      simp only [List.mem_map, exists_exists_and_eq_and, Denotes, ih2 hrests]
      exact or_right_divided hne

/-! ### How the results are written -/

/-- A phrase without groups is made of plain characters, with bars between alternatives. -/
theorem mem_write_of_reduce_none {k : Shape} (p : Phrase k) :
    p.reduce = none → ∀ c ∈ p.write, isPlain c = true ∨ c = '|' ∧ k = .choice := by
  induction p with
  | char c hc =>
    intro _ x hx
    obtain rfl : x = c := by simpa [write] using hx
    exact Or.inl hc
  | both first second ih1 ih2 =>
    intro h x hx
    rw [reduce] at h
    split at h
    · cases h
    · rename_i hfirst
      rcases List.mem_append.1 hx with hx | hx
      · exact ih1 hfirst x hx
      · exact ih2 (Option.map_eq_none_iff.1 h) x hx
  | group captures first others =>
    intro h
    rw [reduce] at h
    split at h <;> cases h
  | one alternative ih =>
    intro h x hx
    rcases ih (Option.map_eq_none_iff.1 h) x hx with hc | ⟨_, hk⟩
    · exact Or.inl hc
    · cases hk
  | more alternative others ih1 ih2 =>
    intro h x hx
    rw [reduce] at h
    split at h
    · cases h
    · rename_i halternative
      simp only [write, List.mem_append, List.mem_cons] at hx
      rcases hx with hx | rfl | hx
      · rcases ih1 halternative x hx with hc | ⟨_, hk⟩
        · exact Or.inl hc
        · cases hk
      · exact Or.inr ⟨rfl, rfl⟩
      · exact ih2 (Option.map_eq_none_iff.1 h) x hx

theorem isInside_of_isPlain {c : Char} (h : isPlain c = true) : isInside c = true := by
  simp only [isInside, Bool.and_eq_true, bne_iff_ne]
  exact ⟨ne_of_isPlain h (by decide), ne_of_isPlain h (by decide)⟩

theorem inside_of_reduce_none {k : Shape} {p : Phrase k} (h : p.reduce = none) : ∀ c ∈ p.write, isInside c = true := by
  intro c hc
  rcases p.mem_write_of_reduce_none h c hc with hplain | ⟨rfl, _⟩
  · exact isInside_of_isPlain hplain
  · decide

theorem bar_not_mem_of_reduce_none {p : Phrase .sequence} (h : p.reduce = none) : '|' ∉ p.write := by
  intro hm
  rcases p.mem_write_of_reduce_none h _ hm with hplain | ⟨_, hk⟩
  · exact absurd hplain (by decide)
  · cases hk

/-- Plain alternatives are found again at the bars. -/
theorem splitOn_write : ∀ (p : Phrase .choice), p.reduce = none → Text.splitOn '|' p.write = p.alternatives.map write
  | .one alternative, h => by
    have hbar := bar_not_mem_of_reduce_none (Option.map_eq_none_iff.1 h)
    rw [Text.splitOn_eq_list, show (one alternative).write = alternative.write from rfl, List.splitOn_eq_singleton hbar,
      alternatives, List.map_singleton]
  | .more alternative others, h => by
    rw [reduce] at h
    split at h
    · cases h
    · rename_i halternative
      have hothers : others.reduce = none := Option.map_eq_none_iff.1 h
      rw [show (more alternative others).write = alternative.write ++ '|' :: others.write from rfl,
        Text.splitOn_append_cons (bar_not_mem_of_reduce_none halternative), splitOn_write others hothers, alternatives,
        List.map_cons]

theorem isInside_of_mem_mark (captures : Bool) : ∀ c ∈ mark captures, isInside c = true := by
  cases captures <;> simp [mark, isInside]

/-- The mark of a group is no part of its alternatives. -/
theorem alternativesOf_mark (captures : Bool) {s : Text} (h : s.head? ≠ some '?') :
    alternativesOf (mark captures ++ s) = Text.splitOn '|' s := by
  cases captures with
  | false => rfl
  | true =>
    rw [mark, if_pos rfl, List.nil_append]
    unfold alternativesOf
    split
    · exact absurd rfl h
    · rfl

/-- The alternatives of the inside of a group of plain alternatives. -/
theorem alternativesOf_inside (captures : Bool) {first : Phrase .sequence} {others : Phrase .choice} (h1 : first.reduce = none)
    (h2 : others.reduce = none) :
    alternativesOf (mark captures ++ (first.write ++ '|' :: others.write)) = (first :: others.alternatives).map write := by
  have hhead : (first.write ++ '|' :: others.write).head? ≠ some '?' :=
    fun hmark => (first.fresh ('|' :: others.write) '?' hmark).1 rfl
  rw [alternativesOf_mark captures hhead, Text.splitOn_append_cons (bar_not_mem_of_reduce_none h1), splitOn_write others h2,
    List.map_cons]

/-- A phrase with a group holds a parenthesis, and an opening one comes first. -/
theorem parenthesis_of_variants? {k : Shape} {p : Phrase k} {vs : List Text} (h : variants? (p.write ++ []) = some vs) :
    ∃ u v, p.write = u ++ '(' :: v ∧ ∀ c ∈ u, isInside c = true := by
  rcases p.first_parenthesis with hinside | hparen
  · rw [variants?_skip hinside] at h
    cases h
  · exact hparen

/-- One step of the expansion of a text is one step on the phrase that the text begins with. -/
theorem variants?_write {k : Shape} (p : Phrase k) :
    ∀ {ps : List (Phrase k)}, p.reduce = some ps → ∀ s, variants? (p.write ++ s) = some (ps.map (·.write ++ s)) := by
  induction p with
  | char c hc =>
    intro ps h
    cases h
  | both first second ih1 ih2 =>
    intro ps h s
    rw [reduce] at h
    rw [write, List.append_assoc]
    split at h
    · rename_i firsts hfirst
      cases h
      rw [ih1 hfirst]
      simp [write, Function.comp_def]
    · rename_i hfirst
      obtain ⟨seconds, hsecond, rfl⟩ := Option.map_eq_some_iff.1 h
      rw [variants?_skip (inside_of_reduce_none hfirst), ih2 hsecond]
      simp [write, Function.comp_def]
  | group captures first others ih1 ih2 =>
    intro ps h s
    have hwrite : (group captures first others).write ++ s =
        '(' :: (mark captures ++ (first.write ++ '|' :: (others.write ++ ')' :: s))) := by
      simp [write]
    have hmark := isInside_of_mem_mark captures
    rw [reduce] at h
    rw [hwrite]
    split at h
    · rename_i firsts hfirst
      cases h
      obtain ⟨u, v, hw, hu⟩ := parenthesis_of_variants? (ih1 hfirst [])
      have hnone := groupInside?_of_parenthesis hmark hw hu ('|' :: (others.write ++ ')' :: s))
      rw [variants?_cons fun _ => hnone, variants?_skip hmark, ih1 hfirst]
      simp [write, Function.comp_def]
    · rename_i rests hfirst hothers
      cases h
      obtain ⟨u, v, hw, hu⟩ := parenthesis_of_variants? (ih2 hothers [])
      have hpre : ∀ c ∈ mark captures ++ (first.write ++ ['|']), isInside c = true := by
        intro c hc
        simp only [List.mem_append, List.mem_singleton] at hc
        rcases hc with hc | hc | rfl
        · exact hmark c hc
        · exact inside_of_reduce_none hfirst c hc
        · decide
      have hnone := groupInside?_of_parenthesis hpre hw hu (')' :: s)
      simp only [List.append_assoc, List.singleton_append] at hnone
      rw [variants?_cons fun _ => hnone, variants?_skip hmark, variants?_skip (inside_of_reduce_none hfirst),
        variants?_cons (c := '|') fun hc => absurd hc (by decide), ih2 hothers]
      simp [write, Function.comp_def]
    · rename_i hfirst hothers
      cases h
      have hinside : ∀ c ∈ mark captures ++ (first.write ++ '|' :: others.write), isInside c = true := by
        intro c hc
        simp only [List.mem_append, List.mem_cons] at hc
        rcases hc with hc | hc | rfl | hc
        · exact hmark c hc
        · exact inside_of_reduce_none hfirst c hc
        · decide
        · exact inside_of_reduce_none hothers c hc
      have hbar : hasInnerBar (mark captures ++ (first.write ++ '|' :: others.write)) = true := by
        rw [← List.append_assoc]
        exact hasInnerBar_append (by simp [first.write_ne_nil]) others.write_ne_nil
      have hgroup := variants?_group hinside hbar s
      rw [alternativesOf_inside captures hfirst hothers, List.map_map] at hgroup
      simp only [List.append_assoc, List.cons_append] at hgroup
      exact hgroup
  | one alternative ih =>
    intro ps h s
    obtain ⟨qs, hqs, rfl⟩ := Option.map_eq_some_iff.1 h
    rw [write, ih hqs]
    simp [write, Function.comp_def]
  | more alternative others ih1 ih2 =>
    intro ps h s
    rw [reduce] at h
    rw [write, List.append_assoc, List.cons_append]
    split at h
    · rename_i qs hqs
      cases h
      rw [ih1 hqs]
      simp [write, Function.comp_def]
    · rename_i halternative
      obtain ⟨rests, hrests, rfl⟩ := Option.map_eq_some_iff.1 h
      rw [variants?_skip (inside_of_reduce_none halternative), variants?_cons (c := '|') fun hc => absurd hc (by decide),
        ih2 hrests]
      simp [write, Function.comp_def]

end Phrase

/-! ## The whole expansion -/

/-- One step of the expansion of a phrase between anchors. -/
theorem variants?_anchored (start stop : Bool) (p : Phrase .sequence) :
    variants? (anchored start stop (some p)) = p.reduce.map fun qs => qs.map fun q => anchored start stop (some q) := by
  have hstart : ∀ c ∈ (if start then ['^'] else [] : Text), isInside c = true := by cases start <;> simp [isInside]
  unfold anchored
  rw [variants?_skip hstart]
  simp only [Option.map_some, Option.getD_some]
  cases hp : p.reduce with
  | none =>
    have hend : variants? (if stop then ['$'] else []) = none := by cases stop <;> decide
    rw [variants?_skip (Phrase.inside_of_reduce_none hp), hend]
    rfl
  | some qs =>
    rw [p.variants?_write hp]
    simp [Function.comp_def]

/-- The expansions of a phrase are phrases between the same anchors that divide among them what the phrase stands for. -/
def Expands (start stop : Bool) (phrase : Option (Phrase .sequence)) : Prop :=
  ∃ ps : List (Option (Phrase .sequence)), expand (anchored start stop phrase) = ps.map (anchored start stop) ∧
    ∀ w, PhraseDenotes phrase w ↔ ∃ q ∈ ps, PhraseDenotes q w

/-- Several phrases are expanded one after the other. -/
theorem expands_all {start stop : Bool} {phrases : List (Option (Phrase .sequence))}
    (h : ∀ q ∈ phrases, Expands start stop q) :
    ∃ ps : List (Option (Phrase .sequence)), (phrases.map (anchored start stop)).flatMap expand = ps.map (anchored start stop) ∧
      ∀ w, (∃ q ∈ phrases, PhraseDenotes q w) ↔ ∃ q ∈ ps, PhraseDenotes q w := by
  induction phrases with
  | nil => exact ⟨[], rfl, fun w => Iff.rfl⟩
  | cons q phrases ih =>
    obtain ⟨ps, hexpand, hdenotes⟩ := h q (by simp)
    obtain ⟨rest, hrest, hdenotes'⟩ := ih fun r hr => h r (List.mem_cons_of_mem _ hr)
    refine ⟨ps ++ rest, ?_, fun w => ?_⟩
    · rw [List.map_cons, List.flatMap_cons, hexpand, hrest, List.map_append]
    · rw [List.exists_mem_cons_iff, hdenotes w, hdenotes' w]
      simp only [List.mem_append, or_and_right, exists_or]

theorem expand_anchored (start stop : Bool) (phrase : Option (Phrase .sequence)) : Expands start stop phrase := by
  -- every step takes a parenthesis away
  induction hn : openings (anchored start stop phrase) using Nat.strongRecOn generalizing phrase with
  | ind n ih =>
    cases phrase with
    | none =>
      have hnone : variants? (anchored start stop none) = none := by cases start <;> cases stop <;> decide
      exact ⟨[none], expand_of_variants?_none hnone, fun w => by simp⟩
    | some p =>
      have hvariants := variants?_anchored start stop p
      cases hp : p.reduce with
      | none =>
        rw [hp] at hvariants
        exact ⟨[some p], expand_of_variants?_none hvariants, fun w => by simp⟩
      | some qs =>
        rw [hp] at hvariants
        have hall : ∀ q ∈ qs.map some, Expands start stop q := by
          intro q hq
          obtain ⟨r, hr, rfl⟩ := List.mem_map.1 hq
          have hlt := openings_lt_of_variants? hvariants (List.mem_map_of_mem hr)
          exact ih _ (hn ▸ hlt) (some r) rfl
        obtain ⟨ps, hexpand, hdenotes⟩ := expands_all hall
        refine ⟨ps, ?_, fun w => ?_⟩
        · rw [expand_of_variants?_some hvariants, ← hexpand, List.map_map]
          rfl
        · rw [← hdenotes w]
          simp only [List.mem_map, exists_exists_and_eq_and]
          exact p.denotes_reduce hp w

/-- A phrase between anchors compiles, each of its expansions compiles, and it is found in just those texts in which one of them is
found. -/
theorem occursIn_iff_exists_expand (start stop : Bool) (phrase : Option (Phrase .sequence)) :
    ∃ c, compile .pattern (anchored start stop phrase) = .ok c ∧
      (∀ v ∈ expand (anchored start stop phrase), ∃ d, compile .pattern v = .ok d) ∧
      ∀ s, c.full.occursIn s = true ↔
        ∃ v ∈ expand (anchored start stop phrase), ∃ d, compile .pattern v = .ok d ∧ d.full.occursIn s = true := by
  obtain ⟨c, hc, hfull⟩ := compile_anchored start stop phrase
  obtain ⟨ps, hexpand, hdenotes⟩ := expand_anchored start stop phrase
  rw [hexpand]
  refine ⟨c, hc, ?_, fun s => ?_⟩
  · intro v hv
    obtain ⟨q, _, rfl⟩ := List.mem_map.1 hv
    obtain ⟨d, hd, _⟩ := compile_anchored start stop q
    exact ⟨d, hd⟩
  · rw [hfull s]
    constructor
    · rintro ⟨pre, w, after, rfl, hstart, hw, hstop⟩
      obtain ⟨q, hq, hw⟩ := (hdenotes w).1 hw
      obtain ⟨d, hd, hfound⟩ := compile_anchored start stop q
      refine ⟨_, List.mem_map_of_mem hq, d, hd, (hfound _).2 ?_⟩
      exact ⟨pre, w, after, rfl, hstart, hw, hstop⟩
    · rintro ⟨v, hv, d, hd, hs⟩
      obtain ⟨q, hq, rfl⟩ := List.mem_map.1 hv
      obtain ⟨d', hd', hfound⟩ := compile_anchored start stop q
      rw [hd'] at hd
      obtain rfl : d' = d := Except.ok.inj hd
      obtain ⟨pre, w, after, rfl, hstart, hw, hstop⟩ := (hfound s).1 hs
      exact ⟨pre, w, after, rfl, hstart, (hdenotes w).2 ⟨q, hq, hw⟩, hstop⟩

end StepCatalog.Body
