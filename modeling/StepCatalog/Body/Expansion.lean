import StepCatalog.Text.Basic

/-!
# Expanding alternations

A group of alternatives `(a|b|c)`, also written `(?:a|b|c)`, without parentheses inside, can be replaced by each alternative in
turn. The expansion of a body replaces every group, those that come to light inside others included, and lists the bodies without
groups in the order of the choices from left to right.

The expansion keeps a list of bodies to work on and always takes the first one (`expandAll`). It ends because a body with its
first group replaced has fewer parentheses; `weight` measures what is left to do.
-/

namespace StepCatalog.Body

/-- A body cut at a group of alternatives. -/
structure GroupCut where
  before : Text
  alternatives : List Text
  after : Text
  deriving DecidableEq, Repr

/-- No parenthesis. -/
def isInside (c : Char) : Bool := c != '(' && c != ')'

/-- Whether a bar stands in the text with something on both sides. -/
def hasInnerBar : Text → Bool
  | _ :: s => s.dropLast.contains '|'
  | [] => false

/-- The alternatives of the inside of a group; the mark of a group that does not capture is no part of them. -/
def alternativesOf : Text → List Text
  | '?' :: ':' :: s => Text.splitOn '|' s
  | s => Text.splitOn '|' s

/-- The group of alternatives whose inside begins the text: its alternatives and what follows it. -/
def groupInside? (s : Text) : Option (List Text × Text) :=
  match s.dropWhile isInside with
  | ')' :: rest =>
    if hasInnerBar (s.takeWhile isInside) then some (alternativesOf (s.takeWhile isInside), rest) else none
  | _ => none

/-- The body cut at its first group of alternatives. -/
def cutGroup? : Text → Option GroupCut
  | [] => none
  | c :: s =>
    match (if c = '(' then groupInside? s else none) with
    | some (alternatives, rest) => some ⟨[], alternatives, rest⟩
    | none => (cutGroup? s).map fun cut => { cut with before := c :: cut.before }

/-- The bodies with the group replaced by each alternative. -/
def GroupCut.variants (cut : GroupCut) : List Text := cut.alternatives.map fun a => cut.before ++ a ++ cut.after

/-! ## Why the expansion ends -/

/-- The number of opening parentheses. -/
def openings (s : Text) : Nat := s.count '('

/-- A base multiplied with itself, once for every group that is left. -/
def bound (base : Nat) : Nat → Nat
  | 0 => base
  | groups + 1 => base * bound base groups

/-- What a body may still become, bounded from above. -/
def weight (s : Text) : Nat := bound (s.length + 2) (openings s)

/-- What a list of bodies may still become. -/
def weights : List Text → Nat
  | [] => 0
  | s :: rest => weight s + weights rest

/-- A part of a text at a character has only characters of the text, and there are at most as many parts as characters and one. -/
theorem splitOn_bounds (sep : Char) (s : Text) :
    (Text.splitOn sep s).length ≤ s.length + 1 ∧
      ∀ part ∈ Text.splitOn sep s, part.length ≤ s.length ∧ ∀ c ∈ part, c ∈ s := by
  induction s with
  | nil => simp [Text.splitOn]
  | cons c s ih =>
    obtain ⟨hlen, hparts⟩ := ih
    unfold Text.splitOn
    split
    · refine ⟨by simp only [List.length_cons]; omega, fun part hp => ?_⟩
      rcases List.mem_cons.mp hp with rfl | hp
      · simp
      · obtain ⟨h1, h2⟩ := hparts part hp
        exact ⟨by simp only [List.length_cons]; omega, fun x hx => List.mem_cons_of_mem _ (h2 x hx)⟩
    · cases h : Text.splitOn sep s with
      | nil => simp [Text.consFirst]
      | cons part parts =>
        rw [h] at hlen hparts
        simp only [Text.consFirst, List.length_cons] at hlen ⊢
        refine ⟨by omega, fun q hq => ?_⟩
        rcases List.mem_cons.mp hq with rfl | hq
        · obtain ⟨h1, h2⟩ := hparts part (by simp)
          refine ⟨by simp only [List.length_cons]; omega, fun x hx => ?_⟩
          rcases List.mem_cons.mp hx with rfl | hx
          · simp
          · exact List.mem_cons_of_mem _ (h2 x hx)
        · obtain ⟨h1, h2⟩ := hparts q (List.mem_cons_of_mem _ hq)
          exact ⟨by omega, fun x hx => List.mem_cons_of_mem _ (h2 x hx)⟩

/-- The alternatives of an inside are not longer than it, hold only its characters, and are at most as many as its characters and
one. -/
theorem alternativesOf_bounds (s : Text) :
    (alternativesOf s).length ≤ s.length + 1 ∧
      ∀ a ∈ alternativesOf s, a.length ≤ s.length ∧ ∀ c ∈ a, c ∈ s := by
  unfold alternativesOf
  split
  · next t =>
    obtain ⟨h1, h2⟩ := splitOn_bounds '|' t
    refine ⟨by simp only [List.length_cons]; omega, fun a ha => ?_⟩
    obtain ⟨h3, h4⟩ := h2 a ha
    exact ⟨by simp only [List.length_cons]; omega, fun c hc => by simp [h4 c hc]⟩
  · exact splitOn_bounds '|' _

/-- What a group's inside is cut into. -/
theorem groupInside?_eq_some {s : Text} {alternatives : List Text} {rest : Text}
    (h : groupInside? s = some (alternatives, rest)) :
    ∃ inside : Text, s = inside ++ ')' :: rest ∧ (∀ c ∈ inside, isInside c = true) ∧ alternatives = alternativesOf inside := by
  unfold groupInside? at h
  split at h
  · next t hd =>
    split at h
    · simp only [Option.some.injEq, Prod.mk.injEq] at h
      obtain ⟨rfl, rfl⟩ := h
      refine ⟨s.takeWhile isInside, ?_, List.all_eq_true.mp List.all_takeWhile, rfl⟩
      rw [← hd, List.takeWhile_append_dropWhile]
    · cases h
  · cases h

/-- What a body is cut into at its first group. -/
theorem cutGroup?_eq_some {s : Text} {cut : GroupCut} (h : cutGroup? s = some cut) :
    ∃ inside : Text, s = cut.before ++ '(' :: (inside ++ ')' :: cut.after) ∧ (∀ c ∈ inside, isInside c = true) ∧
      cut.alternatives = alternativesOf inside := by
  induction s generalizing cut with
  | nil => simp [cutGroup?] at h
  | cons c s ih =>
    unfold cutGroup? at h
    split at h
    · next alternatives rest hg =>
      simp only [Option.some.injEq] at h
      subst h
      split at hg
      · next hc =>
        obtain ⟨inside, hs, hin, ha⟩ := groupInside?_eq_some hg
        exact ⟨inside, by simp [hc, hs], hin, ha⟩
      · cases hg
    · obtain ⟨cut', hc, rfl⟩ := Option.map_eq_some_iff.mp h
      obtain ⟨inside, hs, hin, ha⟩ := ih hc
      exact ⟨inside, by simp [hs], hin, ha⟩

/-- Characters that are no parentheses add no opening. -/
theorem openings_eq_zero {s : Text} (h : ∀ c ∈ s, isInside c = true) : openings s = 0 := by
  unfold openings
  rw [List.count_eq_zero]
  intro hm
  have := h _ hm
  simp [isInside] at this

/-- Replacing the first group makes a body shorter by it and takes one opening away. -/
theorem variant_bounds {s : Text} {cut : GroupCut} (h : cutGroup? s = some cut) {v : Text} (hv : v ∈ cut.variants) :
    v.length + 2 ≤ s.length ∧ openings v + 1 = openings s := by
  obtain ⟨inside, hs, hin, ha⟩ := cutGroup?_eq_some h
  obtain ⟨a, hmem, rfl⟩ := List.mem_map.mp hv
  obtain ⟨hlen, hsub⟩ := (alternativesOf_bounds inside).2 a (ha ▸ hmem)
  have h0 : openings inside = 0 := openings_eq_zero hin
  have h1 : openings a = 0 := openings_eq_zero fun c hc => hin c (hsub c hc)
  unfold openings at h0 h1 ⊢
  rw [hs]
  constructor
  · simp only [List.length_append, List.length_cons]; omega
  · simp only [List.count_append, List.count_cons, h0, h1]
    simp only [beq_iff_eq, Char.reduceEq, if_false, if_true]
    omega

/-- There are fewer variants than characters. -/
theorem variants_length {s : Text} {cut : GroupCut} (h : cutGroup? s = some cut) : cut.variants.length ≤ s.length := by
  obtain ⟨inside, hs, _, ha⟩ := cutGroup?_eq_some h
  have := (alternativesOf_bounds inside).1
  simp only [GroupCut.variants, List.length_map, ha, hs, List.length_append, List.length_cons]
  omega

/-- A greater base gives a greater bound. -/
theorem bound_le_bound {a b : Nat} (h : a ≤ b) (groups : Nat) : bound a groups ≤ bound b groups := by
  induction groups with
  | zero => exact h
  | succ n ih => exact Nat.mul_le_mul h ih

/-- The bound on a base that is not zero is not zero. -/
theorem bound_pos {base : Nat} (h : 0 < base) (groups : Nat) : 0 < bound base groups := by
  induction groups with
  | zero => exact h
  | succ n ih => exact Nat.mul_pos h ih

/-- Every body weighs something. -/
theorem weight_pos (s : Text) : 0 < weight s := bound_pos (by omega) _

/-- A list of bodies weighs at most as much as its length times a bound on every one of them. -/
theorem weights_le (b : Nat) (l : List Text) (h : ∀ s ∈ l, weight s ≤ b) : weights l ≤ l.length * b := by
  induction l with
  | nil => simp [weights]
  | cons s l ih =>
    have h1 := h s (by simp)
    have h2 := ih fun t ht => h t (List.mem_cons_of_mem _ ht)
    simp only [weights, List.length_cons, Nat.add_mul, Nat.one_mul]
    omega

/-- The weight of two lists of bodies. -/
theorem weights_append (xs ys : List Text) : weights (xs ++ ys) = weights xs + weights ys := by
  induction xs with
  | nil => simp [weights]
  | cons s xs ih =>
    simp only [List.cons_append, weights, ih]
    omega

/-- The variants of a body weigh less than the body. -/
theorem weights_variants_lt {s : Text} {cut : GroupCut} (h : cutGroup? s = some cut) : weights cut.variants < weight s := by
  obtain ⟨n, hn⟩ : ∃ n, openings s = n + 1 := by
    obtain ⟨inside, hs, _, _⟩ := cutGroup?_eq_some h
    refine ⟨openings s - 1, ?_⟩
    have : 0 < openings s := by
      unfold openings
      rw [hs]
      simp only [List.count_append, List.count_cons_self]
      omega
    omega
  have hb : ∀ v ∈ cut.variants, weight v ≤ bound (s.length + 2) n := by
    intro v hv
    obtain ⟨h1, h2⟩ := variant_bounds h hv
    have h3 : openings v = n := by omega
    unfold weight
    rw [h3]
    exact bound_le_bound (by omega) n
  have hp : 0 < bound (s.length + 2) n := bound_pos (by omega) n
  calc weights cut.variants ≤ cut.variants.length * bound (s.length + 2) n := weights_le _ _ hb
    _ ≤ s.length * bound (s.length + 2) n := Nat.mul_le_mul_right _ (variants_length h)
    _ < (s.length + 2) * bound (s.length + 2) n := Nat.mul_lt_mul_of_pos_right (by omega) hp
    _ = weight s := by unfold weight; rw [hn]; rfl

/-! ## The expansion -/

/-- The expansions of a list of bodies: the first one is finished if it has no group of alternatives, and otherwise its variants
take its place. -/
def expandAll (pending : List Text) : List Text :=
  match pending with
  | [] => []
  | s :: rest =>
    match _h : cutGroup? s with
    | none => s :: expandAll rest
    | some cut => expandAll (cut.variants ++ rest)
termination_by weights pending
decreasing_by
  · have := weight_pos s
    simp only [weights]
    omega
  · have := weights_variants_lt _h
    rw [weights_append]
    simp only [weights]
    omega

/-- The bodies that a body stands for when every group of alternatives is replaced by each of its alternatives. -/
def expand (body : Text) : List Text := expandAll [body]

end StepCatalog.Body
