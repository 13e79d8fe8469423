import Mathlib.Algebra.Group.Int.Defs
import Mathlib.Algebra.Group.Nat.Defs
import Mathlib.Data.Set.Function
import StepCatalog.Editor.InsertText
import StepCatalog.Proofs.Text.Parts

/-!
# The order of sort keys

Completions are put in order by keys: letters that write the count of a step, a mark, and the text of the step. All letters for a
width stand for different numbers, and the higher number has the earlier letters (`sortLetters_append_lt_iff`); so the keys put the
higher count first and, among equal counts, the earlier text (`sortKey_append_lt_iff`).

Main statement: `sortKey_reverses_order` (a key is a code of fixed width that turns the order of counts around).
-/

namespace StepCatalog

namespace Editor

/-! ## Letters that write a number -/

theorem writable_pos (width : Nat) : 0 < writable width := by
  induction width with
  | zero => exact Nat.one_pos
  | succ width ih => exact Nat.mul_pos (by decide) ih

theorem writable_eq_pow (width : Nat) : writable width = 26 ^ width := by
  induction width with
  | zero => rfl
  | succ width ih => rw [writable, ih, Nat.pow_succ, Nat.mul_comm]

/-- Of two letters, the one that stands for more is the earlier one. -/
theorem letter_lt_iff {m n : Nat} (hm : m < 26) (hn : n < 26) : Char.ofNat (90 - m) < Char.ofNat (90 - n) ↔ n < m := by
  have hall : ∀ m < 26, ∀ n < 26, (Char.ofNat (90 - m) < Char.ofNat (90 - n) ↔ n < m) := by decide
  exact hall m hm n hn

theorem letter_eq_iff {m n : Nat} (hm : m < 26) (hn : n < 26) : Char.ofNat (90 - m) = Char.ofNat (90 - n) ↔ m = n := by
  have hall : ∀ m < 26, ∀ n < 26, (Char.ofNat (90 - m) = Char.ofNat (90 - n) ↔ m = n) := by decide
  exact hall m hm n hn

theorem letter_mem {n : Nat} (hn : n < 26) : 'A' ≤ Char.ofNat (90 - n) ∧ Char.ofNat (90 - n) ≤ 'Z' := by
  have hall : ∀ n < 26, 'A' ≤ Char.ofNat (90 - n) ∧ Char.ofNat (90 - n) ≤ 'Z' := by decide
  exact hall n hn

/-- Numbers are compared by quotients, then by remainders. -/
theorem lt_iff_div_mod (d m n : Nat) : n < m ↔ n / d < m / d ∨ m / d = n / d ∧ n % d < m % d := by
  have hm := Nat.div_add_mod m d
  have hn := Nat.div_add_mod n d
  constructor
  · intro hlt
    rcases Nat.lt_or_eq_of_le (Nat.div_le_div_right (c := d) hlt.le) with hdiv | hdiv
    · exact .inl hdiv
    · rw [hdiv] at hn
      exact .inr ⟨hdiv.symm, by omega⟩
  · rintro (hdiv | ⟨hdiv, hmod⟩)
    · exact Nat.lt_of_div_lt_div hdiv
    · rw [hdiv] at hm
      omega

/-- The first letter of a number that can be written stands for one of 26 shares. -/
theorem div_writable_lt {width n : Nat} (hn : n < writable (width + 1)) : n / writable width < 26 :=
  Nat.div_lt_of_lt_mul (Nat.mul_comm .. ▸ hn)

theorem length_sortLetters (width n : Nat) : (sortLetters width n).length = width := by
  induction width generalizing n with
  | zero => rfl
  | succ width ih => rw [sortLetters, List.length_cons, ih]

/-- A number that can be written is written with capital letters. -/
theorem capital_of_mem_sortLetters {width n : Nat} (hn : n < writable width) {c : Char} (hc : c ∈ sortLetters width n) :
    'A' ≤ c ∧ c ≤ 'Z' := by
  -- what is left behind the first letter can be written with the letters that are left
  induction width generalizing n with
  | zero => cases hc
  | succ width ih =>
    rcases List.mem_cons.1 hc with rfl | hc
    · exact letter_mem (div_writable_lt hn)
    · exact ih (Nat.mod_lt _ (writable_pos width)) hc

/-- Behind the letters of two numbers, texts are compared only if the numbers are equal; the letters of the higher number come
first. -/
theorem sortLetters_append_lt_iff {width m n : Nat} (hm : m < writable width) (hn : n < writable width) (s t : Text) :
    sortLetters width m ++ s < sortLetters width n ++ t ↔ n < m ∨ m = n ∧ s < t := by
  induction width generalizing m n with
  | zero =>
    obtain rfl : m = 0 := Nat.lt_one_iff.1 hm
    obtain rfl : n = 0 := Nat.lt_one_iff.1 hn
    simp [sortLetters]
  | succ width ih =>
    have hpos := writable_pos width
    have hdivm := div_writable_lt hm
    have hdivn := div_writable_lt hn
    rw [sortLetters, sortLetters, List.cons_append, List.cons_append, List.cons_lt_cons_iff, letter_lt_iff hdivm hdivn,
      letter_eq_iff hdivm hdivn, ih (Nat.mod_lt _ hpos) (Nat.mod_lt _ hpos), lt_iff_div_mod (writable width) m n]
    have heq : m = n ↔ m / writable width = n / writable width ∧ m % writable width = n % writable width := by
      constructor
      · rintro rfl
        exact ⟨rfl, rfl⟩
      · rintro ⟨hdiv, hmod⟩
        rw [← Nat.div_add_mod m (writable width), ← Nat.div_add_mod n (writable width), hdiv, hmod]
    rw [heq]
    tauto

/-! ## Keys -/

theorem clampCount_lt (width : Nat) (count : Int) : clampCount width count < writable width := by
  have hpos := writable_pos width
  unfold clampCount
  omega

/-- Keys put the higher count first, up to the greatest that the letters write, and then the earlier text. -/
theorem sortKey_append_lt_iff (width : Nat) (m n : Int) (s t : Text) :
    sortKey width m ++ s < sortKey width n ++ t ↔
      clampCount width n < clampCount width m ∨ clampCount width m = clampCount width n ∧ s < t :=
  sortLetters_append_lt_iff (clampCount_lt width m) (clampCount_lt width n) s t

/-- The count that a key writes is brought between zero and the last number that the letters write. -/
theorem clampCount_eq (width : Nat) (count : Int) : (clampCount width count : Int) = min (max count 0) (26 ^ width - 1) := by
  have hpos := writable_pos width
  have hpow : (26 : Int) ^ width = writable width := by rw [writable_eq_pow]; norm_cast
  unfold clampCount
  rw [hpow]
  omega

theorem sortKey_lt_iff (width : Nat) (m n : Int) : sortKey width m < sortKey width n ↔ clampCount width n < clampCount width m := by
  simpa using sortKey_append_lt_iff width m n [] []

/-- Equal keys write the same number: otherwise the higher one would have the earlier key. -/
theorem clampCount_eq_of_sortKey_eq {width : Nat} {m n : Int} (h : sortKey width m = sortKey width n) :
    clampCount width m = clampCount width n := by
  rcases Nat.lt_trichotomy (clampCount width m) (clampCount width n) with hlt | heq | hlt
  · exact absurd ((sortKey_lt_iff width n m).2 hlt) (h ▸ lt_irrefl _)
  · exact heq
  · exact absurd ((sortKey_lt_iff width m n).2 hlt) (h ▸ lt_irrefl _)

/-- Keys are capital letters of the given width, the key of the higher count is the earlier one, and counts that the letters can
write have different keys. -/
theorem sortKey_reverses_order (width : Nat) (a b : Int) :
    (sortKey width a).length = width ∧ (∀ c ∈ sortKey width a, 'A' ≤ c ∧ c ≤ 'Z') ∧
      (sortKey width b < sortKey width a ↔ min (max a 0) (26 ^ width - 1) < min (max b 0) (26 ^ width - 1)) ∧
      Set.InjOn (sortKey width) {n | 0 ≤ n ∧ n ≤ 26 ^ width - 1} := by
  refine ⟨length_sortLetters _ _, fun c hc => capital_of_mem_sortLetters (clampCount_lt width a) hc, ?_, ?_⟩
  · rw [sortKey_lt_iff, ← clampCount_eq, ← clampCount_eq, Int.ofNat_lt]
  · rintro m ⟨hm, hm'⟩ n ⟨hn, hn'⟩ hkey
    have hclamp := congrArg (Nat.cast (R := Int)) (clampCount_eq_of_sortKey_eq hkey)
    rwa [clampCount_eq, clampCount_eq, max_eq_left hm, max_eq_left hn, min_eq_left hm', min_eq_left hn'] at hclamp

/-- A count above what two letters write, a negative one, and the last two that two letters write. -/
theorem sortKey_reverses_order_clamped :
    ('A' ∈ sortKey 2 1000000 ∧ 'A' ≤ 'A' ∧ 'A' ≤ 'Z') ∧ sortKey 2 1000000 < sortKey 2 (-7) ∧
      ((0 ≤ (674 : Int) ∧ (674 : Int) ≤ 26 ^ 2 - 1) ∧ (0 ≤ (675 : Int) ∧ (675 : Int) ≤ 26 ^ 2 - 1)) ∧
      sortKey 2 674 ≠ sortKey 2 675 := by
  have hmem : 'A' ∈ sortKey 2 1000000 := by decide
  have hlow : 0 ≤ (674 : Int) ∧ (674 : Int) ≤ 26 ^ 2 - 1 := by decide
  have hhigh : 0 ≤ (675 : Int) ∧ (675 : Int) ≤ 26 ^ 2 - 1 := by decide
  obtain ⟨-, hcapital, -⟩ := sortKey_reverses_order 2 1000000 0
  obtain ⟨-, -, horder, hinj⟩ := sortKey_reverses_order 2 (-7) 1000000
  refine ⟨⟨hmem, hcapital 'A' hmem⟩, horder.2 (by decide), ⟨hlow, hhigh⟩, fun heq => ?_⟩
  exact absurd (hinj hlow hhigh heq) (by decide)

end Editor
end StepCatalog
