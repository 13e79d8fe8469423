import Mathlib.Algebra.Group.Int.Defs
import Mathlib.Data.List.Perm.Basic
import Mathlib.Data.List.TakeDrop
import StepCatalog.Json.Reader
import StepCatalog.Proofs.Entries

/-!
# Values that are the same

Two values are the same if they differ at most in the order of the fields of objects and in how numbers with a fraction or an
exponent are written, at any depth (`Json.Same`). Such numbers are the same if their digits are, brought to one power of ten
(`Decimal.Equal`). Values that are the same are set alike (`Json.Same.isSet_eq`).
-/

namespace StepCatalog

open Text (of)

/-- A numeral of ordinary digits is zero if all of them are. -/
theorem numeralValue_eq_zero_iff {digits : Text} (h : ∀ c ∈ digits, c.isDigit = true) :
    numeralValue digits = 0 ↔ ∀ c ∈ digits, c = '0' := by
  have hfold : ∀ (digits : Text), (∀ c ∈ digits, c.isDigit = true) → ∀ n,
      digits.foldl (fun n c => n * 10 + (digitValue? c).getD 0) n = 0 ↔ n = 0 ∧ ∀ c ∈ digits, c = '0' := by
    intro digits h
    induction digits with
    | nil => simp
    | cons c digits ih =>
      intro n
      rw [List.forall_mem_cons] at h
      obtain ⟨hlow, -⟩ := Char.isDigit_iff_toNat.1 h.1
      have hlow : 48 ≤ c.toNat := hlow
      have hzero : c.toNat - 48 = 0 ↔ c = '0' := by
        rw [← Char.toNat_inj]
        show _ ↔ c.toNat = 48
        omega
      have hsum : n * 10 + (c.toNat - 48) = 0 ↔ n = 0 ∧ c = '0' := by
        rw [← hzero]
        omega
      rw [List.foldl_cons, ih h.2, digitValue?_of_isDigit h.1, Option.getD_some, List.forall_mem_cons, hsum, and_assoc]
  rw [numeralValue, hfold digits h 0]
  simp

namespace Json

/-! ## Numbers -/

/-- A number with a fraction or an exponent: its digits, with their sign, and the power of ten that they count. -/
structure Decimal where
  digits : Int
  power : Int
  deriving DecidableEq, Repr

/-- The power that an exponent writes. -/
def exponentValue : Text → Int
  | '-' :: s => -numeralValue s
  | '+' :: s => numeralValue s
  | s => numeralValue s

/-- What stands in front of the exponent of a number. -/
def mantissa (written : Text) : Text := written.takeWhile fun c => c != 'e' && c != 'E'

namespace Decimal

/-- The number that an unsigned text writes, if it is one with a fraction or an exponent. -/
def ofUnsigned? (s : Text) : Option Decimal :=
  if Draft.isFractional s then
    let fraction := ((mantissa s).dropWhile (· != '.')).drop 1
    let exponent := (s.dropWhile fun c => c != 'e' && c != 'E').drop 1
    some ⟨numeralValue ((mantissa s).filter Char.isDigit), exponentValue exponent - fraction.length⟩
  else none

/-- The number that a text writes, if it is one with a fraction or an exponent. -/
def ofText? : Text → Option Decimal
  | '-' :: s => (ofUnsigned? s).map fun x => { x with digits := -x.digits }
  | s => ofUnsigned? s

/-- Two numbers are equal: they have the same digits, brought to one power of ten. -/
def Equal (x y : Decimal) : Prop := ∃ a b : Nat, x.digits * 10 ^ a = y.digits * 10 ^ b ∧ x.power - a = y.power - b

theorem Equal.digits_eq_zero_iff {x y : Decimal} (h : x.Equal y) : x.digits = 0 ↔ y.digits = 0 := by
  obtain ⟨a, b, hdigits, -⟩ := h
  have hten : ∀ n : Nat, (10 : Int) ^ n ≠ 0 := fun n => Int.pow_ne_zero (by decide)
  constructor
  · intro hx
    rw [hx, Int.zero_mul] at hdigits
    exact (Int.mul_eq_zero.1 hdigits.symm).resolve_right (hten b)
  · intro hy
    rw [hy, Int.zero_mul] at hdigits
    exact (Int.mul_eq_zero.1 hdigits).resolve_right (hten a)

/-- A whole number consists of digits. -/
theorem isDigit_of_isWhole {s : Text} (h : Draft.isWhole s = true) {c : Char} (hc : c ∈ s) : c.isDigit = true := by
  unfold Draft.isWhole at h
  split at h
  · cases hc
  · rw [List.mem_singleton.1 hc]
    rfl
  · rename_i first rest _
    simp only [Bool.and_eq_true, List.all_eq_true] at h
    rcases List.mem_cons.1 hc with rfl | hc
    · exact h.1.1
    · exact h.2 c hc

/-- In front of the exponent of an unsigned number stand digits and a point. -/
theorem mem_mantissa {s : Text} (h : Draft.isFractional s = true) {c : Char} (hc : c ∈ mantissa s) : c.isDigit = true ∨ c = '.' := by
  have hmantissa : (s.takeWhile fun c => !(c == 'e' || c == 'E')) = mantissa s := by
    simp only [mantissa, Bool.not_or]
    rfl
  simp only [Draft.isFractional, Text.spanUntil, List.span_eq_takeWhile_dropWhile, hmantissa, Bool.and_eq_true] at h
  obtain ⟨⟨hwhole, hfraction⟩, -⟩ := h
  have hsplit := List.takeWhile_append_dropWhile (p := fun c => !(c == '.')) (l := mantissa s)
  rw [← hsplit, List.mem_append] at hc
  rcases hc with hc | hc
  · exact .inl (isDigit_of_isWhole hwhole hc)
  · -- behind the whole number stands nothing, or the point with digits
    split at hfraction
    · rename_i hnone
      rw [hnone] at hc
      cases hc
    · rename_i point digits hsome
      have hpoint : (fun c => !(c == '.')) point = false := by
        have hhead := List.head?_dropWhile_not (fun c => !(c == '.')) (mantissa s)
        rw [hsome] at hhead
        exact hhead
      rw [hsome] at hc
      simp only [Bool.and_eq_true, List.all_eq_true] at hfraction
      rcases List.mem_cons.1 hc with rfl | hc
      · exact .inr (by simpa using hpoint)
      · exact .inl (hfraction.2 c hc)

/-- An unsigned number is set if it is not zero. -/
theorem isSet_of_ofUnsigned? {s : Text} {x : Decimal} (h : ofUnsigned? s = some x) :
    Json.isSet (.decimal s) = true ↔ x.digits ≠ 0 := by
  unfold ofUnsigned? at h
  split at h
  · rename_i hfractional
    obtain rfl := Option.some.inj h
    have hdigits : ∀ c ∈ (mantissa s).filter Char.isDigit, c.isDigit = true := fun c hc => (List.mem_filter.1 hc).2
    have hzero := numeralValue_eq_zero_iff hdigits
    simp only [ne_eq, Int.natCast_eq_zero, hzero, List.mem_filter, and_imp, not_forall]
    show (mantissa s).any (fun c => !(of "-.0").contains c) = true ↔ _
    rw [List.any_eq_true]
    constructor
    · rintro ⟨c, hc, hnonzero⟩
      simp only [Bool.not_eq_true', List.contains_eq_mem, decide_eq_false_iff_not] at hnonzero
      refine ⟨c, hc, (mem_mantissa hfractional hc).resolve_right ?_, ?_⟩
      · rintro rfl
        exact hnonzero (by decide)
      · rintro rfl
        exact hnonzero (by decide)
    · rintro ⟨c, hc, hdigit, hne⟩
      refine ⟨c, hc, ?_⟩
      simp only [Bool.not_eq_true', List.contains_eq_mem, decide_eq_false_iff_not]
      intro hmem
      have hsigns : c = '-' ∨ c = '.' ∨ c = '0' := by simpa [of] using hmem
      rcases hsigns with rfl | rfl | rfl
      · exact absurd hdigit (by decide)
      · exact absurd hdigit (by decide)
      · exact hne rfl
  · cases h

/-- A number is set if it is not zero. -/
theorem isSet_of_ofText? {s : Text} {x : Decimal} (h : ofText? s = some x) : Json.isSet (.decimal s) = true ↔ x.digits ≠ 0 := by
  unfold ofText? at h
  split at h
  · rename_i unsigned
    obtain ⟨y, hy, rfl⟩ := Option.map_eq_some_iff.1 h
    have hsign : Json.isSet (.decimal ('-' :: unsigned)) = Json.isSet (.decimal unsigned) := rfl
    rw [hsign, isSet_of_ofUnsigned? hy]
    exact not_congr Int.neg_eq_zero.symm
  · exact isSet_of_ofUnsigned? h

end Decimal

/-! ## Values -/

/-- Two values that differ at most in the order of the fields of objects and in how numbers are written, at any depth. -/
inductive Same : Json → Json → Prop where
  | null : Same .null .null
  | bool (b : Bool) : Same (.bool b) (.bool b)
  | int (n : Int) : Same (.int n) (.int n)
  | decimal (written : Text) : Same (.decimal written) (.decimal written)
  | number {v w : Text} {x y : Decimal} (hv : Decimal.ofText? v = some x) (hw : Decimal.ofText? w = some y) (h : x.Equal y) :
      Same (.decimal v) (.decimal w)
  | string (s : Text) : Same (.string s) (.string s)
  | array {xs ys : List Json} (h : List.Forall₂ Same xs ys) : Same (.array xs) (.array ys)
  | object {fs gs : List (Text × Json)} (hfs : (fs.map (·.1)).Nodup) (hgs : (gs.map (·.1)).Nodup)
      (h : ∀ key, Option.Rel Same (Entries.get? key fs) (Entries.get? key gs)) : Same (.object fs) (.object gs)

/-- The keys of an object in their order. -/
def keys : Json → List Text
  | .object fields => fields.map (·.1)
  | _ => []

/-- Objects with the same fields have the same keys, in some order. -/
theorem keys_perm {fs gs : List (Text × Json)} (hfs : (fs.map (·.1)).Nodup) (hgs : (gs.map (·.1)).Nodup)
    (h : ∀ key, Option.Rel Same (Entries.get? key fs) (Entries.get? key gs)) : (fs.map (·.1)).Perm (gs.map (·.1)) := by
  refine (List.perm_ext_iff_of_nodup hfs hgs).2 fun key => ?_
  rw [← Entries.isSome_get?_iff, ← Entries.isSome_get?_iff]
  have hkey := h key
  revert hkey
  cases Entries.get? key fs <;> cases Entries.get? key gs <;> intro hkey <;> first | rfl | cases hkey

/-- Two fields in either order. -/
theorem Same.swap {k l : Text} (hkl : k ≠ l) {v w : Json} (hv : Same v v) (hw : Same w w) :
    Same (.object [(k, v), (l, w)]) (.object [(l, w), (k, v)]) := by
  refine .object (by simp [hkl]) (by simp [hkl.symm]) fun key => ?_
  by_cases hk : k = key
  · have hl : l ≠ key := fun hl => hkl (hk.trans hl.symm)
    simpa [Entries.get?, hk, hl] using hv
  · by_cases hl : l = key
    · simpa [Entries.get?, hk, hl] using hw
    · simp [Entries.get?, hk, hl]

/-- Values that are the same are set alike. -/
theorem Same.isSet_eq {v w : Json} (h : Same v w) : v.isSet = w.isSet := by
  cases h with
  | number hv hw h =>
    rw [Bool.eq_iff_iff, Decimal.isSet_of_ofText? hv, Decimal.isSet_of_ofText? hw, ne_eq, ne_eq, h.digits_eq_zero_iff]
  | array h => cases h <;> rfl
  | @object fs gs hfs hgs h =>
    have hlength := (keys_perm hfs hgs h).length_eq
    rw [List.length_map, List.length_map] at hlength
    cases fs <;> cases gs <;> first | rfl | cases hlength
  | _ => rfl

end Json
end StepCatalog
