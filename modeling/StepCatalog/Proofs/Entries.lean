import Mathlib.Data.List.Nodup
import StepCatalog.Entries

/-!
# Tables of entries written key by key

Writing a key keeps the keys of a table distinct, and a key that is not there yet is written at the end.
-/

namespace StepCatalog.Entries

variable {κ α : Type} [DecidableEq κ]

/-- Writing a key adds it to the keys, unless it is there. -/
theorem keys_put (key : κ) (value : α) (entries : List (κ × α)) :
    (put key value entries).map (·.1) =
      if key ∈ entries.map (·.1) then entries.map (·.1) else entries.map (·.1) ++ [key] := by
  induction entries with
  | nil => simp [put]
  | cons e entries ih =>
    obtain ⟨k, v⟩ := e
    by_cases hk : k = key
    · simp [put, hk]
    · have hk' : key ≠ k := fun h => hk h.symm
      simp only [put, hk, if_false, List.map_cons, ih, List.mem_cons, hk', false_or]
      split <;> simp

/-- Writing a key keeps the keys of a table distinct. -/
theorem nodup_keys_put {entries : List (κ × α)} (h : (entries.map (·.1)).Nodup) (key : κ) (value : α) :
    ((put key value entries).map (·.1)).Nodup := by
  rw [keys_put]
  split
  · exact h
  · rename_i hkey
    rw [List.nodup_append]
    refine ⟨h, by simp, ?_⟩
    rintro a ha b hb rfl
    rw [List.mem_singleton] at hb
    exact hkey (hb ▸ ha)

/-- A new key is written at the end. -/
theorem put_of_not_mem {key : κ} {entries : List (κ × α)} (h : key ∉ entries.map (·.1)) (value : α) :
    put key value entries = entries ++ [(key, value)] := by
  induction entries with
  | nil => rfl
  | cons e entries ih =>
    obtain ⟨k, v⟩ := e
    rw [List.map_cons, List.mem_cons, not_or] at h
    have hk : k ≠ key := fun hk => h.1 hk.symm
    simp only [put, hk, if_false, ih h.2, List.cons_append]

/-- Distinct keys that are not there yet are written behind what is there, in order. -/
theorem foldl_put_eq_append {written entries : List (κ × α)} (h : ((entries ++ written).map (·.1)).Nodup) :
    written.foldl (fun entries e => put e.1 e.2 entries) entries = entries ++ written := by
  induction written generalizing entries with
  | nil => simp
  | cons e written ih =>
    have hnew : e.1 ∉ entries.map (·.1) := by
      intro he
      rw [List.map_append, List.nodup_append] at h
      exact h.2.2 _ he _ (by simp) rfl
    rw [List.foldl_cons, put_of_not_mem hnew, ih (by simpa using h), List.append_assoc]
    rfl

/-- A value is found under the keys of a table. -/
theorem isSome_get?_iff {key : κ} {entries : List (κ × α)} : (get? key entries).isSome = true ↔ key ∈ entries.map (·.1) := by
  induction entries with
  | nil => simp [get?]
  | cons e entries ih =>
    obtain ⟨k, v⟩ := e
    by_cases hk : k = key
    · simp [get?, hk]
    · simp [get?, hk, ih, Ne.symm hk]

end StepCatalog.Entries
