/-!
# Tables of entries

A table is a list of keys with their values. Keys keep the order of first writing, and writing a key again replaces its value where
it stands.
-/

namespace StepCatalog.Entries

/-- The table with a value under a key: in the place the key has, or at the end. -/
def put {κ α : Type} [DecidableEq κ] (key : κ) (value : α) : List (κ × α) → List (κ × α)
  | [] => [(key, value)]
  | (k, v) :: entries => if k = key then (key, value) :: entries else (k, v) :: put key value entries

/-- The value under a key. -/
def get? {κ α : Type} [DecidableEq κ] (key : κ) : List (κ × α) → Option α
  | [] => none
  | (k, v) :: entries => if k = key then some v else get? key entries

/-- A value just written is found under its key, and the other keys keep theirs. -/
theorem get?_put {κ α : Type} [DecidableEq κ] (key k : κ) (value : α) (entries : List (κ × α)) :
    get? k (put key value entries) = if key = k then some value else get? k entries := by
  induction entries with
  | nil => simp [put, get?]
  | cons e entries ih =>
    obtain ⟨k', v⟩ := e
    simp only [put]
    split
    · next h =>
      subst h
      simp only [get?]
      split <;> rfl
    · next h =>
      simp only [get?, ih]
      split
      · next h' =>
        subst h'
        simp [Ne.symm h]
      · rfl

end StepCatalog.Entries
