import StepCatalog.Catalog.Outcome

/-!
# Outcomes that end with a value

An operation put together from others ends with a value exactly if each of them does. Proofs about scans take outcomes apart with
these statements and never look at the events.
-/

namespace StepCatalog.Catalog.Outcome

variable {α β : Type}

@[simp] theorem bind_eq_andThen (x : Outcome α) (f : α → Outcome β) : x >>= f = x.andThen f := rfl

@[simp] theorem pure_result (a : α) : (Pure.pure a : Outcome α).result = .ok a := rfl

@[simp] theorem report_result (e : Event) : (report e).result = .ok () := rfl

/-- One operation after another ends with a value if both do. -/
theorem andThen_result_eq_ok {x : Outcome α} {f : α → Outcome β} {b : β} :
    (x.andThen f).result = .ok b ↔ ∃ a, x.result = .ok a ∧ (f a).result = .ok b := by
  unfold andThen
  cases h : x.result with
  | error e => simp
  | ok a => simp

/-- An operation behind one that ends with a value. -/
theorem andThen_result {x : Outcome α} {a : α} (h : x.result = .ok a) (f : α → Outcome β) :
    (x.andThen f).result = (f a).result := by
  unfold andThen
  rw [h]

/-- A value that may be a fault ends with it if it is none. -/
theorem ofExcept_result_eq_ok {ε : Type} {fault : ε → Fault} {x : Except ε α} {a : α} :
    (ofExcept fault x).result = .ok a ↔ x = .ok a := by
  cases x with
  | error e => simp [ofExcept, fail]
  | ok b => simp [ofExcept, pure]

/-- An operation on every element ends with a value if it does for each of them, and its value is theirs put end to end. -/
theorem flatMap_result_eq_ok {f : α → Outcome (List β)} {P : α → Prop} {value : α → List β}
    (h : ∀ x ys, (f x).result = .ok ys ↔ P x ∧ ys = value x) {xs : List α} {ys : List β} :
    (flatMap f xs).result = .ok ys ↔ (∀ x ∈ xs, P x) ∧ ys = xs.flatMap value := by
  induction xs generalizing ys with
  | nil => simp [flatMap, pure, eq_comm]
  | cons x xs ih =>
    simp only [flatMap, andThen_result_eq_ok, h, ih, List.forall_mem_cons, List.flatMap_cons]
    constructor
    · rintro ⟨_, ⟨hx, rfl⟩, _, ⟨hxs, rfl⟩, hys⟩
      exact ⟨⟨hx, hxs⟩, (Except.ok.inj hys).symm⟩
    · rintro ⟨⟨hx, hxs⟩, rfl⟩
      exact ⟨_, ⟨hx, rfl⟩, _, ⟨hxs, rfl⟩, rfl⟩

end StepCatalog.Catalog.Outcome
