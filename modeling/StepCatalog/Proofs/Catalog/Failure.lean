import StepCatalog.Proofs.Catalog.History

/-!
# Scans that fail

A registry is reached from the empty one by any actions, builds and counts that end with a fault among them (`Reachable`). Its steps
are still distinct and listed in their places (`Reachable.indexed`). A build that fails leaves no trace. A count that fails has
forgotten the counts before it asked for files, while the steps still show them (`recount_of_error`); the next count that
completes makes this good.

Main statement: `failed_scan_effect`.
-/

namespace StepCatalog.Catalog

open Text (of)

/-! ## Reachable registries -/

/-- The registries that actions lead to from the empty registry of settings, whether they complete or not. -/
inductive Reachable (s : Settings) : Registry → Prop
  | start {r : Registry} : Registry.ofSettings? s = .ok r → Reachable s r
  | act {r : Registry} (a : Action) : Reachable s r → Reachable s (r.after a)

namespace Registry

/-- A count that ends with a fault leaves the registry without its counts, and otherwise as it was. -/
theorem recount_of_error {r : Registry} {w : Workspace} {root : Path} {glob : Option Text} {fault : Fault}
    (h : (r.recount w root glob).2.result = .error fault) : (r.recount w root glob).1 = r.resetCounts := by
  match glob with
  | none => cases h
  | some [] => cases h
  | some (c :: pattern) =>
    unfold recount at h ⊢
    simp only at h ⊢
    split at h
    · cases h
    · rfl

/-- Every action, whether it completes or not, keeps the steps distinct and listed in their places. -/
theorem Indexed.after {r : Registry} (h : r.Indexed) (a : Action) : (r.after a).Indexed := by
  cases a with
  | build w root globs =>
    obtain hbuilt | ⟨-, hsame⟩ := r.after_build w root globs
    · exact (consistent_of_build hbuilt).toIndexed
    · rw [hsame]
      exact h
  | recount w root glob =>
    cases hresult : (r.recount w root glob).2.result with
    | ok _ => exact (h.recount hresult).toIndexed
    | error fault =>
      rw [Registry.after, recount_of_error hresult]
      exact h.congr (uncounted_resetCounts r)
  | increment id => exact h.congr (uncounted_increment r id)
  | accept id =>
    obtain ⟨hid, -⟩ | ⟨hsame, -⟩ := r.after_accept id
    · rw [hid]
      exact h.congr (uncounted_increment r id)
    · rw [hsame]
      exact h
  | refresh => exact h.refreshCounts.toIndexed

/-- No action changes the settings or the rule, whether it completes or not. -/
theorem after_keeps_rule (r : Registry) (a : Action) : (r.after a).settings = r.settings ∧ (r.after a).rule = r.rule := by
  cases a with
  | recount w root glob =>
    cases hresult : (r.recount w root glob).2.result with
    | ok _ => exact r.after_settings _ hresult
    | error fault =>
      rw [Registry.after, recount_of_error hresult]
      exact ⟨rfl, rfl⟩
  | build w root globs => exact r.after_settings (.build w root globs) trivial
  | increment id => exact r.after_settings (.increment id) trivial
  | accept id => exact r.after_settings (.accept id) trivial
  | refresh => exact r.after_settings .refresh trivial

end Registry

/-- A reachable registry has the settings that it was made with, and their rule. -/
theorem Reachable.keeps_rule {s : Settings} {r : Registry} (h : Reachable s r) :
    r.settings = s ∧ Definition.Rule.ofSettings? s = .ok r.rule := by
  induction h with
  | start hstart =>
    unfold Registry.ofSettings? at hstart
    cases hrule : Definition.Rule.ofSettings? s with
    | error e => simp [hrule, bind, Except.bind] at hstart
    | ok rule =>
      simp only [hrule, bind, Except.bind, pure, Except.pure, Except.ok.injEq] at hstart
      subst hstart
      exact ⟨rfl, rfl⟩
  | @act r a _ ih =>
    obtain ⟨hsettings, hrule⟩ := r.after_keeps_rule a
    rw [hsettings, hrule]
    exact ih

/-- In a reachable registry the steps are distinct and listed in their places. -/
theorem Reachable.indexed {s : Settings} {r : Registry} (h : Reachable s r) : r.Indexed := by
  induction h with
  | start hstart => exact (Registry.consistent_ofSettings hstart).1.toIndexed
  | act a _ ih => exact ih.after a

/-! ## The effect of a failure -/

namespace Registry

/-- Without counts, a registry is in agreement with itself if no step shows a use. -/
theorem Indexed.consistent_resetCounts_iff {r : Registry} (h : r.Indexed) :
    r.resetCounts.Consistent ↔ ∀ x ∈ r.steps, x.count = 0 := by
  constructor
  · intro hconsistent x hx
    exact hconsistent.count_eq x hx
  · intro hzero
    exact ⟨h.congr (uncounted_resetCounts r), fun x hx => hzero x hx⟩

/-- A build that fails leaves a reachable registry as it is. A count that fails leaves the steps as they are, with the counts that
they show, but forgets all counts: it is without effect on them only if there were none, and what the steps show agrees with them
only if no step shows a use. What the next count that completes gives does not depend on the failure. -/
theorem failed_scan_effect (s : Settings) (r : Registry) (h : Reachable s r) :
    (∀ w root globs fault, (r.build w root globs).result = .error fault → r.after (.build w root globs) = r) ∧
    (∀ w root glob fault, (r.recount w root glob).2.result = .error fault →
      r.after (.recount w root glob) = { r with counts := [] } ∧
      (∀ id, (r.after (.recount w root glob)).count id = 0) ∧
      ((∀ id, (r.after (.recount w root glob)).count id = r.count id) ↔ ∀ id, r.count id = 0) ∧
      ((r.after (.recount w root glob)).Consistent ↔ ∀ x ∈ r.steps, x.count = 0) ∧
      ∀ w' root' glob', (r.recount w' root' glob').2.result = .ok () →
        (r.after (.recount w root glob)).after (.recount w' root' glob') = r.after (.recount w' root' glob') ∧
        (r.after (.recount w' root' glob')).Consistent) := by
  refine ⟨fun w root globs fault hfault => ?_, fun w root glob fault hfault => ?_⟩
  · obtain hbuilt | ⟨-, hsame⟩ := r.after_build w root globs
    · rw [hbuilt] at hfault
      cases hfault
    · exact hsame
  · have hafter : r.after (.recount w root glob) = r.resetCounts := recount_of_error hfault
    have hcount : ∀ id, r.resetCounts.count id = 0 := fun id => rfl
    simp only [hafter, hcount]
    refine ⟨rfl, fun _ => trivial, forall_congr' fun id => eq_comm, h.indexed.consistent_resetCounts_iff, ?_⟩
    intro w' root' glob' hcompletes
    have hcountable := countable_of_recount hcompletes
    exact ⟨recount_congr hcountable (uncounted_resetCounts r), h.indexed.recount hcompletes⟩

/-- A step is used once, and no count is made: a count over a glob that is refused leaves the steps and their zero counts. -/
theorem failed_scan_effect_uncounted :
    let s : Settings := { languages := [⟨"q", ["Given "], [], [], [], [], []⟩] }
    let start : Registry := { settings := s, rule := .ofLanguages s.languages }
    let file (name content : String) : Path × Entry := ([of name], .file (content.toList.map fun c => c.toNat.toUInt8))
    let w : Workspace := ⟨[file "a" "Given('x', f)", file "f" "Given x"]⟩
    let r := start.after (.build w [] [of "a"])
    let failed := r.after (.recount w [] (some (of "**x")))
    Reachable s r ∧ (r.recount w [] (some (of "**x"))).2.result = .error (.glob .mixedDepth) ∧
      failed.steps.map (·.text) = [of "x"] ∧ (∀ id, failed.count id = r.count id) ∧ failed.Consistent ∧
      failed.after (.recount w [] (some (of "f"))) = r.after (.recount w [] (some (of "f"))) := by
  intro s start file w r failed
  have hreach : Reachable s r := .act _ (.start rfl)
  have hfault : (r.recount w [] (some (of "**x"))).2.result = .error (.glob .mixedDepth) := by decide +kernel
  have hcompletes : (r.recount w [] (some (of "f"))).2.result = .ok () := by decide +kernel
  have hnone : r.counts = [] := by decide +kernel
  have hzero : ∀ id, r.count id = 0 := fun id => by rw [count, hnone]; rfl
  obtain ⟨-, -, hcounts, hagree, hnext⟩ := (failed_scan_effect s r hreach).2 _ _ _ _ hfault
  exact ⟨hreach, hfault, by decide +kernel, hcounts.2 hzero, hagree.2 (by decide +kernel), (hnext _ _ _ hcompletes).1⟩

/-- A use is counted, then a count fails over a glob that is refused: the step still shows the use, and its count is gone. -/
theorem failed_count_forgets_use :
    let s : Settings := { languages := [⟨"q", ["Given "], [], [], [], [], []⟩] }
    let start : Registry := { settings := s, rule := .ofLanguages s.languages }
    let file (name content : String) : Path × Entry := ([of name], .file (content.toList.map fun c => c.toNat.toUInt8))
    let w : Workspace := ⟨[file "a" "Given('x', f)", file "f" "Given x"]⟩
    let r := (start.after (.build w [] [of "a"])).after (.recount w [] (some (of "f")))
    let failed := r.after (.recount w [] (some (of "**x")))
    Reachable s r ∧ (r.recount w [] (some (of "**x"))).2.result = .error (.glob .mixedDepth) ∧
      r.steps.map (fun x => (x.text, x.count, r.count x.id)) = [(of "x", 1, 1)] ∧
      failed.steps.map (fun x => (x.text, x.count, failed.count x.id)) = [(of "x", 1, 0)] := by
  intro s start file w r failed
  exact ⟨.act _ (.act _ (.start rfl)), by decide +kernel, by decide +kernel, by decide +kernel⟩

end Registry
end StepCatalog.Catalog
