import Mathlib.Data.List.Forall2
import StepCatalog.Editor.Query
import StepCatalog.Proofs.Catalog.Counting
import StepCatalog.Proofs.Catalog.Scan

/-!
# Registries over time

A registry is built again and again, its uses are counted anew, and single uses are added. Counts live in two places, in the table
and in what the steps show, and a build replaces the steps while the table stays. Each action keeps the two in agreement, and the
steps distinct and listed in their places (`Consistent`, `after_consistent`); so does every run from the empty registry.

Main statement: `run_keeps_registry`.
-/

namespace StepCatalog.Catalog

open Text (of)

/-! ## Actions and runs -/

/-- What is done to a registry. Questions about a line, a document or a step give an answer and no registry, so that they are no
actions. -/
inductive Action where
  | build (w : Workspace) (root : Path) (globs : List Text)
  | recount (w : Workspace) (root : Path) (glob : Option Text)
  | increment (id : Text)
  /-- A completion is accepted. -/
  | accept (id : Text)
  | refresh

namespace Action

def isRecount : Action → Bool
  | .recount .. => true
  | _ => false

/-- The identifier that an action adds a use of. -/
def use? : Action → Option Text
  | .increment id => some id
  | .accept id => if id.isEmpty then none else some id
  | _ => none

/-- Counts are to complete; a build may end with a fault. -/
def CompletesOn (r : Registry) : Action → Prop
  | .recount w root glob => (r.recount w root glob).2.result = .ok ()
  | _ => True

end Action

/-- The registry after an action. A build that ends with a fault leaves it as it is. -/
def Registry.after (r : Registry) : Action → Registry
  | .build w root globs => (r.build w root globs).result.toOption.getD r
  | .recount w root glob => (r.recount w root glob).1
  | .increment id => r.increment id
  | .accept id => Editor.acceptCompletion r id
  | .refresh => r.refreshCounts

/-- A run from a registry to another one through actions. -/
inductive Run : Registry → List Action → Registry → Prop
  | done (r : Registry) : Run r [] r
  | act {r r' : Registry} {a : Action} {actions : List Action} :
      a.CompletesOn r → Run (r.after a) actions r' → Run r (a :: actions) r'

/-- A run through actions and then others stops in between. -/
theorem Run.split {r r' : Registry} {before rest : List Action} (h : Run r (before ++ rest) r') :
    ∃ mid, Run r before mid ∧ Run mid rest r' := by
  induction before generalizing r with
  | nil => exact ⟨r, .done r, h⟩
  | cons a before ih =>
    cases h with
    | act ha hrest =>
      obtain ⟨mid, hbefore, hmid⟩ := ih hrest
      exact ⟨mid, .act ha hbefore, hmid⟩

/-- What every action keeps, every run keeps. -/
theorem Run.preserves {P : Registry → Prop} (hstep : ∀ r a, Action.CompletesOn r a → P r → P (r.after a)) {r r' : Registry}
    {actions : List Action} (h : Run r actions r') (hr : P r) : P r' := by
  induction h with
  | done => exact hr
  | act ha _ ih => exact ih (hstep _ _ ha hr)

namespace Registry

/-! ## Registries in agreement with themselves -/

/-- The steps have distinct identifiers, those of their texts, and the table of places lists each step where it stands. -/
structure Indexed (r : Registry) : Prop where
  nodup_ids : (r.steps.map (·.id)).Nodup
  id_eq : ∀ s ∈ r.steps, s.id = stepId s.text
  places_eq : r.places = r.steps.zipIdx.map fun (s, i) => (s.id, i)

/-- Moreover, every step shows its count. -/
structure Consistent (r : Registry) : Prop extends Indexed r where
  count_eq : ∀ s ∈ r.steps, s.count = r.count s.id

/-- Distinct identifiers mean distinct texts. -/
theorem Indexed.nodup_texts {r : Registry} (h : r.Indexed) : (r.steps.map (·.text)).Nodup := by
  have hids : (r.steps.map (·.text)).map stepId = r.steps.map (·.id) := by
    rw [List.map_map]
    exact List.map_congr_left fun s hs => (h.id_eq s hs).symm
  exact List.Nodup.of_map stepId (hids ▸ h.nodup_ids)

/-- Whether a registry is indexed does not depend on counts. -/
theorem indexed_uncounted (r : Registry) : r.uncounted.Indexed ↔ r.Indexed := by
  have hids : r.uncounted.steps.map (·.id) = r.steps.map (·.id) := by
    unfold uncounted
    rw [List.map_map]
    rfl
  have hplaces : (r.uncounted.steps.zipIdx.map fun (s, i) => (s.id, i)) = r.steps.zipIdx.map fun (s, i) => (s.id, i) := by
    unfold uncounted
    rw [List.zipIdx_map, List.map_map]
    rfl
  have htexts : (∀ s ∈ r.uncounted.steps, s.id = stepId s.text) ↔ ∀ s ∈ r.steps, s.id = stepId s.text :=
    List.forall_mem_map
  constructor
  · rintro ⟨h1, h2, h3⟩
    exact ⟨hids ▸ h1, htexts.1 h2, hplaces ▸ h3⟩
  · rintro ⟨h1, h2, h3⟩
    exact ⟨hids ▸ h1, htexts.2 h2, hplaces ▸ h3⟩

theorem Indexed.congr {r r' : Registry} (h : r.Indexed) (hr : r'.uncounted = r.uncounted) : r'.Indexed := by
  rw [← indexed_uncounted, hr, indexed_uncounted]
  exact h

theorem consistent_ofSettings {s : Settings} {start : Registry} (h : ofSettings? s = .ok start) :
    start.Consistent ∧ start.settings = s ∧ start.counts = [] := by
  unfold ofSettings? at h
  cases hrule : Definition.Rule.ofSettings? s with
  | error e => simp [hrule, bind, Except.bind] at h
  | ok rule =>
    simp only [hrule, bind, Except.bind, pure, Except.pure, Except.ok.injEq] at h
    subst h
    exact ⟨⟨⟨List.nodup_nil, by simp, rfl⟩, by simp⟩, rfl, rfl⟩

/-! ## What each action keeps -/

/-- The place listed under an identifier is that of the first step with the identifier. -/
theorem get?_places (id : Text) (steps : List Step) (k : Nat) :
    Entries.get? id ((steps.zipIdx k).map fun (s, i) => (s.id, i)) = (steps.findIdx? (·.id == id)).map (· + k) := by
  induction steps generalizing k with
  | nil => rfl
  | cons s steps ih =>
    rw [List.zipIdx_cons, List.map_cons, List.findIdx?_cons]
    simp only [Entries.get?, ih, beq_iff_eq]
    split
    · simp
    · rw [Option.map_map]
      congr 1
      funext i
      simp only [Function.comp_apply]
      omega

/-- In an indexed registry an increment is shown by the step with the identifier and by no other. -/
theorem Indexed.increment_steps {r : Registry} (h : r.Indexed) (id : Text) :
    (r.increment id).steps = r.steps.map fun s => if s.id = id then { s with count := r.count id + 1 } else s := by
  unfold increment
  simp only [h.places_eq, get?_places]
  cases hfind : r.steps.findIdx? (·.id == id) with
  | none =>
    have habsent : ∀ s ∈ r.steps, s.id ≠ id := by simpa using List.findIdx?_eq_none_iff.1 hfind
    simp only [Option.map_none]
    conv_lhs => rw [← List.map_id r.steps]
    exact List.map_congr_left fun s hs => (if_neg (habsent s hs)).symm
  | some i =>
    obtain ⟨hi, hid, -⟩ := List.findIdx?_eq_some_iff_getElem.1 hfind
    rw [beq_iff_eq] at hid
    refine List.ext_getElem? fun j => ?_
    rw [Option.map_some, List.getElem?_modify, List.getElem?_map]
    cases hj : r.steps[j]? with
    | none => rfl
    | some s =>
      obtain ⟨hlt, rfl⟩ := List.getElem?_eq_some_iff.1 hj
      -- identifiers are distinct, so the step stands at the place exactly if it has the identifier
      have hplace : i + 0 = j ↔ r.steps[j].id = id := by
        constructor
        · rintro rfl
          exact hid
        · intro hs
          have hsame : (r.steps.map (·.id))[i]? = (r.steps.map (·.id))[j]? := by
            simp [List.getElem?_eq_getElem hi, List.getElem?_eq_getElem hlt, hid, hs]
          exact (List.getElem?_inj (by simpa using hi) h.nodup_ids).1 hsame
      simp only [Option.map_some, hplace]
      split <;> rfl

theorem Consistent.increment {r : Registry} (h : r.Consistent) (id : Text) : (r.increment id).Consistent where
  toIndexed := h.toIndexed.congr (uncounted_increment r id)
  count_eq := by
    rw [h.toIndexed.increment_steps id, List.forall_mem_map]
    intro s hs
    by_cases hid : s.id = id
    · subst hid
      simp [count_increment]
    · have hid' : id ≠ s.id := fun heq => hid heq.symm
      simp [hid, hid', count_increment, h.count_eq s hs]

theorem Indexed.refreshCounts {r : Registry} (h : r.Indexed) : r.refreshCounts.Consistent where
  toIndexed := h.congr (uncounted_refreshCounts r)
  count_eq := fun _ hs => count_eq_of_mem_refreshCounts hs

theorem Indexed.recount {r : Registry} (h : r.Indexed) {w : Workspace} {root : Path} {glob : Option Text}
    (hc : (r.recount w root glob).2.result = .ok ()) : (r.recount w root glob).1.Consistent := by
  rw [(recount_eq (countable_of_recount hc) r).2.1]
  refine (h.congr ?_).refreshCounts
  rw [uncounted_incrementAll, uncounted_resetCounts]

/-- What a build registers is in agreement with the counts, whatever the registry was like. -/
theorem consistent_of_build {r r' : Registry} {w : Workspace} {root : Path} {globs : List Text}
    (h : (r.build w root globs).result = .ok r') : r'.Consistent := by
  obtain ⟨-, rfl⟩ := build_result_eq_ok.1 h
  rw [← firsts_eq_firstOccurrences, withSteps]
  set found := (globFiles w root globs).flatMap (listedSteps r.settings r.rule w fun _ _ _ => true) with hfound
  have hids : ((firsts found).map r.recounted).map (·.id) = (firsts found).map (·.id) := by
    rw [List.map_map]
    rfl
  have hnodup : (((firsts found).map r.recounted).map (·.id)).Nodup := hids ▸ nodup_ids_firstsFrom [] found
  refine ⟨⟨hnodup, ?_, placesOf_eq hnodup⟩, ?_⟩
  · rw [List.forall_mem_map]
    intro s hs
    have hmem : s ∈ found := (firstsFrom_sublist [] found).subset hs
    obtain ⟨file, -, hlisted⟩ := List.mem_flatMap.1 hmem
    obtain ⟨content, l, keyword, body, c, -, -, -, -, rfl⟩ := mem_listedSteps hlisted
    rfl
  · rw [List.forall_mem_map]
    intro s _
    rfl

/-- A build registers what it finds, or it ends with a fault and leaves the registry as it is. -/
theorem after_build (r : Registry) (w : Workspace) (root : Path) (globs : List Text) :
    (r.build w root globs).result = .ok (r.after (.build w root globs)) ∨
      (∃ fault, (r.build w root globs).result = .error fault) ∧ r.after (.build w root globs) = r := by
  simp only [after]
  cases (r.build w root globs).result with
  | error fault => exact .inr ⟨⟨fault, rfl⟩, rfl⟩
  | ok r' => exact .inl rfl

/-- An accepted completion is an increment, or it names no step and changes nothing. -/
theorem after_accept (r : Registry) (id : Text) :
    r.after (.accept id) = r.increment id ∧ (Action.accept id).use? = some id ∨
      r.after (.accept id) = r ∧ (Action.accept id).use? = none := by
  simp only [after, Editor.acceptCompletion, Action.use?]
  split
  · exact .inr ⟨rfl, rfl⟩
  · exact .inl ⟨rfl, rfl⟩

/-- Every action keeps a registry in agreement with itself. -/
theorem after_consistent (r : Registry) (a : Action) (ha : a.CompletesOn r) (h : r.Consistent) : (r.after a).Consistent := by
  cases a with
  | build w root globs =>
    obtain hbuilt | ⟨-, hsame⟩ := r.after_build w root globs
    · exact consistent_of_build hbuilt
    · rw [hsame]
      exact h
  | recount w root glob => exact h.toIndexed.recount ha
  | increment id => exact h.increment id
  | accept id =>
    obtain ⟨hid, -⟩ | ⟨hsame, -⟩ := r.after_accept id
    · rw [hid]
      exact h.increment id
    · rw [hsame]
      exact h
  | refresh => exact h.toIndexed.refreshCounts

/-- No action changes the settings or the rule. -/
theorem after_settings (r : Registry) (a : Action) (ha : a.CompletesOn r) :
    (r.after a).settings = r.settings ∧ (r.after a).rule = r.rule := by
  cases a with
  | build w root globs =>
    obtain hbuilt | ⟨-, hsame⟩ := r.after_build w root globs
    · rw [(build_result_eq_ok.1 hbuilt).2]
      exact ⟨rfl, rfl⟩
    · exact ⟨congrArg _ hsame, congrArg _ hsame⟩
  | recount w root glob =>
    have h := uncounted_recount (countable_of_recount ha) r
    exact ⟨uncounted_settings h, uncounted_rule h⟩
  | increment id => exact ⟨rfl, rfl⟩
  | accept id =>
    obtain ⟨hid, -⟩ | ⟨hsame, -⟩ := r.after_accept id
    · rw [hid]
      exact ⟨rfl, rfl⟩
    · exact ⟨congrArg _ hsame, congrArg _ hsame⟩
  | refresh => exact ⟨rfl, rfl⟩

/-! ## Counts along a run -/

/-- An action other than a count adds its use, if it is one. -/
theorem count_after (r : Registry) {a : Action} (ha : a.isRecount = false) (id : Text) :
    (r.after a).count id = r.count id + a.use?.toList.count id := by
  have hincrement : ∀ id', (r.increment id').count id = r.count id + (some id').toList.count id := by
    intro id'
    rw [count_increment]
    simp [List.count_singleton]
  cases a with
  | build w root globs =>
    obtain hbuilt | ⟨-, hsame⟩ := r.after_build w root globs
    · rw [(build_result_eq_ok.1 hbuilt).2]
      rfl
    · rw [hsame]
      rfl
  | recount w root glob => cases ha
  | increment id' => exact hincrement id'
  | accept id' =>
    obtain ⟨hid, huse⟩ | ⟨hsame, huse⟩ := r.after_accept id'
    · rw [hid, huse]
      exact hincrement id'
    · rw [hsame, huse]
      rfl
  | refresh => rfl

end Registry

/-- A run keeps the settings and the rule. -/
theorem Run.keeps_settings {r r' : Registry} {actions : List Action} (h : Run r actions r') :
    r'.settings = r.settings ∧ r'.rule = r.rule := by
  refine h.preserves (P := fun t => t.settings = r.settings ∧ t.rule = r.rule) (fun t a ha ht => ?_) ⟨rfl, rfl⟩
  obtain ⟨hsettings, hrule⟩ := t.after_settings a ha
  exact ⟨hsettings.trans ht.1, hrule.trans ht.2⟩

/-- Between counts, counts grow by the uses that are added. -/
theorem Run.count_eq {r r' : Registry} {actions : List Action} (h : Run r actions r')
    (hactions : ∀ a ∈ actions, a.isRecount = false) (id : Text) :
    r'.count id = r.count id + (actions.filterMap Action.use?).count id := by
  induction h with
  | done => simp
  | @act r r' a actions ha _ ih =>
    rw [ih fun b hb => hactions b (List.mem_cons_of_mem _ hb), r.count_after (hactions a (by simp)), List.filterMap_cons]
    cases a.use? with
    | none => simp
    | some id' =>
      simp only [Option.toList_some, List.count_cons, List.count_nil]
      omega

namespace Registry

/-- What a completed build registers, file by file: the first step of every identifier in what the scans of the files give, glob
after glob. -/
theorem build_registers {r r' : Registry} {w : Workspace} {root : Path} {globs : List Text}
    (h : (r.build w root globs).result = .ok r') :
    ∃ (files : List (List Path)) (found : List (List Step)),
      List.Forall₂ (fun glob fs => w.findFiles root glob = .ok fs) globs files ∧
      List.Forall₂ (fun file steps => (fileSteps r.settings r.rule w file).result = .ok steps) files.flatten found ∧
      r'.steps = (firstOccurrences found.flatten).map r'.recounted := by
  obtain ⟨hglobs, rfl⟩ := build_result_eq_ok.1 h
  have hfiles : globFiles w root globs = (globs.map fun glob => (w.findFiles root glob).toOption.getD []).flatten :=
    List.flatMap_def
  refine ⟨globs.map fun glob => (w.findFiles root glob).toOption.getD [],
    (globFiles w root globs).map (listedSteps r.settings r.rule w fun _ _ _ => true), ?_, ?_, ?_⟩
  · rw [List.forall₂_map_right_iff, List.forall₂_same]
    intro glob hglob
    obtain ⟨files, hfind, -⟩ := hglobs glob hglob
    simp [hfind, Except.toOption]
  · rw [← hfiles, List.forall₂_map_right_iff, List.forall₂_same]
    intro file hfile
    obtain ⟨glob, hglob, hfile⟩ := List.mem_flatMap.1 hfile
    obtain ⟨files, hfind, hscannable⟩ := hglobs glob hglob
    have hmem : file ∈ files := by simpa [hfind, Except.toOption] using hfile
    exact (fileSteps_result_eq_ok file _).2 ⟨hscannable file hmem, rfl⟩
  · rw [← List.flatMap_def]
    rfl

/-- A registry that has gone from empty through any actions: its steps have distinct identifiers, those of their texts, and so
distinct texts; its places list exactly its steps; every step shows its count; a count is the uses that the last count found, and
the uses added since then; and right after a build that completed the steps are the first occurrences in what the files gave. -/
theorem run_keeps_registry (s : Settings) (start r : Registry) (actions : List Action) (hstart : ofSettings? s = .ok start)
    (hrun : Run start actions r) :
    (r.steps.map (·.id)).Nodup ∧
    (∀ x ∈ r.steps, x.id = stepId x.text) ∧
    (r.steps.map (·.text)).Nodup ∧
    r.places = (r.steps.zipIdx.map fun (x, i) => (x.id, i)) ∧
    (∀ x ∈ r.steps, x.count = r.count x.id) ∧
    ((∀ a ∈ actions, a.isRecount = false) → ∀ id, r.count id = (actions.filterMap Action.use?).count id) ∧
    (∀ before w root glob rest, actions = before ++ .recount w root glob :: rest → (∀ a ∈ rest, a.isRecount = false) →
      ∃ mid, Run start before mid ∧
        ∀ id, r.count id = (mid.usePlaces w (countedFiles w root glob) id).length + (rest.filterMap Action.use?).count id) ∧
    (∀ before w root globs, actions = before ++ [.build w root globs] →
      ∃ mid, Run start before mid ∧
        ((∃ fault, (mid.build w root globs).result = .error fault) ∧ r = mid ∨
          ∃ (files : List (List Path)) (found : List (List Step)),
            List.Forall₂ (fun glob fs => w.findFiles root glob = .ok fs) globs files ∧
            List.Forall₂ (fun file steps => (fileSteps s start.rule w file).result = .ok steps) files.flatten found ∧
            r.steps = (firstOccurrences found.flatten).map r.recounted)) := by
  obtain ⟨hempty, hsettings, hcounts⟩ := consistent_ofSettings hstart
  have hconsistent : r.Consistent := hrun.preserves after_consistent hempty
  refine ⟨hconsistent.nodup_ids, hconsistent.id_eq, hconsistent.nodup_texts, hconsistent.places_eq, hconsistent.count_eq,
    ?_, ?_, ?_⟩
  · intro hactions id
    have hzero : start.count id = 0 := by simp [count, hcounts, Entries.get?]
    rw [hrun.count_eq hactions id, hzero, Nat.zero_add]
  · rintro before w root glob rest rfl hrest
    obtain ⟨mid, hbefore, hafter⟩ := hrun.split
    cases hafter with
    | act hcompletes hafter =>
      refine ⟨mid, hbefore, fun id => ?_⟩
      rw [hafter.count_eq hrest id, length_usePlaces]
      congr 1
      exact count_recount (countable_of_recount hcompletes) mid id
  · rintro before w root globs rfl
    obtain ⟨mid, hbefore, hlast⟩ := hrun.split
    have hmid := hbefore.keeps_settings
    refine ⟨mid, hbefore, ?_⟩
    cases hlast with
    | act _ hdone =>
      cases hdone
      obtain hbuilt | hends := mid.after_build w root globs
      · obtain ⟨files, found, hfiles, hfound, hsteps⟩ := build_registers hbuilt
        rw [hmid.1, hmid.2, hsettings] at hfound
        exact .inr ⟨files, found, hfiles, hfound, hsteps⟩
      · exact .inl hends

/-- A use before any step is known, a build that finds a text twice, a count over a file that uses the step twice, a build that
ends with a fault, and one more use. -/
theorem run_keeps_registry_twice :
    let s : Settings := { languages := [⟨"q", ["Given "], [], [], [], [], []⟩] }
    let start : Registry := { settings := s, rule := .ofLanguages s.languages }
    let file (name content : String) : Path × Entry := ([of name], .file (content.toList.map fun c => c.toNat.toUInt8))
    let w : Workspace := ⟨[file "a" "Given('x', f)\nGiven('y', f)\nGiven('x', g)", file "f" "Given x\nGiven z\nGiven x"]⟩
    let x := stepId (of "x")
    let before : List Action := [.increment x, .build w [] [of "a"]]
    let rest : List Action := [.build w [] [of ""], .accept x]
    let actions : List Action := before ++ .recount w [] (some (of "f")) :: rest
    let r := actions.foldl after start
    ofSettings? s = .ok start ∧ Run start actions r ∧ r.steps.map (·.text) = [of "x", of "y"] ∧ (r.steps.map (·.text)).Nodup ∧
      r.count x = 3 ∧ ∀ t ∈ r.steps, t.count = r.count t.id := by
  intro s start file w x before rest actions r
  have hcount : ((before.foldl after start).recount w [] (some (of "f"))).2.result = .ok () := by decide +kernel
  have hrun : Run start actions r := .act trivial (.act trivial (.act hcount (.act trivial (.act trivial (.done r)))))
  obtain ⟨-, -, htexts, -, hshown, -⟩ := run_keeps_registry s start r actions rfl hrun
  exact ⟨rfl, hrun, by decide +kernel, htexts, by decide +kernel, hshown⟩

end Registry
end StepCatalog.Catalog
