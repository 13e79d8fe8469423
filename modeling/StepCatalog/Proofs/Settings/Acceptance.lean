import StepCatalog.Proofs.Settings.Order

/-!
# Settings that are accepted

What is accepted is what was written: no value of another type passes for a text, a list of texts or a switch
(`Settings.Written`). No glob among it is blank, no custom parameter empty, and all languages are in the table
(`Settings.WellFormed`).
-/

namespace StepCatalog.Settings

open Json (Same)
open Text (of)

/-- The value that writes which feature files are counted. -/
def syncJson : Sync → Json
  | .all on => .bool on
  | .glob pattern => .string pattern

/-- The value that writes a text that may be left out. -/
def overrideJson : Option Text → Json
  | none => .null
  | some s => .string s

/-- An item writes a custom parameter: both its texts stand in its fields. -/
def WritesParameter (item : Json) (p : CustomParameter) : Prop :=
  ∃ fields, item = .object fields ∧ Entries.get? (of "parameter") fields = some (.string p.parameter) ∧
    Entries.get? (of "value") fields = some (.string p.value)

/-- The settings are those that the fields write: the elements of a value, or the one text that it is, are the globs and the codes of
the languages, and of the other values no more is taken than what they say. -/
structure Written (fields : List (Text × Json)) (s : Settings) : Prop where
  steps : ∀ v ∈ (written fields (of "steps")).getLast?, listed v = .ok (s.steps.map .string)
  sync : ∀ v ∈ (written fields (of "syncfeatures")).getLast?, v = syncJson s.sync
  customParameters : ∀ v ∈ (written fields (of "customParameters")).getLast?,
    ∃ items, elements? v = some items ∧ List.Forall₂ WritesParameter items s.customParameters
  definitionKeyword : ∀ v ∈ (written fields (of "gherkinDefinitionPart")).getLast?, v = overrideJson s.definitionKeyword
  openingSymbol : ∀ v ∈ (written fields (of "stepRegExSymbol")).getLast?, v = overrideJson s.openingSymbol
  languages : ∀ v ∈ (written fields (of "gherkinLanguages")).getLast?, listed v = .ok (s.languages.map fun l => .string l.code.toList)

/-- Settings in which no glob is blank, every custom parameter replaces something, and every language is known to a table by its code. -/
structure WellFormed (table : List Gherkin.Language) (s : Settings) : Prop where
  steps : ∀ glob ∈ s.steps, glob.isBlankText = false
  sync : ∀ pattern, s.sync = .glob pattern → pattern.isBlankText = false
  customParameters : ∀ p ∈ s.customParameters, p.parameter ≠ []
  languages : ∀ l ∈ s.languages, table.find? (fun k => k.code.toList = l.code.toList) = some l

theorem readGlob_eq_ok {v : Json} {glob : Text} (h : readGlob v = .ok glob) : v = .string glob ∧ glob.isBlankText = false := by
  unfold readGlob at h
  split at h
  · split at h
    · cases h
    · rename_i hsolid
      cases h
      exact ⟨rfl, by simpa using hsolid⟩
  · cases h

theorem readSync_eq_ok {v : Json} {sync : Sync} (h : readSync v = .ok sync) :
    v = syncJson sync ∧ ∀ pattern, sync = .glob pattern → pattern.isBlankText = false := by
  unfold readSync at h
  split at h
  · cases h
    exact ⟨rfl, fun _ h => by cases h⟩
  · split at h
    · cases h
    · rename_i hsolid
      cases h
      refine ⟨rfl, fun _ h => ?_⟩
      cases h
      simpa using hsolid
  · cases h

theorem readOverride_eq_ok {e : Error} {v : Json} {s : Option Text} (h : readOverride e v = .ok s) : v = overrideJson s := by
  unfold readOverride at h
  split at h <;> cases h <;> rfl

theorem readLanguage_eq_ok {table : List Gherkin.Language} {v : Json} {l : Gherkin.Language} (h : readLanguage table v = .ok l) :
    v = .string l.code.toList ∧ table.find? (fun k => k.code.toList = l.code.toList) = some l := by
  unfold readLanguage at h
  split at h
  · cases h
  · cases h
  · rename_i code
    split at h
    · rename_i hfind
      cases h
      have hcode : l.code.toList = code := by simpa using List.find?_some hfind
      rw [hcode]
      exact ⟨rfl, hfind⟩
    · cases h
  · cases h

theorem readParameter_eq_ok {v : Json} {p : CustomParameter} (h : readParameter v = .ok p) :
    WritesParameter v p ∧ p.parameter ≠ [] := by
  unfold readParameter at h
  split at h
  · split at h
    · rename_i hparameter hvalue
      split at h
      · cases h
      · rename_i hempty
        cases h
        exact ⟨⟨_, rfl, hparameter, hvalue⟩, by simpa using hempty⟩
    · cases h
  · cases h

/-- What is read element by element are the elements of the value. -/
theorem listed_of_read {α : Type} {f : Json → Except Error α} {json : α → Json} {P : α → Prop}
    (hf : ∀ {v a}, f v = .ok a → v = json a ∧ P a) {v : Json} {as : List α}
    (h : (listed v >>= fun items => items.mapM f) = .ok as) : listed v = .ok (as.map json) ∧ ∀ a ∈ as, P a := by
  obtain ⟨items, hitems, hread⟩ := bind_eq_ok_iff.1 h
  rw [mapM_eq_ok_iff] at hread
  have helements : items = as.map json ∧ ∀ a ∈ as, P a := by
    clear hitems h
    induction hread with
    | nil => exact ⟨rfl, by simp⟩
    | cons hread _ ih =>
      obtain ⟨rfl, ha⟩ := hf hread
      exact ⟨by rw [ih.1, List.map_cons], List.forall_mem_cons.2 ⟨ha, ih.2⟩⟩
  rw [hitems, helements.1]
  exact ⟨rfl, helements.2⟩

/-- A setting is what was read from the value given for it, or its default. -/
theorem of_orDefault {α : Type} {default : α} {read : Json → Except Error α} {P : α → Prop} {Q : Json → α → Prop}
    (hdefault : P default) (hread : ∀ {v a}, read v = .ok a → Q v a ∧ P a) {given : Option Json} {a : α}
    (h : orDefault default read given = .ok a) : (∀ v ∈ given, Q v a) ∧ P a := by
  cases given with
  | none =>
    cases h
    exact ⟨fun v hv => (by cases hv), hdefault⟩
  | some value =>
    obtain ⟨hQ, hP⟩ := hread h
    refine ⟨fun v hv => ?_, hP⟩
    cases hv
    exact hQ

/-- The custom parameters are those of the last value written for them. -/
theorem of_readParameters {values : List Json} {parameters : List (List CustomParameter)}
    (h : values.mapM readParameters = .ok parameters) :
    (∀ v ∈ values.getLast?, ∃ items, elements? v = some items ∧
      List.Forall₂ WritesParameter items (parameters.getLast?.getD [])) ∧
    ∀ p ∈ parameters.getLast?.getD [], p.parameter ≠ [] := by
  have hlast := rel_getLast? (mapM_eq_ok_iff.1 h)
  generalize values.getLast? = v, parameters.getLast? = ps at hlast
  cases hlast with
  | none => exact ⟨fun v hv => (by cases hv), by simp⟩
  | @some v ps hread =>
    unfold readParameters at hread
    split at hread
    · cases hread
    · rename_i items hitems
      rw [mapM_eq_ok_iff] at hread
      refine ⟨fun w hw => ?_, fun p hp => ?_⟩
      · cases hw
        exact ⟨items, hitems, hread.imp fun _ _ hitem => (readParameter_eq_ok hitem).1⟩
      · obtain ⟨item, -, hitem⟩ := (mem_of_mapM_eq_ok (mapM_eq_ok_iff.2 hread) p).1 hp
        exact (readParameter_eq_ok hitem).2

/-- Settings are accepted only as they were written, and only well-formed. -/
theorem accepted_of_ofFields? {fields : List (Text × Json)} {table : List Gherkin.Language} {s : Settings}
    (h : ofFields? fields table = .ok s) : Written fields s ∧ WellFormed table s := by
  rw [ofFields?_eq] at h
  obtain ⟨given, hgiven, hcheck⟩ := bind_eq_ok_iff.1 h
  unfold Given.ofWritten at hgiven
  cases hparameters : (written fields (of "customParameters")).mapM readParameters with
  | error e =>
    rw [hparameters] at hgiven
    cases hgiven
  | ok parameters =>
    rw [hparameters] at hgiven
    cases hgiven
    simp only [Option.or_none] at hcheck
    unfold Given.check at hcheck
    obtain ⟨steps, hsteps, hcheck⟩ := bind_eq_ok_iff.1 hcheck
    obtain ⟨sync, hsync, hcheck⟩ := bind_eq_ok_iff.1 hcheck
    obtain ⟨keyword, hkeyword, hcheck⟩ := bind_eq_ok_iff.1 hcheck
    obtain ⟨symbol, hsymbol, hcheck⟩ := bind_eq_ok_iff.1 hcheck
    obtain ⟨ls, hls, hcheck⟩ := bind_eq_ok_iff.1 hcheck
    cases hcheck
    have hsteps := of_orDefault (P := fun globs => ∀ glob ∈ globs, glob.isBlankText = false) (by decide +kernel)
      (listed_of_read readGlob_eq_ok) hsteps
    have hsync := of_orDefault (fun _ h => by cases h) readSync_eq_ok hsync
    have hoverride : ∀ {e : Error} {v : Json} {s : Option Text}, readOverride e v = .ok s → v = overrideJson s ∧ True :=
      fun h => ⟨readOverride_eq_ok h, trivial⟩
    have hkeyword := of_orDefault (P := fun _ => True) trivial hoverride hkeyword
    have hsymbol := of_orDefault (P := fun _ => True) trivial hoverride hsymbol
    have hls := listed_of_read readLanguage_eq_ok hls
    have hcodes : ∀ v ∈ (written fields (of "gherkinLanguages")).getLast?, listed v = .ok (ls.map fun l => .string l.code.toList) := by
      intro v hv
      rw [Option.mem_def.1 hv] at hls
      exact hls.1
    have hcustom := of_readParameters hparameters
    exact ⟨⟨hsteps.1, hsync.1, hcustom.1, hkeyword.1, hsymbol.1, hcodes⟩, ⟨hsteps.2, hsync.2, hcustom.2, hls.2⟩⟩

/-- No glob of feature files is blank. -/
theorem WellFormed.featuresGlob {table : List Gherkin.Language} {s : Settings} (h : WellFormed table s) :
    ∀ pattern ∈ s.featuresGlob?, pattern.isBlankText = false := by
  intro pattern hpattern
  unfold featuresGlob? at hpattern
  split at hpattern
  · cases hpattern
    decide +kernel
  · cases hpattern
  · rename_i hsync
    cases hpattern
    exact h.sync _ hsync

/-- The languages are found again by their codes. -/
theorem WellFormed.resolve {table : List Gherkin.Language} {s : Settings} (h : WellFormed table s) :
    Gherkin.resolveLanguages table (s.languages.map (·.code.toList)) = .ok s.languages := by
  rw [Gherkin.resolveLanguages, mapM_eq_ok_iff, List.forall₂_map_left_iff, List.forall₂_same]
  intro l hl
  rw [h.languages l hl]

/-! ## What settings depend on -/

/-- Settings depend on the values that are written for each of them, and on nothing else in the fields. Where these values differ in
the order of the fields inside them or in how numbers are written, the outcome is the same up to the wording of an error and the order
of globs and languages, and that order differs only if an object stands for them, with its keys in another order; the same switches are
on. Settings that are accepted are those that were written; they are well-formed, their glob of feature files is not blank, and their
languages are found in the table by their codes. -/
theorem ofFields?_reads_written (table : List Gherkin.Language) (fields : List (Text × Json)) :
    (∀ fields', (∀ name ∈ settingNames, written fields name = written fields' name) →
      ofFields? fields table = ofFields? fields' table) ∧
    (∀ fields', (∀ name ∈ settingNames, List.Forall₂ Same (written fields name) (written fields' name)) →
      Alike (fun s t => s.Agree t ∧ s.switches = t.switches ∧
          ((written fields (of "steps")).map Json.keys = (written fields' (of "steps")).map Json.keys → s.steps = t.steps) ∧
          ((written fields (of "gherkinLanguages")).map Json.keys = (written fields' (of "gherkinLanguages")).map Json.keys →
            s.languages = t.languages))
        (ofFields? fields table) (ofFields? fields' table)) ∧
    (∀ s, ofFields? fields table = .ok s → Written fields s ∧ WellFormed table s ∧
      (∀ pattern ∈ s.featuresGlob?, pattern.isBlankText = false) ∧
      Gherkin.resolveLanguages table (s.languages.map (·.code.toList)) = .ok s.languages) := by
  refine ⟨fun fields' hsame => ?_, fun fields' hsame => ?_, fun s hs => ?_⟩
  · rw [ofFields?_eq, ofFields?_eq, Given.ofWritten_congr hsame]
  · have hkeys : ∀ name, (written fields name).map Json.keys = (written fields' name).map Json.keys →
        (written fields name).getLast?.map Json.keys = (written fields' name).getLast?.map Json.keys := by
      intro name hname
      rw [← List.getLast?_map, ← List.getLast?_map, hname]
    rw [ofFields?_eq, ofFields?_eq]
    refine (alike_ofWritten hsame).bind fun g g' ⟨hgiven, ⟨hsteps, hsteps'⟩, hls, hls'⟩ => ?_
    refine (alike_check table hgiven).imp fun s t ⟨hagree, hglobs, hcodes⟩ => ?_
    refine ⟨hagree, hagree.switches_eq, fun heq => hglobs ?_, fun heq => hcodes ?_⟩
    · rw [hsteps, hsteps', hkeys _ heq]
    · rw [hls, hls', hkeys _ heq]
  · obtain ⟨hwritten, hwell⟩ := accepted_of_ofFields? hs
    exact ⟨hwritten, hwell, hwell.featuresGlob, hwell.resolve⟩

/-- The same three settings in two orders, one of them with the fields of its value in two orders, one a number that is written in two
ways, one with a further field beside them. -/
theorem ofFields?_reads_written_swapped :
    let steps : Json := .array [.string (of "a.js")]
    let fields := [(of "gherkinSteps.steps", steps), (of "editor.fontSize", .int 14), (of "pureTextSteps", .decimal (of "1.0")),
      (of "smartSnippets", .object [(of "p", .int 1), (of "q", .int 2)])]
    let fields' := [(of "gherkinSteps.smartSnippets", .object [(of "q", .int 2), (of "p", .int 1)]), (of "steps", steps),
      (of "pureTextSteps", .decimal (of "10.00e-1"))]
    ofFields? fields.reverse = ofFields? fields ∧ ∃ s t, ofFields? fields = .ok s ∧ ofFields? fields' = .ok t ∧
      s.steps = [of "a.js"] ∧ s.Agree t ∧ s.switches = t.switches ∧ s.steps = t.steps ∧ s.languages = t.languages ∧
      Written fields s ∧ WellFormed Gherkin.languages s := by
  intro steps fields fields'
  have hone : Same (.decimal (of "1.0")) (.decimal (of "10.00e-1")) :=
    .number (x := ⟨10, -1⟩) (y := ⟨1000, -3⟩) (by decide +kernel) (by decide +kernel) ⟨2, 0, by decide, by decide⟩
  have hsame : ∀ name ∈ settingNames, List.Forall₂ Same (written fields name) (written fields' name) := by
    simp only [settingNames, List.forall_mem_cons]
    refine ⟨.cons (.array (.cons (.string _) .nil)) .nil, .nil, .nil, .nil, .cons (.swap (by decide) (.int 1) (.int 2)) .nil, .nil,
      .cons hone .nil, .nil, .nil, .nil, .nil, by simp⟩
  have honce : ∀ name ∈ settingNames, (written fields name).length ≤ 1 := by decide +kernel
  have hreverse : ∀ name ∈ settingNames, written fields name = written fields.reverse name :=
    fun name hname => written_of_perm fields.reverse_perm.symm (honce name hname)
  have hsteps : (ofFields? fields).toOption.map (·.steps) = some [of "a.js"] := by decide +kernel
  obtain ⟨hequal, halike, haccepted⟩ := ofFields?_reads_written Gherkin.languages fields
  refine ⟨(hequal _ hreverse).symm, ?_⟩
  have halike := halike fields' hsame
  generalize ofFields? fields = x, ofFields? fields' = y at hsteps halike haccepted ⊢
  cases halike with
  | error _ => cases hsteps
  | @ok s t h =>
    obtain ⟨hwritten, hwell, -⟩ := haccepted s rfl
    obtain ⟨hagree, hswitches, hglobs, hcodes⟩ := h
    exact ⟨s, t, rfl, rfl, Option.some.inj hsteps, hagree, hswitches, hglobs (by decide +kernel), hcodes (by decide +kernel), hwritten,
      hwell⟩

/-- An object that is given for the globs stands for the list of its keys, in their order. -/
theorem ofFields?_keys_in_order :
    let fields := [(of "steps", Json.object [(of "a", .int 1), (of "b", .int 1)])]
    let fields' := [(of "steps", Json.object [(of "b", .int 1), (of "a", .int 1)])]
    (∀ name ∈ settingNames, List.Forall₂ Same (written fields name) (written fields' name)) ∧
      (ofFields? fields).toOption.map (·.steps) = some [of "a", of "b"] ∧
      (ofFields? fields').toOption.map (·.steps) = some [of "b", of "a"] := by
  intro fields fields'
  refine ⟨?_, by decide +kernel, by decide +kernel⟩
  simp only [settingNames, List.forall_mem_cons]
  exact ⟨.cons (.swap (by decide) (.int 1) (.int 1)) .nil, .nil, .nil, .nil, .nil, .nil, .nil, .nil, .nil, .nil, .nil, by simp⟩

end StepCatalog.Settings
