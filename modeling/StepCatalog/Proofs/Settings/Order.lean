import StepCatalog.Proofs.Json.Same
import StepCatalog.Proofs.Traversal
import StepCatalog.Settings

/-!
# Settings in any order of fields

Of the fields of an object only the values that are written for each setting count (`Settings.ofFields?_eq`): not the names under
which they are written, nor the order of different settings, nor any other field. The values may differ in the order of the fields
inside them and in how numbers are written (`Json.Same`): then what they give is refused for errors of one kind, or agrees up to the
order of the globs and of the languages, and not even that differs unless an object was given for them, which stands for the list of
its keys (`Settings.alike_check`).
-/

namespace StepCatalog

open Text (of)

namespace Settings

open Json (Same)

/-! ## Outcomes up to the kind of error -/

/-- The kinds of errors. -/
inductive Error.Kind where
  | type
  | attribute
  | value
  deriving DecidableEq, Repr

/-- The kind of an error: a value of the wrong type, a field looked for in what has none, or a value out of range. -/
def Error.kind : Error → Error.Kind
  | .noElements | .codeNotScalar | .parameterNotText | .syncNeither | .keywordNotText | .symbolNotText => .type
  | .parameterNoObject => .attribute
  | .parameterEmpty | .emptyGlob | .syncEmpty | .unknownLanguage _ => .value

/-- Two outcomes are alike: errors of one kind, or results that are related. -/
inductive Alike {α β : Type} (R : α → β → Prop) : Except Error α → Except Error β → Prop where
  | error {e e' : Error} (h : e.kind = e'.kind) : Alike R (.error e) (.error e')
  | ok {a : α} {b : β} (h : R a b) : Alike R (.ok a) (.ok b)

theorem Alike.refl {α : Type} {R : α → α → Prop} (hR : ∀ a, R a a) (x : Except Error α) : Alike R x x := by
  cases x with
  | error e => exact .error rfl
  | ok a => exact .ok (hR a)

theorem Alike.imp {α β : Type} {R S : α → β → Prop} {x : Except Error α} {y : Except Error β} (hRS : ∀ a b, R a b → S a b)
    (h : Alike R x y) : Alike S x y := by
  cases h with
  | error h => exact .error h
  | ok h => exact .ok (hRS _ _ h)

theorem Alike.bind {α β γ δ : Type} {R : α → β → Prop} {S : γ → δ → Prop} {x : Except Error α} {y : Except Error β}
    {f : α → Except Error γ} {g : β → Except Error δ} (h : Alike R x y) (hfg : ∀ a b, R a b → Alike S (f a) (g b)) :
    Alike S (x >>= f) (y >>= g) := by
  cases h with
  | error h => exact .error h
  | ok h => exact hfg _ _ h

/-- Traversals of one list in two orders, where all errors are of one kind. -/
theorem Alike.mapM_perm {α γ : Type} {f : α → Except Error γ} {k : Error.Kind} {xs ys : List α}
    (hk : ∀ x ∈ xs, ∀ e, f x = .error e → e.kind = k) (h : xs.Perm ys) : Alike List.Perm (xs.mapM f) (ys.mapM f) := by
  have hpast : ∀ {xs ys : List α} {as : List γ}, ys.Perm xs → xs.mapM f = .ok as → ∃ bs, ys.mapM f = .ok bs ∧ bs.Perm as := by
    intro xs ys as hperm has
    obtain ⟨bs, hbs, hperm⟩ := List.perm_comp_forall₂ hperm (mapM_eq_ok_iff.1 has)
    exact ⟨bs, mapM_eq_ok_iff.2 hbs, hperm⟩
  cases hxs : xs.mapM f with
  | ok as =>
    obtain ⟨bs, hbs, hperm⟩ := hpast h.symm hxs
    rw [hbs]
    exact .ok hperm.symm
  | error e =>
    cases hys : ys.mapM f with
    | ok bs =>
      obtain ⟨as, has, -⟩ := hpast h hys
      rw [hxs] at has
      cases has
    | error e' =>
      obtain ⟨x, hx, hfx⟩ := exists_of_mapM_eq_error hxs
      obtain ⟨y, hy, hfy⟩ := exists_of_mapM_eq_error hys
      exact .error ((hk x hx e hfx).trans (hk y (h.mem_iff.2 hy) e' hfy).symm)

/-! ## Values read up to the order of fields -/

/-- What reads values alike that are the same reads lists of them alike. -/
theorem Alike.mapM_same {α : Type} {f : Json → Except Error α} (hf : ∀ v w, Same v w → Alike Eq (f v) (f w)) {xs ys : List Json}
    (h : List.Forall₂ Same xs ys) : Alike Eq (xs.mapM f) (ys.mapM f) := by
  induction h with
  | nil => exact .ok rfl
  | cons hxy _ ih =>
    rw [List.mapM_cons, List.mapM_cons]
    refine (hf _ _ hxy).bind fun a b hab => ih.bind fun as bs hbs => ?_
    rw [hab, hbs]
    exact .ok rfl

/-- What reads values that are the same with one outcome does so with lists of them. -/
theorem mapM_congr_same {α : Type} {f : Json → Except Error α} (hf : ∀ v w, Same v w → f v = f w) {xs ys : List Json}
    (h : List.Forall₂ Same xs ys) : xs.mapM f = ys.mapM f := by
  induction h with
  | nil => rfl
  | cons hxy _ ih => rw [List.mapM_cons, List.mapM_cons, hf _ _ hxy, ih]

theorem alike_readGlob (v w : Json) (h : Same v w) : Alike Eq (readGlob v) (readGlob w) := by
  have hsame : readGlob v = readGlob w := by cases h <;> rfl
  rw [hsame]
  exact .refl (fun _ => rfl) _

theorem readSync_congr_same (v w : Json) (h : Same v w) : readSync v = readSync w := by
  cases h <;> rfl

theorem readOverride_congr_same (e : Error) (v w : Json) (h : Same v w) : readOverride e v = readOverride e w := by
  cases h <;> rfl

/-- A number is no language, and the message shows it as it was written. -/
theorem alike_readLanguage (table : List Gherkin.Language) (v w : Json) (h : Same v w) :
    Alike Eq (readLanguage table v) (readLanguage table w) := by
  cases h with
  | array _ => exact .error rfl
  | object _ _ _ => exact .error rfl
  | number _ _ _ => exact .error rfl
  | _ => exact .refl (fun _ => rfl) _

/-- The texts of a custom parameter are found in any order of its fields. -/
theorem readParameter_congr_same (v w : Json) (h : Same v w) : readParameter v = readParameter w := by
  cases h with
  | @object fs gs _ _ h =>
    have hparameter := h (of "parameter")
    have hvalue := h (of "value")
    dsimp only [readParameter]
    generalize Entries.get? (of "parameter") fs = p, Entries.get? (of "parameter") gs = p', Entries.get? (of "value") fs = q,
      Entries.get? (of "value") gs = q' at hparameter hvalue ⊢
    cases hparameter with
    | none => rfl
    | some hparameter =>
      cases hvalue with
      | none => cases hparameter <;> rfl
      | some hvalue => cases hparameter <;> cases hvalue <;> rfl
  | _ => rfl

/-- Custom parameters. The keys of an object are none. -/
theorem readParameters_congr_same {v w : Json} (h : Same v w) : readParameters v = readParameters w := by
  cases h with
  | array h => exact mapM_congr_same readParameter_congr_same h
  | @object fs gs hfs hgs h =>
    have hperm := Json.keys_perm hfs hgs h
    cases fs with
    | nil =>
      obtain rfl : gs = [] := by simpa using hperm.symm
      rfl
    | cons f fs =>
      cases gs with
      | nil => simp at hperm
      | cons g gs => rfl
  | _ => rfl

/-- Values that are read element by element. An object is read as the list of its keys, of which the order then counts. -/
theorem alike_listed {α : Type} {f : Json → Except Error α} {k : Error.Kind} (hf : ∀ v w, Same v w → Alike Eq (f v) (f w))
    (hk : ∀ s e, f (.string s) = .error e → e.kind = k) {v w : Json} (h : Same v w) :
    Alike (fun as bs => as.Perm bs ∧ (v.keys = w.keys → as = bs)) (listed v >>= fun items => items.mapM f)
      (listed w >>= fun items => items.mapM f) := by
  have hrefl : ∀ as : List α, as.Perm as ∧ (v.keys = w.keys → as = as) := fun as => ⟨.refl as, fun _ => rfl⟩
  cases h with
  | @array xs ys h =>
    refine (Alike.mapM_same hf h).imp fun as bs hsame => ?_
    rw [hsame]
    exact hrefl bs
  | @object fs gs hfs hgs h =>
    have hread : ∀ fs : List (Text × Json), (listed (.object fs) >>= fun items => items.mapM f) =
        (fs.map (·.1)).mapM fun key => f (.string key) := by
      intro fs
      rw [List.mapM_map]
      exact List.mapM_map
    rw [hread, hread]
    by_cases hkeys : fs.map (·.1) = gs.map (·.1)
    · rw [hkeys]
      exact .refl hrefl _
    · refine (Alike.mapM_perm (fun key _ => hk key) (Json.keys_perm hfs hgs h)).imp fun as bs hperm => ?_
      exact ⟨hperm, fun heq => absurd heq hkeys⟩
  | _ => exact .refl hrefl _

/-! ## The values written for a setting -/

/-- The names of the settings. -/
def settingNames : List Text :=
  [of "steps", of "syncfeatures", of "strictGherkinCompletion", of "strictGherkinValidation", of "smartSnippets",
    of "stepsInvariants", of "pureTextSteps", of "customParameters", of "gherkinDefinitionPart", of "stepRegExSymbol",
    of "gherkinLanguages"]

/-- The values that fields write for the setting with a name, in their order. -/
def written (fields : List (Text × Json)) (name : Text) : List Json :=
  (fields.filter fun field => settingName field.1 = name).map (·.2)

theorem written_cons (key : Text) (value : Json) (fields : List (Text × Json)) (name : Text) :
    written ((key, value) :: fields) name = (if settingName key = name then [value] else []) ++ written fields name := by
  by_cases h : settingName key = name <;> simp [written, h]

/-- The order of fields makes no difference to a setting that is written once. -/
theorem written_of_perm {fields fields' : List (Text × Json)} (h : fields.Perm fields') {name : Text}
    (honce : (written fields name).length ≤ 1) : written fields name = written fields' name := by
  have hperm : (written fields name).Perm (written fields' name) := (h.filter _).map _
  generalize written fields name = values, written fields' name = values' at honce hperm ⊢
  match values with
  | [] => exact hperm.nil_eq
  | [value] => exact List.singleton_perm.1 hperm
  | _ :: _ :: _ => simp at honce

/-- What the values written for each setting give: all custom parameters are read, and of everything the last counts. -/
def Given.ofWritten (values : Text → List Json) (g : Given) : Except Error Given :=
  ((values (of "customParameters")).mapM readParameters).map fun parameters =>
    { steps := (values (of "steps")).getLast?.or g.steps
      sync := (values (of "syncfeatures")).getLast?.or g.sync
      strictCompletion := (values (of "strictGherkinCompletion")).getLast?.or g.strictCompletion
      strictValidation := (values (of "strictGherkinValidation")).getLast?.or g.strictValidation
      smartSnippets := (values (of "smartSnippets")).getLast?.or g.smartSnippets
      expandAlternatives := (values (of "stepsInvariants")).getLast?.or g.expandAlternatives
      pureText := (values (of "pureTextSteps")).getLast?.or g.pureText
      customParameters := parameters.getLast?.or g.customParameters
      definitionKeyword := (values (of "gherkinDefinitionPart")).getLast?.or g.definitionKeyword
      openingSymbol := (values (of "stepRegExSymbol")).getLast?.or g.openingSymbol
      languages := (values (of "gherkinLanguages")).getLast?.or g.languages }

/-- A further field writes one value, for the setting it names. -/
theorem Given.add_eq_ofWritten (g : Given) (key : Text) (value : Json) :
    g.add (key, value) = Given.ofWritten (fun name => if settingName key = name then [value] else []) g := by
  have hread : [value].mapM readParameters = (readParameters value).map ([·]) := by
    rw [List.mapM_cons]
    cases readParameters value <;> rfl
  unfold Given.add Given.ofWritten
  dsimp only
  generalize settingName key = name
  by_cases hname : name ∈ settingNames
  · simp only [settingNames, List.mem_cons, List.not_mem_nil, or_false] at hname
    rcases hname with rfl | rfl | rfl | rfl | rfl | rfl | rfl | rfl | rfl | rfl | rfl
    all_goals simp +decide [hread, Except.map, pure, Except.pure]
    all_goals cases readParameters value <;> rfl
  · simp only [settingNames, List.mem_cons, List.not_mem_nil, or_false, not_or] at hname
    simp [hname, Except.map, pure, Except.pure]

/-- Values that are written behind others count in their place. -/
theorem Given.ofWritten_append (values later : Text → List Json) (g : Given) :
    Given.ofWritten (fun name => values name ++ later name) g = Given.ofWritten values g >>= Given.ofWritten later := by
  unfold Given.ofWritten
  rw [List.mapM_append]
  cases (values (of "customParameters")).mapM readParameters with
  | error e => rfl
  | ok parameters =>
    cases (later (of "customParameters")).mapM readParameters with
    | error e => simp [bind, Except.bind, Except.map]
    | ok parameters' =>
      simp [bind, Except.bind, Except.map, pure, Except.pure, List.getLast?_append, Option.or_assoc]

/-- Only the names of settings count. -/
theorem Given.ofWritten_congr {values values' : Text → List Json} (h : ∀ name ∈ settingNames, values name = values' name)
    (g : Given) : Given.ofWritten values g = Given.ofWritten values' g := by
  simp only [settingNames, List.forall_mem_cons] at h
  simp only [Given.ofWritten, h]

/-- Fields give what the values written for each setting give. -/
theorem foldlM_add_eq_ofWritten (fields : List (Text × Json)) (g : Given) :
    fields.foldlM Given.add g = Given.ofWritten (written fields) g := by
  induction fields generalizing g with
  | nil => rfl
  | cons field fields ih =>
    obtain ⟨key, value⟩ := field
    have hwritten : written ((key, value) :: fields) =
        fun name => (if settingName key = name then [value] else []) ++ written fields name := funext (written_cons key value fields)
    rw [List.foldlM_cons, Given.add_eq_ofWritten, hwritten, Given.ofWritten_append]
    exact congrArg _ (funext ih)

theorem ofFields?_eq (fields : List (Text × Json)) (table : List Gherkin.Language) :
    ofFields? fields table = Given.ofWritten (written fields) {} >>= Given.check table := by
  rw [ofFields?, foldlM_add_eq_ofWritten]

/-! ## Settings up to the order of fields -/

/-- What is given for each setting is the same up to the order of fields. -/
structure Given.SameValues (g h : Given) : Prop where
  steps : Option.Rel Same g.steps h.steps
  sync : Option.Rel Same g.sync h.sync
  strictCompletion : Option.Rel Same g.strictCompletion h.strictCompletion
  strictValidation : Option.Rel Same g.strictValidation h.strictValidation
  smartSnippets : Option.Rel Same g.smartSnippets h.smartSnippets
  expandAlternatives : Option.Rel Same g.expandAlternatives h.expandAlternatives
  pureText : Option.Rel Same g.pureText h.pureText
  customParameters : g.customParameters = h.customParameters
  definitionKeyword : Option.Rel Same g.definitionKeyword h.definitionKeyword
  openingSymbol : Option.Rel Same g.openingSymbol h.openingSymbol
  languages : Option.Rel Same g.languages h.languages

/-- Settings that agree up to the order of the globs and of the languages, and of the fields of switches. -/
structure Agree (s t : Settings) : Prop where
  steps : s.steps.Perm t.steps
  sync : s.sync = t.sync
  strictCompletion : Same s.strictCompletion t.strictCompletion
  strictValidation : Same s.strictValidation t.strictValidation
  smartSnippets : Same s.smartSnippets t.smartSnippets
  expandAlternatives : Same s.expandAlternatives t.expandAlternatives
  pureText : Same s.pureText t.pureText
  customParameters : s.customParameters = t.customParameters
  definitionKeyword : s.definitionKeyword = t.definitionKeyword
  openingSymbol : s.openingSymbol = t.openingSymbol
  languages : s.languages.Perm t.languages

/-- Which switches are on. -/
def switches (s : Settings) : List Bool :=
  [s.strictCompletion, s.strictValidation, s.smartSnippets, s.expandAlternatives, s.pureText].map Json.isSet

/-- Settings that agree have the same switches on. -/
theorem Agree.switches_eq {s t : Settings} (h : s.Agree t) : s.switches = t.switches := by
  simp only [switches, List.map_cons, List.map_nil, h.strictCompletion.isSet_eq, h.strictValidation.isSet_eq, h.smartSnippets.isSet_eq,
    h.expandAlternatives.isSet_eq, h.pureText.isSet_eq]

theorem rel_getLast? {α β : Type} {R : α → β → Prop} {xs : List α} {ys : List β} (h : List.Forall₂ R xs ys) :
    Option.Rel R xs.getLast? ys.getLast? := by
  induction h with
  | nil => exact .none
  | @cons x y xs ys hxy _ ih =>
    rw [List.getLast?_cons, List.getLast?_cons]
    generalize xs.getLast? = v, ys.getLast? = w at ih ⊢
    cases ih with
    | none => exact .some hxy
    | some hlast => exact .some hlast

/-- The same values, written for each setting, give the same. -/
theorem alike_ofWritten {values values' : Text → List Json}
    (h : ∀ name ∈ settingNames, List.Forall₂ Same (values name) (values' name)) :
    Alike (fun g g' => g.SameValues g' ∧ (g.steps = (values (of "steps")).getLast? ∧ g'.steps = (values' (of "steps")).getLast?) ∧
        g.languages = (values (of "gherkinLanguages")).getLast? ∧ g'.languages = (values' (of "gherkinLanguages")).getLast?)
      (Given.ofWritten values {}) (Given.ofWritten values' {}) := by
  have hparameters := mapM_congr_same (fun _ _ => readParameters_congr_same) (h (of "customParameters") (by decide))
  have hlast : ∀ name ∈ settingNames, Option.Rel Same (values name).getLast? (values' name).getLast? :=
    fun name hname => rel_getLast? (h name hname)
  unfold Given.ofWritten
  simp only [Option.or_none]
  rw [hparameters]
  cases (values' (of "customParameters")).mapM readParameters with
  | error e => exact .error rfl
  | ok parameters =>
    refine .ok ⟨?_, ⟨rfl, rfl⟩, rfl, rfl⟩
    constructor
    all_goals first | rfl | exact hlast _ (by decide)

theorem same_getD {v w : Option Json} {d : Json} (hd : Same d d) (h : Option.Rel Same v w) : Same (v.getD d) (w.getD d) := by
  cases h with
  | none => exact hd
  | some h => exact h

theorem keys_getD {v w : Option Json} {d : Json} (h : v.map Json.keys = w.map Json.keys) : (v.getD d).keys = (w.getD d).keys := by
  cases v <;> cases w <;> simp_all

/-- A setting that is read without regard to the order of fields, or its default. -/
theorem orDefault_congr_same {α : Type} {default : α} {read : Json → Except Error α} (hread : ∀ x y, Same x y → read x = read y)
    {v w : Option Json} (h : Option.Rel Same v w) : orDefault default read v = orDefault default read w := by
  cases h with
  | none => rfl
  | some h => exact hread _ _ h

/-- A setting that is read element by element, or its default: only the order of elements is open, and not even that if the keys of
objects stand in one order. -/
theorem alike_orDefault_listed {α : Type} {default : List α} {f : Json → Except Error α} {k : Error.Kind}
    (hf : ∀ x y, Same x y → Alike Eq (f x) (f y)) (hk : ∀ s e, f (.string s) = .error e → e.kind = k) {v w : Option Json}
    (h : Option.Rel Same v w) :
    Alike (fun as bs => as.Perm bs ∧ (v.map Json.keys = w.map Json.keys → as = bs))
      (orDefault default (fun value => listed value >>= fun items => items.mapM f) v)
      (orDefault default (fun value => listed value >>= fun items => items.mapM f) w) := by
  cases h with
  | none => exact .ok ⟨.refl default, fun _ => rfl⟩
  | some h => exact (alike_listed hf hk h).imp fun as bs hread => ⟨hread.1, fun hkeys => hread.2 (Option.some.inj hkeys)⟩

/-- Settings that are given by the same values. -/
theorem alike_check (table : List Gherkin.Language) {g h : Given} (hgh : g.SameValues h) :
    Alike (fun s t => s.Agree t ∧ (g.steps.map Json.keys = h.steps.map Json.keys → s.steps = t.steps) ∧
        (g.languages.map Json.keys = h.languages.map Json.keys → s.languages = t.languages))
      (g.check table) (h.check table) := by
  have hglob : ∀ s e, readGlob (.string s) = .error e → e.kind = .value := by
    intro s e he
    simp only [readGlob] at he
    split at he <;> cases he
    rfl
  have hlanguage : ∀ s e, readLanguage table (.string s) = .error e → e.kind = .value := by
    intro s e he
    simp only [readLanguage] at he
    split at he <;> cases he
    rfl
  unfold Given.check
  refine (alike_orDefault_listed alike_readGlob hglob hgh.steps).bind fun steps steps' hsteps => ?_
  rw [orDefault_congr_same readSync_congr_same hgh.sync]
  refine (Alike.refl (R := Eq) (fun _ => rfl) _).bind fun sync sync' hsync => ?_
  rw [orDefault_congr_same (readOverride_congr_same _) hgh.definitionKeyword]
  refine (Alike.refl (R := Eq) (fun _ => rfl) _).bind fun keyword keyword' hkeyword => ?_
  rw [orDefault_congr_same (readOverride_congr_same _) hgh.openingSymbol]
  refine (Alike.refl (R := Eq) (fun _ => rfl) _).bind fun symbol symbol' hsymbol => ?_
  have hcodes : Same defaultLanguages defaultLanguages := .array (.cons (.string _) .nil)
  refine (alike_listed (alike_readLanguage table) hlanguage (same_getD hcodes hgh.languages)).bind fun ls ls' hls => ?_
  refine .ok ⟨?_, hsteps.2, fun hkeys => hls.2 (keys_getD hkeys)⟩
  exact {
    steps := hsteps.1, sync := hsync, definitionKeyword := hkeyword, openingSymbol := hsymbol, languages := hls.1
    strictCompletion := same_getD (.bool false) hgh.strictCompletion
    strictValidation := same_getD (.bool false) hgh.strictValidation
    smartSnippets := same_getD (.bool false) hgh.smartSnippets
    expandAlternatives := same_getD (.bool false) hgh.expandAlternatives
    pureText := same_getD (.bool false) hgh.pureText
    customParameters := congrArg (·.getD []) hgh.customParameters }

end Settings
end StepCatalog
