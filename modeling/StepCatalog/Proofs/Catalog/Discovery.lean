import StepCatalog.Proofs.Body.Phrase
import StepCatalog.Proofs.Body.PureText
import StepCatalog.Proofs.Catalog.Failure
import StepCatalog.Proofs.Definition.Written
import StepCatalog.Proofs.Gherkin.Words
import StepCatalog.Proofs.Source.Clearing

/-!
# What is written is found

A step file that consists of calls, one in a line, has no comments, so that it is read line by line (`splitLines_of_calls`), and each
line gives the definition that was written there (`definitionsIn_of_calls`). Where bodies are pure text, each definition gives one
step, which is found by the body and by no other text (`compile_plain`). So a build registers the first call of every body.

Main statement: `build_finds_calls`.
-/

namespace StepCatalog

open Text (of)

/-! ## Texts without comments -/

namespace Source

/-- Without a slash there are no block comments. -/
theorem clearBlocks_of_no_slash {s : Text} (h : '/' ∉ s) : clearBlocks s = s := by
  have hmarks : marksFrom 0 s = s.map (·, false) := by
    induction s with
    | nil => rfl
    | cons c s ih =>
      rw [List.mem_cons, not_or] at h
      have hnone : blockComment none (c :: s) = none := by
        unfold blockComment
        split
        · rename_i heq
          exact absurd (List.cons.inj heq).1.symm h.1
        · rfl
      rw [marksFrom, hnone]
      dsimp only
      rw [ih h.2]
      rfl
  have hkept : ∀ c : Char, cleared (c, false) = some c := fun c => rfl
  rw [clearBlocks_eq, hmarks, List.filterMap_map]
  simp [hkept]

/-- Lines that are no comments stay. -/
theorem collapse_of_no_comment {lines : List Text} (h : ∀ line ∈ lines, isLineComment line = false) : collapse lines = lines := by
  have hahead : ∀ lines : List Text, (∀ line ∈ lines, isLineComment line = false) → commentAhead lines = false := by
    intro lines h
    induction lines with
    | nil => rfl
    | cons line rest ih =>
      rw [List.forall_mem_cons] at h
      rw [commentAhead]
      split
      · exact ih h.2
      · exact h.1
  induction lines with
  | nil => rfl
  | cons line rest ih =>
    rw [List.forall_mem_cons] at h
    rw [collapse, hahead rest h.2, Bool.and_false, if_neg Bool.false_ne_true, ih h.2, blankComment, h.1, if_neg Bool.false_ne_true]

/-- A line that holds no mark of a comment and no end of a line. -/
structure Plain (line : Text) : Prop where
  no_slash : '/' ∉ line
  no_newline : '\n' ∉ line
  no_return : Text.dropReturn line = line
  no_comment : isLineComment line = false

theorem plain_nil : Plain [] := ⟨by simp, by simp, rfl, rfl⟩

/-- Plain lines are read as they are written. -/
theorem splitLines_of_plain {lines : List Text} (hne : lines ≠ []) (h : ∀ line ∈ lines, Plain line) :
    splitLines (clearComments (Text.join ['\n'] lines)) = lines := by
  have hslash : '/' ∉ Text.join ['\n'] lines := by
    intro hmem
    rcases Text.mem_join hmem with hsep | ⟨line, hline, hmem⟩
    · simp at hsep
    · exact (h line hline).no_slash hmem
  have hparts := Text.splitOn_join (fun line hline => (h line hline).no_newline) hne
  have hreturn : ∀ lines : List Text, (∀ line ∈ lines, Plain line) → Text.linesOf lines = lines := by
    intro lines h
    fun_induction Text.linesOf lines with
    | case1 part next rest ih =>
      rw [List.forall_mem_cons] at h
      rw [h.1.no_return, ih h.2]
    | case2 parts => rfl
  have hcleared : Text.splitOn '\n' (clearComments (Text.join ['\n'] lines)) = lines := by
    have hlines := splitOn_clearLines (clearBlocks (Text.join ['\n'] lines)) none (.inl rfl)
    rw [clearBlocks_of_no_slash hslash, hparts, collapse_of_no_comment fun line hline => (h line hline).no_comment] at hlines
    have hclear : clearComments (Text.join ['\n'] lines) = clearLines none (clearBlocks (Text.join ['\n'] lines)) := rfl
    rw [hclear, clearBlocks_of_no_slash hslash, hlines]
  rw [Text.splitLines_eq, hcleared, hreturn lines h]

end Source

/-! ## Bodies that stand for themselves -/

namespace Body

theorem text_of_compile {kind : Kind} {body : Text} {c : Compiled} (h : compile kind body = .ok c) : c.text = kind.display body := by
  unfold compile at h
  cases hfull : fullPattern kind body with
  | error e => simp [hfull, bind, Except.bind] at h
  | ok full =>
    cases hleading : leadingPattern? kind body with
    | error e => simp [hfull, hleading, bind, Except.bind] at h
    | ok leading =>
      simp only [hfull, hleading, bind, Except.bind, pure, Except.pure, Except.ok.injEq] at h
      rw [← h]

/-- The characters that stand for themselves in the body of a call. -/
def isBodyChar (c : Char) : Bool := c != nul && !(of "'/(\x7b#\n").contains c

theorem ne_of_isBodyChar {c x : Char} (hc : isBodyChar c = true) (hx : isBodyChar x = false) : c ≠ x := by
  rintro rfl
  rw [hc] at hx
  cases hx

theorem not_mem_of_isBodyChar {body : Text} (h : ∀ c ∈ body, isBodyChar c = true) {x : Char} (hx : isBodyChar x = false) :
    x ∉ body := fun hmem => ne_of_isBodyChar (h x hmem) hx rfl

/-- No rule finds a parameter in such a body. -/
theorem hits_eq_nil {body : Text} (h : ∀ c ∈ body, isBodyChar c = true) {rule : Rule} (hrule : rule ∈ parameterRules) :
    Piece.hits (pieces rule body) = [] := by
  by_cases ho : rule = optionalText
  · rw [ho]
    have hparen : ∀ c ∈ body, c ≠ '(' := fun c hc => ne_of_isBodyChar (h c hc) (by decide)
    have hquiet := Quiet.skip hparen (quiet_nil optionalText)
    rw [List.append_nil] at hquiet
    exact hquiet none
  · refine quiet_of_plain hrule ho (fun c hc => ?_) none
    have hne : ∀ x, isBodyChar x = false → c ≠ x := fun x hx => ne_of_isBodyChar (h c hc) hx
    exact ⟨hne '#' (by decide), hne '\x7b' (by decide), hne '/' (by decide)⟩

/-- As pure text, such a body compiles, and its full pattern is found in no other line. -/
theorem compile_plain {body : Text} (h : ∀ c ∈ body, isBodyChar c = true) :
    ∃ c, compile .pureText body = .ok c ∧ c.text = body ∧ ∀ t, '\n' ∉ t → (c.full.occursIn t = true ↔ t = body) := by
  have hnul : nul ∉ body := not_mem_of_isBodyChar h (by decide)
  obtain ⟨c, hc, -, hfull, -⟩ := compile_pureText hnul
  refine ⟨c, hc, text_of_compile hc, fun t ht => ?_⟩
  rw [hfull t, exists_between_anchors_iff, tokens_of_hits_nil hnul fun rule hrule => hits_eq_nil h hrule]
  simp only [spelling_chars]
  constructor
  · rintro (heq | ⟨w, rfl, -⟩)
    · exact heq
    · exact absurd (by simp) ht
  · exact .inl

end Body

namespace Catalog

open Definition (Call)

/-! ## Files of calls -/

/-- A call that can be written with the keywords of languages, and whose body stands for itself. -/
structure Writable (ls : List Gherkin.Language) (c : Call) : Prop where
  keyword_mem : c.keyword ∈ Gherkin.stepKeywords ls
  body_plain : ∀ x ∈ c.body, Body.isBodyChar x = true

/-- A text that consists of the lines of calls, with or without a line feed at its end. -/
def Consists (calls : List Call) (content : Text) : Prop :=
  content = Text.join ['\n'] (calls.map Call.line) ∨ content = calls.flatMap fun c => c.line ++ ['\n']

/-- The lines of such a text: those of the calls, and perhaps an empty one. -/
theorem Consists.lines {calls : List Call} {content : Text} (h : Consists calls content) :
    ∃ tail, (tail = [] ∨ tail = [[]]) ∧ calls.map Call.line ++ tail ≠ [] ∧
      content = Text.join ['\n'] (calls.map Call.line ++ tail) := by
  rcases h with rfl | rfl
  · cases calls with
    | nil => exact ⟨[[]], .inr rfl, by simp, rfl⟩
    | cons c calls => exact ⟨[], .inl rfl, by simp, by rw [List.append_nil]⟩
  · refine ⟨[[]], .inr rfl, by simp, ?_⟩
    induction calls with
    | nil => rfl
    | cons c calls ih =>
      rw [List.flatMap_cons, ih, List.map_cons, List.cons_append, Text.join_cons (by simp), List.append_assoc]

/-- The line of a call is no comment. -/
theorem Writable.plain_line {ls : List Gherkin.Language} (hls : Gherkin.Unmarked ls) {c : Call} (h : Writable ls c) :
    Source.Plain c.line := by
  obtain ⟨hmarkup, hsign⟩ := hls c.keyword h.keyword_mem
  obtain ⟨k, rest, hk, hblank⟩ := Gherkin.exists_of_mem_stepKeywords h.keyword_mem
  have hline : c.line = k :: (rest ++ '(' :: '\'' :: (c.body ++ '\'' :: ',' :: of " function () \x7b")) := by
    rw [Call.line, hk]
    rfl
  have hparts : c.line = c.keyword ++ (of "('" ++ (c.body ++ of "', function () \x7b")) := rfl
  have hnot : ∀ x ∈ Gherkin.markup, Body.isBodyChar x = false → x ∉ of "('" → x ∉ of "', function () \x7b" → x ∉ c.line := by
    intro x hx hbody hopening hrest
    have hx' := Body.not_mem_of_isBodyChar h.body_plain hbody
    simp only [hparts, List.mem_append, not_or]
    exact ⟨hmarkup x hx, hopening, hx', hrest⟩
  have hslash : '/' ≠ k := by
    rintro rfl
    exact hmarkup '/' (by decide) (by rw [hk]; simp)
  have hsign : '#' ≠ k := by
    rintro rfl
    exact hsign (by rw [hk]; rfl)
  refine ⟨hnot '/' (by decide) (by decide) (by decide) (by decide), hnot '\n' (by decide) (by decide) (by decide) (by decide), ?_, ?_⟩
  · have hlast : c.line.getLast? = some '\x7b' := by
      have hrest : (of "', function () \x7b").getLast? = some '\x7b' := by decide
      rw [hparts, List.getLast?_append, List.getLast?_append, List.getLast?_append, hrest]
      rfl
    rw [Text.dropReturn, hlast, if_neg (by decide)]
  · rw [hline, Source.isLineComment, List.dropWhile_cons_of_neg (by rw [hblank]; exact Bool.false_ne_true)]
    simp [Source.beginsComment, Text.startsWith, Text.after?, hslash, hsign]

/-- Where a definition is found in the line of each call, those are the definitions. -/
theorem definitionsFrom_of_calls {rule : Definition.Rule} {calls : List Call}
    (hcalls : ∀ c ∈ calls, rule.find? c.line = some c.found) {tail : List Text} (htail : ∀ i, definitionsFrom rule i tail = []) :
    ∀ i, definitionsFrom rule i (calls.map Call.line ++ tail) = (calls.zipIdx i).map fun (c, j) => ⟨j, c.line, c.found⟩ := by
  induction calls with
  | nil => exact htail
  | cons c calls ih =>
    intro i
    rw [List.forall_mem_cons] at hcalls
    have hfirst : ∀ next, definitionAt rule c.line next = some (c.line, c.found) := by
      intro next
      unfold definitionAt
      rw [hcalls.1]
    rw [List.map_cons, List.cons_append, definitionsFrom, hfirst]
    dsimp only
    rw [ih hcalls.2 (i + 1), List.zipIdx_cons, List.map_cons]

/-- The definition of a call at a line. -/
def locate (a : Call × Nat) : Located := ⟨a.2, a.1.line, a.1.found⟩

/-- A file of calls has the definitions that were written in it, line by line. -/
theorem definitionsIn_of_calls {s : Settings} (hparameters : s.customParameters = []) {ls : List Gherkin.Language}
    (hls : Gherkin.Unmarked ls) {calls : List Call} (hcalls : ∀ c ∈ calls, Writable ls c) {content : Text}
    (h : Consists calls content) : definitionsIn s (.ofLanguages ls) content = calls.zipIdx.map locate := by
  obtain ⟨tail, htail, hne, rfl⟩ := h.lines
  have hplain : ∀ line ∈ calls.map Call.line ++ tail, Source.Plain line := by
    intro line hline
    rcases List.mem_append.1 hline with hline | hline
    · obtain ⟨c, hc, rfl⟩ := List.mem_map.1 hline
      exact (hcalls c hc).plain_line hls
    · rcases htail with rfl | rfl
      · cases hline
      · rw [List.mem_singleton.1 hline]
        exact Source.plain_nil
  have hwords : ∀ w ∈ Definition.declaringWords ls, '(' ∉ w := by
    intro w hw
    rcases Definition.mem_declaringWords.1 hw with hw | ⟨-, rfl⟩ | hw
    · exact (hls w hw).1 '(' (by decide)
    · exact List.not_mem_nil
    · have hgeneric : ∀ w ∈ Definition.genericWords, '(' ∉ w := by decide
      exact hgeneric w hw
  have hfind : ∀ c ∈ calls, (Definition.Rule.ofLanguages ls).find? c.line = some c.found := by
    intro c hc
    refine Call.find?_line hwords (Definition.mem_declaringWords.2 (.inl (hcalls c hc).keyword_mem)) ?_
    exact Body.not_mem_of_isBodyChar (hcalls c hc).body_plain (by decide)
  have hlast : ∀ i, definitionsFrom (.ofLanguages ls) i tail = [] := by
    intro i
    rcases htail with rfl | rfl
    · rfl
    · have hnone : definitionAt (.ofLanguages ls) [] none = none := by
        unfold definitionAt
        rw [Definition.find?_nil]
      rw [definitionsFrom, List.head?_nil, hnone]
      rfl
  have hparameters' : Definition.applyParameters s.customParameters = id := by
    rw [hparameters]
    rfl
  rw [definitionsIn, sourceLines, Source.splitLines_of_plain hne hplain, hparameters', List.map_id]
  exact definitionsFrom_of_calls hfind hlast 0

/-! ## First calls -/

/-- The calls that are the first with their body, each with its number. -/
def firstCalls (calls : List Call) : List (Call × Nat) :=
  calls.zipIdx.filter fun (c, i) => (calls.take i).all (·.body != c.body)

theorem mem_of_mem_firstCalls {calls : List Call} {a : Call × Nat} (h : a ∈ firstCalls calls) : a.1 ∈ calls :=
  List.mem_of_getElem? (List.mem_zipIdx_iff_getElem?.1 (List.mem_filter.1 h).1)

/-- Every body has a first call. -/
theorem exists_firstCall {calls : List Call} {c : Call} (hc : c ∈ calls) : ∃ a ∈ firstCalls calls, a.1.body = c.body := by
  have hindex : ∀ (i : Nat) (c : Call), calls[i]? = some c → ∃ a ∈ firstCalls calls, a.1.body = c.body := by
    intro i
    induction i using Nat.strongRecOn with
    | ind i ih =>
      intro c hc
      by_cases hfirst : (calls.take i).all (·.body != c.body) = true
      · exact ⟨(c, i), List.mem_filter.2 ⟨List.mem_zipIdx_iff_getElem?.2 hc, hfirst⟩, rfl⟩
      · obtain ⟨d, hd, heq⟩ : ∃ d ∈ calls.take i, d.body = c.body := by simpa using hfirst
        obtain ⟨j, hj⟩ := List.mem_iff_getElem?.1 hd
        have hlt : j < i := by
          have hbound := (List.getElem?_eq_some_iff.1 hj).1
          rw [List.length_take] at hbound
          omega
        rw [List.getElem?_take_of_lt hlt] at hj
        rw [← heq]
        exact ih j hlt d hj
  obtain ⟨i, hi⟩ := List.mem_iff_getElem?.1 hc
  exact hindex i c hi

theorem zipIdx_map_zipIdx {α β : Type} (g : α × Nat → β) (xs : List α) :
    ∀ k, ((xs.zipIdx k).map g).zipIdx k = (xs.zipIdx k).map fun a => (g a, a.2) := by
  induction xs with
  | nil => exact fun k => rfl
  | cons x xs ih =>
    intro k
    rw [List.zipIdx_cons, List.map_cons, List.zipIdx_cons, ih (k + 1), List.map_cons]

/-- Where different bodies have different identifiers, the first steps of calls are those of the first calls. -/
theorem firstOccurrences_of_calls {calls : List Call} {g : Call × Nat → Step} (hg : ∀ a ∈ calls.zipIdx, (g a).id = stepId a.1.body)
    (hids : ∀ c ∈ calls, ∀ d ∈ calls, stepId c.body = stepId d.body → c.body = d.body) :
    firstOccurrences (calls.zipIdx.map g) = (firstCalls calls).map g := by
  unfold firstOccurrences firstCalls
  rw [zipIdx_map_zipIdx, List.filter_map, List.map_map]
  show ((calls.zipIdx.filter _).map g) = _
  congr 1
  refine List.filter_congr fun a ha => ?_
  obtain ⟨c, i⟩ := a
  have hc : c ∈ calls := List.mem_of_getElem? (List.mem_zipIdx_iff_getElem?.1 ha)
  have htake : (calls.zipIdx.map g).take i = (calls.zipIdx.take i).map g := List.map_take.symm
  have hcalls : (calls.zipIdx.take i).map (·.1) = calls.take i := by
    rw [List.map_take, List.zipIdx_map_fst]
  rw [Function.comp_apply]
  dsimp only
  rw [htake, ← hcalls, List.all_map, List.all_map, Bool.eq_iff_iff, List.all_eq_true, List.all_eq_true]
  refine forall₂_congr fun b hb => ?_
  have hb' : b ∈ calls.zipIdx := List.mem_of_mem_take hb
  have hd : b.1 ∈ calls := List.mem_of_getElem? (List.mem_zipIdx_iff_getElem?.1 hb')
  rw [Function.comp_apply, Function.comp_apply, bne_iff_ne, bne_iff_ne, hg b hb', hg (c, i) ha]
  exact not_congr ⟨hids b.1 hd c hc, congrArg stepId⟩

/-! ## Steps of calls -/

/-- A definition whose body compiles gives one step and does not end the scan, unless alternatives are expanded. -/
theorem listed_of_compile {s : Settings} (hexpand : s.expandAlternatives.isSet = false) {a : Call × Nat} {compiled : Body.Compiled}
    (h : Body.compile (bodyKind s) a.1.body = .ok compiled) (uri : Text) (d : Documentation) :
    (locate a).aborts s = false ∧ (locate a).listed s uri d (fun _ => true) =
      [(locate a).step uri (d.of (locate a)) (Gherkin.definitionTypeOf s.languages a.1.keyword) compiled] := by
  have hbodies : bodiesOf s a.1.body = [a.1.body] := by
    rw [bodiesOf, hexpand]
    rfl
  have hkeyword : (locate a).found.keyword? = some a.1.keyword := rfl
  have hbody : (locate a).found.body? = some a.1.body := rfl
  constructor
  · simp only [Located.aborts, hkeyword, hbody, hbodies, abortsBody, h, List.any_cons, List.any_nil, Bool.or_false]
  · simp [Located.listed, hkeyword, hbody, hbodies, bodySteps, h, Except.toOption]

/-- The steps of a file whose definitions are those of calls with bodies that compile. -/
theorem listedSteps_of_calls {s : Settings} (hexpand : s.expandAlternatives.isSet = false) {rule : Definition.Rule} {w : Workspace}
    {file : Path} (hzero : file.holdsZero = false) {content : Text} (hread : w.read file = .ok content) {calls : List Call}
    (hdefinitions : definitionsIn s rule content = calls.zipIdx.map locate) {k : Call → Body.Compiled}
    (hk : ∀ c ∈ calls, Body.compile (bodyKind s) c.body = .ok (k c)) :
    Scannable s rule w file ∧ listedSteps s rule w (fun _ _ _ => true) file = calls.zipIdx.map fun a =>
      (locate a).step file.toUri ((documentationIn file content).of (locate a)) (Gherkin.definitionTypeOf s.languages a.1.keyword)
        (k a.1) := by
  have hlisted : ∀ a ∈ calls.zipIdx, _ := fun a ha =>
    listed_of_compile hexpand (hk a.1 (List.mem_of_getElem? (List.mem_zipIdx_iff_getElem?.1 ha))) file.toUri
      (documentationIn file content)
  refine ⟨⟨hzero, ?_⟩, ?_⟩
  · rw [definitionsOf, hread]
    dsimp only
    rw [hdefinitions, List.forall_mem_map]
    exact fun a ha => (hlisted a ha).1
  · rw [listedSteps, hread]
    dsimp only
    rw [hdefinitions, List.flatMap_map, List.map_eq_flatMap]
    exact List.flatMap_congr fun a ha => (hlisted a ha).2

namespace Registry

/-- Among steps each of which is found by its text and by no other line, a text finds the step that it is the text of. -/
theorem findByText_of_plain {r : Registry} (h : ∀ x ∈ r.steps, ∀ t, '\n' ∉ t → (x.full.occursIn t = true ↔ t = x.text)) {t : Text}
    (ht : '\n' ∉ t) :
    (∀ x ∈ r.steps, x.text = t → ∃ y ∈ r.steps, y.text = t ∧ r.findByText t none = some y) ∧
    ((∀ x ∈ r.steps, x.text ≠ t) → r.findByText t none = none) := by
  have hpred : r.findByText t none = r.steps.find? fun x => x.full.occursIn t := rfl
  rw [hpred]
  constructor
  · intro x hx hxt
    cases hfind : r.steps.find? fun x => x.full.occursIn t with
    | none =>
      have hnone := List.find?_eq_none.1 hfind x hx
      exact absurd ((h x hx t ht).2 hxt.symm) hnone
    | some y =>
      have hy := List.mem_of_find?_eq_some hfind
      have hfull : y.full.occursIn t = true := List.find?_some (p := fun x : Step => x.full.occursIn t) hfind
      exact ⟨y, hy, ((h y hy t ht).1 hfull).symm, rfl⟩
  · intro hnone
    rw [List.find?_eq_none]
    intro x hx hfull
    exact hnone x hx ((h x hx t ht).1 hfull).symm

/-- Steps of the first calls are found by the bodies of calls, and by no other line. -/
theorem findByText_of_calls {r : Registry} {calls : List Call} (hcalls : ∀ c ∈ calls, '\n' ∉ c.body) {g : Call × Nat → Step}
    (hsteps : r.steps = (firstCalls calls).map g) (htext : ∀ a ∈ firstCalls calls, (g a).text = a.1.body)
    (hfull : ∀ a ∈ firstCalls calls, ∀ t, '\n' ∉ t → ((g a).full.occursIn t = true ↔ t = a.1.body)) :
    (∀ c ∈ calls, ∃ x ∈ r.steps, x.text = c.body ∧ r.findByText c.body none = some x) ∧
    ∀ t, '\n' ∉ t → (∀ c ∈ calls, c.body ≠ t) → r.findByText t none = none := by
  have hplain : ∀ x ∈ r.steps, ∀ t, '\n' ∉ t → (x.full.occursIn t = true ↔ t = x.text) := by
    rw [hsteps, List.forall_mem_map]
    intro a ha t ht
    rw [htext a ha]
    exact hfull a ha t ht
  constructor
  · intro c hc
    obtain ⟨a, ha, hbody⟩ := exists_firstCall hc
    have hmem : g a ∈ r.steps := by
      rw [hsteps]
      exact List.mem_map_of_mem ha
    exact (findByText_of_plain hplain (hcalls c hc)).1 (g a) hmem ((htext a ha).trans hbody)
  · intro t ht hnone
    refine (findByText_of_plain hplain ht).2 ?_
    rw [hsteps, List.forall_mem_map]
    intro a ha heq
    exact hnone a.1 (mem_of_mem_firstCalls ha) ((htext a ha).symm.trans heq)

/-- A build over globs that find one file registers the first steps of the file. -/
theorem build_of_file {r : Registry} {w : Workspace} {root file : Path} {globs : List Text}
    (hglobs : ∀ glob ∈ globs, ∃ files, w.findFiles root glob = .ok files) (hfile : globFiles w root globs = [file])
    (hscannable : Scannable r.settings r.rule w file) :
    (r.build w root globs).result =
      .ok (r.withSteps (firstOccurrences (listedSteps r.settings r.rule w (fun _ _ _ => true) file))) := by
  refine build_result_eq_ok.2 ⟨fun glob hglob => ?_, ?_⟩
  · obtain ⟨files, hfiles⟩ := hglobs glob hglob
    refine ⟨files, hfiles, fun found hfound => ?_⟩
    have hmem : found ∈ globFiles w root globs := List.mem_flatMap.2 ⟨glob, hglob, by rw [hfiles]; exact hfound⟩
    rw [hfile, List.mem_singleton] at hmem
    rw [hmem]
    exact hscannable
  · rw [hfile, List.flatMap_singleton]

/-- Where bodies are pure text and languages unmarked, as those of the table are, a build over a file of calls completes and registers
the first call of every body, in order, with its line and the category of its keyword. Each body finds its step, and no other line
finds a step. -/
theorem build_finds_calls (ls : List Gherkin.Language) (hls : Gherkin.Unmarked ls) (on : Json) (hon : on.isSet = true)
    (r : Registry) (hr : Reachable { languages := ls, pureText := on } r) (calls : List Call)
    (hcalls : ∀ c ∈ calls, Writable ls c)
    (hids : ∀ c ∈ calls, ∀ d ∈ calls, stepId c.body = stepId d.body → c.body = d.body)
    (w : Workspace) (root file : Path) (globs : List Text) (hglobs : ∀ glob ∈ globs, ∃ files, w.findFiles root glob = .ok files)
    (hfile : globFiles w root globs = [file]) (hzero : file.holdsZero = false) (content : Text) (hread : w.read file = .ok content)
    (hcontent : Consists calls content) :
    ∃ r', (r.build w root globs).result = .ok r' ∧
      r'.steps.map (fun x => (x.text, x.line, x.stepType)) =
        (firstCalls calls).map (fun (c, i) => (c.body, i, Gherkin.definitionTypeOf ls c.keyword)) ∧
      (∀ c ∈ calls, ∃ x ∈ r'.steps, x.text = c.body ∧ r'.findByText c.body none = some x) ∧
      ∀ t, '\n' ∉ t → (∀ c ∈ calls, c.body ≠ t) → r'.findByText t none = none := by
  obtain ⟨hsettings, hrule⟩ := hr.keeps_rule
  have hrule' : .ofLanguages ls = r.rule := Except.ok.inj hrule
  have hlanguages : r.settings.languages = ls := by rw [hsettings]
  have hkind : bodyKind r.settings = .pureText := by
    rw [hsettings, bodyKind]
    exact if_pos hon
  have hexpand : r.settings.expandAlternatives.isSet = false := by
    rw [hsettings]
    rfl
  have hne : Nonempty Body.Compiled := ⟨⟨[], ⟨[], .empty⟩, ⟨[], .empty⟩, false⟩⟩
  have hcompile : ∀ c ∈ calls, ∃ k : Body.Compiled, _ := fun c hc => Body.compile_plain (hcalls c hc).body_plain
  choose! k hk using hcompile
  have hdefinitions := definitionsIn_of_calls (s := r.settings) (by rw [hsettings]) hls hcalls hcontent
  rw [hrule'] at hdefinitions
  obtain ⟨hscannable, hlisted⟩ := listedSteps_of_calls hexpand hzero hread hdefinitions (k := k) fun c hc => by
    rw [hkind]
    exact (hk c hc).1
  -- the step of a call, and the step that the registry makes of it
  let g (a : Call × Nat) : Step :=
    (locate a).step file.toUri ((documentationIn file content).of (locate a)) (Gherkin.definitionTypeOf r.settings.languages a.1.keyword)
      (k a.1)
  have hfirsts : firstOccurrences (calls.zipIdx.map g) = (firstCalls calls).map g := by
    refine firstOccurrences_of_calls (fun a ha => ?_) hids
    exact congrArg stepId (hk a.1 (List.mem_of_getElem? (List.mem_zipIdx_iff_getElem?.1 ha))).2.1
  have hbuild := build_of_file hglobs hfile hscannable
  rw [hlisted, hfirsts] at hbuild
  have hsteps : (r.withSteps ((firstCalls calls).map g)).steps = (firstCalls calls).map fun a => r.recounted (g a) := by
    rw [withSteps, List.map_map]
    rfl
  have htext : ∀ a ∈ firstCalls calls, (r.recounted (g a)).text = a.1.body := fun a ha => (hk a.1 (mem_of_mem_firstCalls ha)).2.1
  have hfull : ∀ a ∈ firstCalls calls, ∀ t, '\n' ∉ t → ((r.recounted (g a)).full.occursIn t = true ↔ t = a.1.body) :=
    fun a ha => (hk a.1 (mem_of_mem_firstCalls ha)).2.2
  have hnewline : ∀ c ∈ calls, '\n' ∉ c.body := fun c hc => Body.not_mem_of_isBodyChar (hcalls c hc).body_plain (by decide)
  refine ⟨_, hbuild, ?_, findByText_of_calls hnewline hsteps htext hfull⟩
  rw [hsteps, List.map_map]
  refine List.map_congr_left fun a ha => ?_
  rw [Function.comp_apply, htext a ha, ← hlanguages]
  rfl

/-- Three calls, two of them with the same body. -/
theorem build_finds_calls_twice :
    let ls := Gherkin.languages.filter (·.code == "en")
    let s : Settings := { languages := ls, pureText := .bool true }
    let start : Registry := { settings := s, rule := .ofLanguages ls }
    let calls : List Call := [⟨of "Given", of "a cat"⟩, ⟨of "When", of "it runs"⟩, ⟨of "But", of "a cat"⟩]
    let content := Text.join ['\n'] (calls.map Call.line)
    let w : Workspace := ⟨[([of "a.js"], .file (content.map fun c => c.toNat.toUInt8))]⟩
    Reachable s start ∧ w.read [of "a.js"] = .ok content ∧ ∃ r, (start.build w [] [of "*.js"]).result = .ok r ∧
      r.steps.map (fun x => (x.text, x.line, x.stepType)) = [(of "a cat", 0, .given), (of "it runs", 1, .action)] ∧
      (∃ x ∈ r.steps, x.text = of "it runs" ∧ r.findByText (of "it runs") none = some x) ∧
      r.findByText (of "a dog") none = none := by
  intro ls s start calls content w
  have hls : Gherkin.Unmarked ls := Gherkin.unmarked_of_languages fun l hl => (List.mem_filter.1 hl).1
  have hreach : Reachable s start := .start rfl
  have hcalls : ∀ c ∈ calls, Writable ls c := by
    have hkeywords : (calls.all fun c => ls.any fun l => Gherkin.StepType.ofKeywords.any fun t =>
        (l.words t).contains c.keyword) = true := by decide +kernel
    have hbodies : (calls.all fun c => c.body.all Body.isBodyChar) = true := by decide +kernel
    simp only [List.all_eq_true, List.any_eq_true, List.contains_iff_mem] at hkeywords hbodies
    exact fun c hc => ⟨Gherkin.mem_stepKeywords.2 (hkeywords c hc), hbodies c hc⟩
  have hids : ∀ c ∈ calls, ∀ d ∈ calls, stepId c.body = stepId d.body → c.body = d.body := by decide +kernel
  have hfiles : w.findFiles [] (of "*.js") = .ok [[of "a.js"]] := by decide +kernel
  have hread : w.read [of "a.js"] = .ok content := by decide +kernel
  have hfile : globFiles w [] [of "*.js"] = [[of "a.js"]] := by
    rw [globFiles, List.flatMap_singleton, hfiles]
    rfl
  obtain ⟨r, hbuild, hsteps, hfound, hother⟩ := build_finds_calls ls hls (.bool true) rfl start hreach calls hcalls hids w []
    [of "a.js"] [of "*.js"] (fun glob hglob => ⟨_, List.mem_singleton.1 hglob ▸ hfiles⟩) hfile (by decide) content hread (.inl rfl)
  refine ⟨hreach, hread, r, hbuild, hsteps.trans (by decide +kernel), hfound ⟨of "When", of "it runs"⟩ (by decide), ?_⟩
  exact hother (of "a dog") (by decide) (by decide)

end Registry

end Catalog

end StepCatalog
