import Mathlib.Data.List.Perm.Basic
import StepCatalog.Proofs.Catalog.Failure
import StepCatalog.Proofs.Editor.Insertion
import StepCatalog.Proofs.Editor.Ranking
import StepCatalog.Proofs.Traversal

/-!
# Completions in order

The steps that go on from what has been typed (`GoesOn`) are offered, the most used first and those of the same count by their texts
(`Precedes`). The texts of a registry are distinct, so that there is one way only to put its steps in this order
(`exists_ranking`, `complete_eq_ok_iff`): completions do not depend on the order in which the steps were found
(`complete_of_perm`), and asking for the category of a step only removes some of them (`complete_strict`).

Completion fails if there is no text to insert for a step that goes on, which cannot happen to a step with a harmless text.

Main statement: `complete_ranks_steps`.
-/

namespace StepCatalog.Editor

open Catalog
open Text (of)

/-! ## Elements in order -/

/-- What belongs to some elements of a list, in their order, is part of what belongs to all of them. -/
theorem forall₂_of_sublist {α β : Type} {R : α → β → Prop} {xs' xs : List α} (h : xs'.Sublist xs) :
    ∀ {ys : List β}, List.Forall₂ R xs ys → ∃ ys', ys'.Sublist ys ∧ List.Forall₂ R xs' ys' := by
  induction h with
  | slnil =>
    intro ys hys
    cases hys
    exact ⟨[], .slnil, .nil⟩
  | cons x _ ih =>
    intro ys hys
    cases hys with
    | cons _ hrest =>
      obtain ⟨ys', hsub, hys'⟩ := ih hrest
      exact ⟨ys', hsub.cons _, hys'⟩
  | cons_cons x _ ih =>
    intro ys hys
    cases hys with
    | cons hx hrest =>
      obtain ⟨ys', hsub, hys'⟩ := ih hrest
      exact ⟨_ :: ys', hsub.cons_cons _, .cons hx hys'⟩

/-! ## The order of steps -/

/-- The count of a step as far as it matters for the order. -/
def rankedCount (x : Step) : Nat := min x.count (26 ^ 5 - 1)

/-- A step stands before another one: it is used more often, or as often and its text is the earlier one. -/
def Precedes (x y : Step) : Prop := rankedCount y < rankedCount x ∨ rankedCount x = rankedCount y ∧ x.text < y.text

instance : DecidableRel Precedes := fun x y =>
  inferInstanceAs (Decidable (rankedCount y < rankedCount x ∨ rankedCount x = rankedCount y ∧ x.text < y.text))

/-- What the completion of a step is ordered by. -/
def stepKey (x : Step) : Text := sortKey sortWidth x.count ++ '_' :: x.text

theorem clampCount_sortWidth (x : Step) : clampCount sortWidth x.count = rankedCount x := by
  rw [clampCount, writable_eq_pow, Int.toNat_natCast]
  rfl

theorem stepKey_lt_iff (x y : Step) : stepKey x < stepKey y ↔ Precedes x y := by
  unfold stepKey Precedes
  rw [sortKey_append_lt_iff, clampCount_sortWidth, clampCount_sortWidth, List.cons_lt_cons_iff]
  simp

theorem text_eq_of_stepKey {x y : Step} (h : stepKey x = stepKey y) : x.text = y.text := by
  have hx : ¬Precedes x y := fun hlt => absurd ((stepKey_lt_iff x y).2 hlt) (h ▸ lt_irrefl _)
  have hy : ¬Precedes y x := fun hlt => absurd ((stepKey_lt_iff y x).2 hlt) (h ▸ lt_irrefl _)
  simp only [Precedes, not_or, not_and, not_lt] at hx hy
  have hcount : rankedCount x = rankedCount y := le_antisymm hx.1 hy.1
  exact le_antisymm (hy.2 hcount.symm) (hx.2 hcount)

/-- Sorting by keys puts them in order. -/
theorem pairwise_mergeSort_key {α : Type} (key : α → Text) (xs : List α) :
    (xs.mergeSort fun a b => (key a).le (key b)).Pairwise fun a b => key a ≤ key b := by
  have hpairwise : (xs.mergeSort fun a b => (key a).le (key b)).Pairwise fun a b => (key a).le (key b) = true := by
    refine List.pairwise_mergeSort ?_ ?_ xs
    · intro a b c
      simp only [Text.le_iff]
      exact le_trans
    · intro a b
      simp only [Bool.or_eq_true, Text.le_iff]
      exact le_total _ _
  exact hpairwise.imp fun hle => (Text.le_iff _ _).1 hle

/-- Sorting by keys gives the one list in which the keys rise. -/
theorem mergeSort_key_eq {α : Type} {key : α → Text} {xs ranked : List α} (hperm : ranked.Perm xs)
    (hranked : ranked.Pairwise fun a b => key a < key b) : (xs.mergeSort fun a b => (key a).le (key b)) = ranked := by
  have hsame := (List.mergeSort_perm xs fun a b => (key a).le (key b)).trans hperm.symm
  have hkeys : (ranked.map key).Nodup := List.pairwise_map.2 (hranked.imp ne_of_lt)
  refine List.Perm.eq_of_pairwise ?_ (pairwise_mergeSort_key key xs) (hranked.imp le_of_lt) hsame
  intro a b ha hb hab hba
  exact List.inj_on_of_nodup_map hkeys (hsame.mem_iff.1 ha) hb (le_antisymm hab hba)

/-- Steps with distinct texts can be put in order. -/
theorem exists_ranking {steps : List Step} (h : (steps.map (·.text)).Nodup) :
    ∃ ranked : List Step, ranked.Perm steps ∧ ranked.Pairwise Precedes := by
  have hperm := List.mergeSort_perm steps fun x y => (stepKey x).le (stepKey y)
  have hsorted := pairwise_mergeSort_key stepKey steps
  have hdistinct := List.pairwise_map.1 ((hperm.map (·.text)).nodup_iff.2 h)
  refine ⟨_, hperm, (hsorted.and hdistinct).imp ?_⟩
  rintro x y ⟨hle, hne⟩
  exact (stepKey_lt_iff x y).1 (lt_of_le_of_ne hle fun heq => hne (text_eq_of_stepKey heq))

/-! ## Completions of steps -/

/-- The completions of steps, each in the place of its step. -/
def Offers (style : InsertStyle) (typed : Text) : List Step → List Completion → Prop :=
  List.Forall₂ fun x item => offer style typed x = .ok item

theorem sortText_of_offer {style : InsertStyle} {typed : Text} {x : Step} {item : Completion}
    (h : offer style typed x = .ok item) : item.sortText = stepKey x := by
  unfold offer at h
  split at h
  · cases h
    rfl
  · cases h

/-- A step can be offered if there is a text to insert for it. -/
theorem exists_offer_iff {style : InsertStyle} {typed : Text} {x : Step} :
    (∃ item, offer style typed x = .ok item) ↔ ∃ t, insertText style x.text typed = .ok t := by
  unfold offer
  cases insertText style x.text typed with
  | ok t => simp
  | error e => simp

/-- Completions of steps in order are in the order of their keys. -/
theorem Offers.pairwise {style : InsertStyle} {typed : Text} {steps : List Step} {items : List Completion}
    (h : Offers style typed steps items) (hsteps : steps.Pairwise Precedes) :
    items.Pairwise fun a b => a.sortText < b.sortText := by
  have hkeys : items.map (·.sortText) = steps.map stepKey := by
    induction h with
    | nil => rfl
    | cons hx _ ih =>
      rw [List.map_cons, List.map_cons, sortText_of_offer hx, ih (List.pairwise_cons.1 hsteps).2]
  refine List.pairwise_map.1 ?_
  rw [hkeys, List.pairwise_map]
  exact hsteps.imp fun hlt => (stepKey_lt_iff _ _).2 hlt

/-! ## What completion answers -/

/-- A step goes on from what has been typed in a step line: its leading pattern is found in the text without the last word and, if
the settings are strict, it has the category of the line. -/
structure GoesOn (r : Registry) (l : Gherkin.StepLine) (lineNumber : Int) (document : List Text) (x : Step) : Prop where
  registered : x ∈ r.steps
  leads : x.leading.occursIn (withoutLastWord l.text) = true
  ofCategory : r.settings.strictCompletion.isSet = true →
    x.stepType = Gherkin.resolveType r.settings.languages l.keyword lineNumber document

/-- The steps that are offered for a step line, in the order in which they were found. -/
def offered (r : Registry) (l : Gherkin.StepLine) (lineNumber : Int) (document : List Text) : List Step :=
  candidates r (strictType r.settings.strictCompletion.isSet r l.keyword lineNumber document) (withoutLastWord l.text)

theorem mem_offered_iff {r : Registry} {l : Gherkin.StepLine} {lineNumber : Int} {document : List Text} {x : Step} :
    x ∈ offered r l lineNumber document ↔ GoesOn r l lineNumber document x := by
  unfold offered candidates strictType
  rw [List.mem_filter, Bool.and_eq_true]
  cases hstrict : r.settings.strictCompletion.isSet with
  | false => exact ⟨fun h => ⟨h.1, h.2.2, by simp [hstrict]⟩, fun h => ⟨h.registered, rfl, h.leads⟩⟩
  | true =>
    rw [if_pos rfl, Registry.isOfType, beq_iff_eq]
    exact ⟨fun h => ⟨h.1, h.2.2, fun _ => h.2.1⟩, fun h => ⟨h.registered, h.ofCategory hstrict, h.leads⟩⟩

/-- Completions as an answer: none at all, rather than an empty list of them. -/
def answer (items : List Completion) : Option (List Completion) := if items.isEmpty then none else some items

theorem complete_of_stepLine {r : Registry} {line : Text} {document : List Text} {lineNumber : Int} {l : Gherkin.StepLine}
    (h : r.stepLine? line document lineNumber = some l) :
    complete r line lineNumber document =
      ((offered r l lineNumber document).mapM (offer (insertStyle r.settings) (withoutLastWord l.text))).map fun items =>
        answer (items.mergeSort fun a b => a.sortText.le b.sortText) := by
  unfold complete
  rw [h]
  dsimp only
  rw [← offered]
  cases (offered r l lineNumber document).mapM (offer (insertStyle r.settings) (withoutLastWord l.text)) with
  | error e => rfl
  | ok items =>
    simp only [bind, Except.bind, Except.map]
    cases items.mergeSort fun a b => a.sortText.le b.sortText <;> rfl

/-- Completion of a step line answers with the completions of the steps that go on, put in order. -/
theorem complete_eq_ok_iff {r : Registry} (hr : (r.steps.map (·.text)).Nodup) {line : Text} {document : List Text}
    {lineNumber : Int} {l : Gherkin.StepLine} (hline : r.stepLine? line document lineNumber = some l)
    {o : Option (List Completion)} :
    complete r line lineNumber document = .ok o ↔
      ∃ steps items, steps.Perm (offered r l lineNumber document) ∧ steps.Pairwise Precedes ∧
        Offers (insertStyle r.settings) (withoutLastWord l.text) steps items ∧ o = answer items := by
  rw [complete_of_stepLine hline]
  constructor
  · intro h
    cases hitems : (offered r l lineNumber document).mapM (offer (insertStyle r.settings) (withoutLastWord l.text)) with
    | error e =>
      rw [hitems] at h
      cases h
    | ok found =>
      rw [hitems] at h
      obtain rfl := Except.ok.inj h
      have hdistinct : ((offered r l lineNumber document).map (·.text)).Nodup := hr.sublist (List.filter_sublist.map _)
      obtain ⟨steps, hperm, hranked⟩ := exists_ranking hdistinct
      obtain ⟨items, hoffers, hsame⟩ := List.perm_comp_forall₂ hperm (mapM_eq_ok_iff.1 hitems)
      exact ⟨steps, items, hperm, hranked, hoffers, congrArg answer (mergeSort_key_eq hsame (Offers.pairwise hoffers hranked))⟩
  · rintro ⟨steps, items, hperm, hranked, hoffers, rfl⟩
    obtain ⟨found, hfound, hsame⟩ := List.perm_comp_forall₂ hperm.symm hoffers
    rw [mapM_eq_ok_iff.2 hfound]
    exact congrArg Except.ok (congrArg answer (mergeSort_key_eq hsame.symm (hoffers.pairwise hranked)))

theorem complete_of_no_stepLine {r : Registry} {line : Text} {document : List Text} {lineNumber : Int}
    (h : r.stepLine? line document lineNumber = none) : complete r line lineNumber document = .ok none := by
  unfold complete
  rw [h]

/-- Completion answers if there is a text to insert for every step that goes on. -/
theorem exists_complete_iff {r : Registry} {line : Text} {document : List Text} {lineNumber : Int} :
    (∃ o, complete r line lineNumber document = .ok o) ↔
      ∀ l x, r.stepLine? line document lineNumber = some l → GoesOn r l lineNumber document x →
        ∃ t, insertText (insertStyle r.settings) x.text (withoutLastWord l.text) = .ok t := by
  cases hline : r.stepLine? line document lineNumber with
  | none =>
    rw [complete_of_no_stepLine hline]
    exact ⟨nofun, fun _ => ⟨none, rfl⟩⟩
  | some l =>
    have hgoes : (∀ l' x, some l = some l' → GoesOn r l' lineNumber document x →
          ∃ t, insertText (insertStyle r.settings) x.text (withoutLastWord l'.text) = .ok t) ↔
        ∀ x ∈ offered r l lineNumber document, ∃ item, offer (insertStyle r.settings) (withoutLastWord l.text) x = .ok item := by
      simp only [exists_offer_iff, mem_offered_iff]
      constructor
      · exact fun h x hx => h l x rfl hx
      · rintro h _ x ⟨⟩ hx
        exact h x hx
    rw [hgoes, ← exists_mapM_eq_ok_iff, complete_of_stepLine hline]
    cases (offered r l lineNumber document).mapM (offer (insertStyle r.settings) (withoutLastWord l.text)) with
    | error e => simp [Except.map]
    | ok items => simp [Except.map]

/-- There is no completion if the line is no step line, or no step goes on. -/
theorem complete_eq_none_iff {r : Registry} (hr : (r.steps.map (·.text)).Nodup) {line : Text} {document : List Text}
    {lineNumber : Int} :
    complete r line lineNumber document = .ok none ↔
      ∀ l x, r.stepLine? line document lineNumber = some l → ¬GoesOn r l lineNumber document x := by
  cases hline : r.stepLine? line document lineNumber with
  | none =>
    rw [complete_of_no_stepLine hline]
    exact ⟨nofun, fun _ => rfl⟩
  | some l =>
    rw [complete_eq_ok_iff hr hline]
    constructor
    · rintro ⟨steps, items, hperm, -, hoffers, hnone⟩ _ x ⟨⟩ hx
      have hitems : items = [] := by
        by_contra hne
        simp [answer, hne] at hnone
      subst hitems
      cases hoffers
      exact List.not_mem_nil (hperm.mem_iff.2 (mem_offered_iff.2 hx))
    · intro h
      have hnone : offered r l lineNumber document = [] :=
        List.eq_nil_iff_forall_not_mem.2 fun x hx => h l x rfl (mem_offered_iff.1 hx)
      rw [hnone]
      exact ⟨[], [], .refl _, .nil, .nil, rfl⟩

/-! ## Other orders, other settings -/

/-- Which lines are step lines does not depend on the order of the steps. -/
theorem stepLine?_of_perm {r r' : Registry} (hsettings : r'.settings = r.settings) (hperm : r'.steps.Perm r.steps) :
    r'.stepLine? = r.stepLine? := by
  have hknows : r'.knows = r.knows := by
    funext text
    unfold Registry.knows Registry.findByText
    rw [Bool.eq_iff_iff, List.find?_isSome, List.find?_isSome]
    simp only [hperm.mem_iff]
  unfold Registry.stepLine?
  rw [hsettings, hknows]

/-- Completions do not depend on the order of the steps. -/
theorem complete_of_perm {r r' : Registry} (hr : (r.steps.map (·.text)).Nodup) (hsettings : r'.settings = r.settings)
    (hperm : r'.steps.Perm r.steps) {line : Text} {document : List Text} {lineNumber : Int} {o : Option (List Completion)}
    (h : complete r line lineNumber document = .ok o) : complete r' line lineNumber document = .ok o := by
  have hr' : (r'.steps.map (·.text)).Nodup := (hperm.map _).nodup_iff.2 hr
  have hlines := congrFun (congrFun (congrFun (stepLine?_of_perm hsettings hperm) line) document) lineNumber
  cases hline : r.stepLine? line document lineNumber with
  | none =>
    rw [complete_of_no_stepLine hline] at h
    rw [complete_of_no_stepLine (hlines.trans hline), h]
  | some l =>
    obtain ⟨steps, items, hsteps, hranked, hoffers, rfl⟩ := (complete_eq_ok_iff hr hline).1 h
    have hoffered : (offered r' l lineNumber document).Perm (offered r l lineNumber document) := by
      unfold offered candidates strictType
      rw [hsettings]
      exact hperm.filter _
    refine (complete_eq_ok_iff hr' (hlines.trans hline)).2 ⟨steps, items, hsteps.trans hoffered.symm, hranked, ?_, rfl⟩
    rw [hsettings]
    exact hoffers

/-- The registry with another setting of whether completion keeps to the category. -/
def withStrictness (r : Registry) (strict : Json) : Registry :=
  { r with settings := { r.settings with strictCompletion := strict } }

/-- The steps that are offered under strict settings are some of those that are offered otherwise. -/
theorem offered_withStrictness (r : Registry) {off : Json} (hoff : off.isSet = false) (strict : Json) (l : Gherkin.StepLine)
    (lineNumber : Int) (document : List Text) :
    ∃ p, offered (withStrictness r strict) l lineNumber document =
      (offered (withStrictness r off) l lineNumber document).filter p := by
  refine ⟨Registry.isOfType (strictType strict.isSet r l.keyword lineNumber document), ?_⟩
  have hany : strictType off.isSet (withStrictness r off) l.keyword lineNumber document = none := by
    rw [strictType, hoff]
    rfl
  unfold offered candidates
  rw [List.filter_filter]
  refine List.filter_congr fun x _ => ?_
  show _ = (_ && (Registry.isOfType (strictType off.isSet (withStrictness r off) l.keyword lineNumber document) x && _))
  rw [hany]
  rfl

/-- Strict settings only remove completions. -/
theorem complete_strict {r : Registry} (hr : (r.steps.map (·.text)).Nodup) {off : Json} (hoff : off.isSet = false)
    {line : Text} {document : List Text} {lineNumber : Int} {o : Option (List Completion)}
    (h : complete (withStrictness r off) line lineNumber document = .ok o) (strict : Json) :
    ∃ o', complete (withStrictness r strict) line lineNumber document = .ok o' ∧ (o'.getD []).Sublist (o.getD []) := by
  cases hline : r.stepLine? line document lineNumber with
  | none =>
    exact ⟨none, complete_of_no_stepLine hline, List.nil_sublist _⟩
  | some l =>
    have hanswer : ∀ items, (answer items).getD [] = items := by
      intro items
      cases items <;> rfl
    obtain ⟨steps, items, hperm, hranked, hoffers, rfl⟩ := (complete_eq_ok_iff (r := withStrictness r off) hr hline).1 h
    obtain ⟨p, hfilter⟩ := offered_withStrictness r hoff strict l lineNumber document
    obtain ⟨kept, hkept, hoffers'⟩ := forall₂_of_sublist (List.filter_sublist (p := p)) hoffers
    refine ⟨answer kept, (complete_eq_ok_iff (r := withStrictness r strict) hr hline).2 ?_, ?_⟩
    · exact ⟨steps.filter p, kept, hfilter ▸ hperm.filter p, hranked.filter p, hoffers', rfl⟩
    · rw [hanswer, hanswer]
      exact hkept

/-! ## The main statement -/

/-- In a reachable registry completion answers if there is a text to insert for every step that goes on, as there is for harmless
texts, also on a limited stack with room for the runs of parts that are read. There is no completion if the line is no step line or no
step goes on. Otherwise the completions are those of the steps that go on, each once, in the order of `Precedes`. The answer does not
depend on the order of the steps in the registry, and strict settings only remove completions from it. -/
theorem complete_ranks_steps (s : Settings) (r : Registry) (h : Reachable s r) (line : Text) (lineNumber : Int)
    (document : List Text) :
    ((∃ o, complete r line lineNumber document = .ok o) ↔
      ∀ l x, r.stepLine? line document lineNumber = some l → GoesOn r l lineNumber document x →
        ∃ t, insertText (insertStyle r.settings) x.text (withoutLastWord l.text) = .ok t) ∧
    (∀ x : Step, Body.harmless (bodyKind r.settings) x.text = true →
      ∀ typed, ∃ t, insertText (insertStyle r.settings) x.text typed = .ok t ∧
        ∀ stack : Stack, (∀ source ∈ runsRead (bodyKind r.settings) typed [] (Body.splitParts x.text),
          Regex.nesting source ≤ stack.room) → insertTextOn stack (insertStyle r.settings) x.text typed = some t) ∧
    (complete r line lineNumber document = .ok none ↔
      ∀ l x, r.stepLine? line document lineNumber = some l → ¬GoesOn r l lineNumber document x) ∧
    (∀ items, complete r line lineNumber document = .ok (some items) →
      ∃ l steps, r.stepLine? line document lineNumber = some l ∧ steps.Nodup ∧
        (∀ x, x ∈ steps ↔ GoesOn r l lineNumber document x) ∧
        Offers (insertStyle r.settings) (withoutLastWord l.text) steps items ∧ steps.Pairwise Precedes) ∧
    (∀ r' o, r'.settings = r.settings → r'.steps.Perm r.steps → complete r line lineNumber document = .ok o →
      complete r' line lineNumber document = .ok o) ∧
    (∀ off strict o, off.isSet = false → complete (withStrictness r off) line lineNumber document = .ok o →
      ∃ o', complete (withStrictness r strict) line lineNumber document = .ok o' ∧ (o'.getD []).Sublist (o.getD [])) := by
  have hr := h.indexed.nodup_texts
  refine ⟨exists_complete_iff, fun x hx typed => ?_, complete_eq_none_iff hr, fun items hitems => ?_,
    fun r' o hsettings hperm ho => complete_of_perm hr hsettings hperm ho,
    fun off strict o hoff ho => complete_strict hr hoff ho strict⟩
  · obtain ⟨t, ht⟩ : ∃ t, insertText (insertStyle r.settings) x.text typed = .ok t := insertText_of_harmless hx typed
    exact ⟨t, ht, fun stack hstack => insertTextOn_of_nesting_le hstack ht⟩
  · cases hline : r.stepLine? line document lineNumber with
    | none =>
      rw [complete_of_no_stepLine hline] at hitems
      cases hitems
    | some l =>
      obtain ⟨steps, found, hperm, hranked, hoffers, hanswer⟩ := (complete_eq_ok_iff hr hline).1 hitems
      obtain rfl : items = found := by
        unfold answer at hanswer
        split at hanswer
        · cases hanswer
        · exact Option.some.inj hanswer
      have hnodup : (offered r l lineNumber document).Nodup := (hr.of_map _).sublist List.filter_sublist
      exact ⟨l, steps, rfl, hperm.nodup_iff.2 hnodup, fun x => hperm.mem_iff.trans mem_offered_iff, hoffers, hranked⟩

/-- Two of three steps go on, and the one in use stands first, also when the registry is turned around. -/
theorem complete_ranks_steps_used :
    let s : Settings := { languages := [⟨"q", ["Given "], [], [], [], [], []⟩] }
    let start : Registry := { settings := s, rule := .ofLanguages s.languages }
    let content := of "Given('x a', f)\nGiven('x b', g)\nGiven('y', h)"
    let w : Workspace := ⟨[([of "a"], .file (content.map fun c => c.toNat.toUInt8))]⟩
    let r := (start.after (.build w [] [of "a"])).after (.increment (stepId (of "x b")))
    let line := of "Given x "
    Reachable s r ∧ ∃ items, complete r line 0 [line] = .ok (some items) ∧
      items.map (fun item => (item.label, item.sortText, item.insertText)) =
        [(of "x b", of "ZZZZY_x b", of "b"), (of "x a", of "ZZZZZ_x a", of "a")] ∧
      complete { r with steps := r.steps.reverse } line 0 [line] = .ok (some items) := by
  intro s start content w r line
  let l : Gherkin.StepLine := ⟨[], of "Given", of " ", of "x "⟩
  let ranked := (offered r l 0 [line]).reverse
  let items := ranked.filterMap fun x => (offer (insertStyle r.settings) (of "x ") x).toOption
  have hreach : Reachable s r := .act _ (.act _ (.start rfl))
  obtain ⟨hline, hranked, hoffers, hanswer, hshown⟩ : r.stepLine? line [line] 0 = some l ∧ ranked.Pairwise Precedes ∧
      ranked.mapM (offer (insertStyle r.settings) (withoutLastWord l.text)) = .ok items ∧ some items = answer items ∧
      items.map (fun item => (item.label, item.sortText, item.insertText)) =
        [(of "x b", of "ZZZZY_x b", of "b"), (of "x a", of "ZZZZZ_x a", of "a")] := by decide +kernel
  have hcomplete : complete r line 0 [line] = .ok (some items) :=
    (complete_eq_ok_iff hreach.indexed.nodup_texts hline).2
      ⟨ranked, items, List.reverse_perm _, hranked, mapM_eq_ok_iff.1 hoffers, hanswer⟩
  obtain ⟨-, -, -, -, hreversed, -⟩ := complete_ranks_steps s r hreach line 0 [line]
  exact ⟨hreach, items, hcomplete, hshown, hreversed _ _ rfl (List.reverse_perm _) hcomplete⟩

/-- The text of a step is shown without the backslash that its pattern needs; read as a body again, it is refused. -/
theorem complete_fails_at_large_count :
    let s : Settings := { languages := [⟨"q", ["Given "], [], [], [], [], []⟩] }
    let start : Registry := { settings := s, rule := .ofLanguages s.languages }
    let content := of "Given(/a\\\x7b99999999999\x7d/, f)"
    let w : Workspace := ⟨[([of "a"], .file (content.map fun c => c.toNat.toUInt8))]⟩
    let r := start.after (.build w [] [of "a"])
    let line := of "Given a"
    Reachable s r ∧ r.steps.map (·.text) = [of "a\x7b99999999999\x7d"] ∧ (r.stepLine? line [line] 0).isSome = true ∧
      (∀ x ∈ r.steps, x.leading.occursIn [] = true) ∧ complete r line 0 [line] = .error (.body (.refused .repetitionTooLarge)) := by
  intro s start content w r line
  exact ⟨.act _ (.start rfl), by decide +kernel⟩

end StepCatalog.Editor
