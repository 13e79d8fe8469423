import StepCatalog.Editor.Query
import StepCatalog.Proofs.Body.Joined
import StepCatalog.Proofs.Editor.Insertion

/-!
# What remains to be typed

Behind words that were typed for the first parts of a step, and a space, the next part is where the rest of the step begins, unless
that part takes the empty text. The typed text has one space for each word. Parts with spaces between them take it up to some place
only if each of these spaces is one of them (`eq_of_join_append`), so the next part would have to take what follows the last space,
which is nothing, and parts beyond the next one find no space any more. A part that takes the empty text is therefore passed over;
if it is the last one, no part is left and the whole step is inserted.

Main statement: `insertText_after_words`.
-/

namespace StepCatalog

namespace Text

theorem mem_join_append_right {c : Char} {sep : Text} (xs : List Text) {ys : List Text} (h : c ∈ join sep ys) :
    c ∈ join sep (xs ++ ys) := by
  by_cases hxs : xs = []
  · rw [hxs]
    exact h
  · have hys : ys ≠ [] := by
      rintro rfl
      cases h
    rw [join_append_of_ne_nil hxs hys]
    exact List.mem_append_right _ (List.mem_append_right _ h)

theorem mem_join_of_mem {c : Char} {sep part : Text} {parts : List Text} (hpart : part ∈ parts) (hc : c ∈ part) :
    c ∈ join sep parts := by
  obtain ⟨xs, ys, rfl⟩ := List.append_of_mem hpart
  refine mem_join_append_right xs ?_
  obtain ⟨rest, hrest⟩ := join_append sep [part] ys
  rw [← List.singleton_append, hrest, join_singleton]
  exact List.mem_append_left _ hc

/-- Parts in front make a longer text. -/
theorem join_append_ne {sep : Text} {xs ys : List Text} (hsep : sep ≠ []) (hxs : xs ≠ []) (hys : ys ≠ []) :
    join sep (xs ++ ys) ≠ join sep ys := by
  intro h
  have hlength := congrArg List.length h
  have hpos := List.length_pos_iff.2 hsep
  rw [join_append_of_ne_nil hxs hys, List.length_append, List.length_append] at hlength
  omega

theorem length_le_count_join (ws : List Text) : ws.length ≤ (join [' '] ws).count ' ' + 1 := by
  induction ws with
  | nil => exact Nat.zero_le _
  | cons w ws ih =>
    cases ws with
    | nil => simp
    | cons w' ws =>
      rw [join_cons (List.cons_ne_nil _ _), List.count_append, List.singleton_append, List.count_cons_self, List.length_cons]
      omega

end Text

namespace Editor

open Body (tokens splitParts Spelling SpacesApart nul)
open Catalog (bodyKind)
open Text (of)

/-! ## Words that have been typed -/

/-- Words as they are typed, each with a space behind it. -/
def typedWords (words : List Text) : Text := words.flatMap fun w => w ++ [' ']

theorem typedWords_cons (w : Text) (words : List Text) : typedWords (w :: words) = w ++ ' ' :: typedWords words := by
  rw [typedWords, List.flatMap_cons, ← typedWords, List.append_assoc, List.singleton_append]

theorem typedWords_append (xs ys : List Text) : typedWords (xs ++ ys) = typedWords xs ++ typedWords ys := List.flatMap_append

theorem typedWords_eq_join {words : List Text} (hne : words ≠ []) : typedWords words = Text.join [' '] words ++ [' '] := by
  induction words with
  | nil => exact absurd rfl hne
  | cons w words ih =>
    rw [typedWords_cons]
    cases words with
    | nil =>
      rw [Text.join_singleton]
      rfl
    | cons w' words =>
      rw [ih (List.cons_ne_nil _ _), Text.join_cons (List.cons_ne_nil _ _)]
      simp

theorem count_typedWords {words : List Text} (hfree : ∀ w ∈ words, ' ' ∉ w) : (typedWords words).count ' ' = words.length := by
  induction words with
  | nil => rfl
  | cons w words ih =>
    rw [List.forall_mem_cons] at hfree
    have hword : w.count ' ' = 0 := List.count_eq_zero_of_not_mem hfree.1
    rw [typedWords_cons, List.count_append, List.count_cons_self, ih hfree.2, hword, List.length_cons]
    omega

/-- Texts with spaces between them that make up a beginning of typed words are one more than the words at most. -/
theorem length_le_of_join_append {words ws : List Text} {after : Text} (hfree : ∀ w ∈ words, ' ' ∉ w)
    (h : typedWords words = Text.join [' '] ws ++ after) : ws.length ≤ words.length + 1 := by
  have hcount := congrArg (List.count ' ') h
  rw [count_typedWords hfree, List.count_append] at hcount
  have := Text.length_le_count_join ws
  omega

/-- If they are one more, then they are the words and the empty text behind the last space. -/
theorem eq_of_join_append {words ws : List Text} {after : Text} (hfree : ∀ w ∈ words, ' ' ∉ w)
    (hlength : ws.length = words.length + 1) (h : typedWords words = Text.join [' '] ws ++ after) :
    ws = words ++ [[]] ∧ after = [] := by
  induction words generalizing ws with
  | nil =>
    obtain ⟨w, rfl⟩ := List.length_eq_one_iff.1 hlength
    rw [Text.join_singleton] at h
    obtain ⟨rfl, rfl⟩ := List.append_eq_nil_iff.1 h.symm
    exact ⟨rfl, rfl⟩
  | cons w words ih =>
    rw [List.forall_mem_cons] at hfree
    obtain ⟨v, ws, rfl⟩ := List.exists_cons_of_length_eq_add_one hlength
    rw [List.length_cons, List.length_cons, Nat.add_right_cancel_iff] at hlength
    have hne : ws ≠ [] := List.ne_nil_of_length_eq_add_one hlength
    rw [typedWords_cons, Text.join_cons hne, List.append_assoc, List.append_assoc, List.singleton_append] at h
    -- all spaces are needed between the texts, so that the first of them has none inside
    have hv : ' ' ∉ v := by
      have hcount := congrArg (List.count ' ') h
      simp only [List.count_append, List.count_cons_self, List.count_eq_zero_of_not_mem hfree.1, count_typedWords hfree.2] at hcount
      have := Text.length_le_count_join ws
      exact List.count_eq_zero.1 (by omega)
    have hfirst := congrArg (Text.splitOn ' ') h
    rw [Text.splitOn_append_cons hfree.1, Text.splitOn_append_cons hv] at hfirst
    obtain rfl := (List.cons.inj hfirst).1
    obtain ⟨rfl, rfl⟩ := ih hfree.2 hlength (List.cons.inj (List.append_cancel_left h)).2
    exact ⟨rfl, rfl⟩

/-! ## Parts that have been reached -/

/-- The word is one that the part, read as pure text, takes as a whole. -/
def Accepts (part w : Text) : Prop := ∃ src, Body.source .pureText true part = .ok src ∧ Body.Spells src w

theorem accepts_iff {part : Text} (h : nul ∉ part) (w : Text) : Accepts part w ↔ Spelling (tokens part) w := by
  have hspells := Body.spells_iff (Body.writes_pureText (Body.tokens_valid part)) w
  rw [Regex.seq_start_iff, Regex.seq_stop_iff] at hspells
  constructor
  · rintro ⟨src, hsource, hw⟩
    rw [Body.source_pureText h] at hsource
    cases hsource
    exact (hspells.1 hw).2.1
  · exact fun hw => ⟨_, Body.source_pureText h, hspells.2 ⟨rfl, hw, .inl rfl⟩⟩

/-- Parts without parameters take themselves. -/
theorem accepts_plainWords {words : List Text} (h : ∀ w ∈ words, nul ∉ w ∧ tokens w = w.map .char) :
    List.Forall₂ Accepts words words := by
  refine List.forall₂_same.2 fun w hw => ?_
  rw [accepts_iff (h w hw).1, (h w hw).2]
  exact (Body.spelling_chars w w).2 rfl

/-- Something has been typed for each of the parts, with spaces in between. -/
def Reaches (typed : Text) (parts : List Text) : Prop :=
  ∃ ws after, List.Forall₂ Accepts parts ws ∧ typed = Text.join [' '] ws ++ after

/-- A text in which parts can be looked for one by one. -/
structure Plain (text : Text) : Prop where
  nul : Body.nul ∉ text
  apart : SpacesApart text

theorem Plain.of_join_append {xs ys : List Text} (hne : xs ≠ []) (h : Plain (Text.join [' '] (xs ++ ys))) :
    Plain (Text.join [' '] xs) := by
  refine ⟨fun hnul => ?_, h.apart.of_join_append hne⟩
  obtain ⟨rest, hrest⟩ := Text.join_append [' '] xs ys
  exact h.nul (by rw [hrest]; exact List.mem_append_left _ hnul)

/-- The parts that a typed text begins with are the ones that have been reached. -/
theorem exists_spelling_iff {parts : List Text} (hne : parts ≠ []) (h : Plain (Text.join [' '] parts)) (typed : Text) :
    (∃ w after, typed = w ++ after ∧ Spelling (tokens (Text.join [' '] parts)) w) ↔ Reaches typed parts := by
  have hwords : ∀ ws, List.Forall₂ (fun part w => Spelling (tokens part) w) parts ws ↔ List.Forall₂ Accepts parts ws := by
    intro ws
    rw [List.forall₂_iff_zip, List.forall₂_iff_zip]
    refine and_congr_right fun _ => forall_congr' fun part => forall_congr' fun w => imp_congr_right fun hmem => ?_
    exact (accepts_iff (fun hnul => h.nul (Text.mem_join_of_mem (List.of_mem_zip hmem).1 hnul)) w).symm
  constructor
  · rintro ⟨w, after, rfl, hw⟩
    obtain ⟨ws, hws, rfl⟩ := (Body.spelling_join hne h.apart w).1 hw
    exact ⟨ws, after, (hwords ws).1 hws, rfl⟩
  · rintro ⟨ws, after, hws, rfl⟩
    exact ⟨_, after, rfl, (Body.spelling_join hne h.apart _).2 ⟨ws, (hwords ws).2 hws, rfl⟩⟩

/-- One part further: if it has been reached, the search goes on behind it. -/
theorem unreached_cons {done rest : List Text} {part : Text} (h : Plain (Text.join [' '] (done ++ part :: rest))) (typed : Text) :
    (Reaches typed (done ++ [part]) →
      unreached .pureText typed done (part :: rest) = unreached .pureText typed (done ++ [part]) rest) ∧
    (¬Reaches typed (done ++ [part]) → unreached .pureText typed done (part :: rest) = .ok (some (part :: rest))) := by
  have hne : done ++ [part] ≠ [] := by simp
  have hplain : Plain (Text.join [' '] (done ++ [part])) := by
    rw [List.append_cons] at h
    exact h.of_join_append hne
  obtain ⟨src, p, hsource, hp, hbegins⟩ := Body.beginning_pureText hplain.nul
  have hreaches : p.begins typed = true ↔ Reaches typed (done ++ [part]) :=
    (hbegins typed).trans (exists_spelling_iff hne hplain typed)
  rw [unreached, hsource]
  dsimp only
  rw [hp]
  dsimp only
  constructor
  · intro hreached
    rw [if_pos (hreaches.2 hreached)]
  · intro hnot
    rw [if_neg fun hbegun => hnot (hreaches.1 hbegun)]

/-! ## Behind the words -/

/-- The parts for which words have been typed have been reached. -/
theorem reaches_typedWords {done todo words : List Text} (hne : done ≠ []) (h : List.Forall₂ Accepts (done ++ todo) words) :
    Reaches (typedWords words) done := by
  have hfirst := List.forall₂_take done.length h
  rw [List.take_left] at hfirst
  have htyped : words.take done.length ≠ [] := by
    intro hnil
    rw [hnil] at hfirst
    cases hfirst
    exact hne rfl
  refine ⟨words.take done.length, ' ' :: typedWords (words.drop done.length), hfirst, ?_⟩
  rw [← List.take_append_drop done.length words, typedWords_append, typedWords_eq_join htyped]
  simp

/-- The next part has been reached if it takes the empty text. -/
theorem reaches_next_iff {done words : List Text} {part : Text} (hfree : ∀ w ∈ words, ' ' ∉ w)
    (h : List.Forall₂ Accepts done words) : Reaches (typedWords words) (done ++ [part]) ↔ Accepts part [] := by
  constructor
  · rintro ⟨ws, after, hws, htyped⟩
    have hlength : ws.length = words.length + 1 := by
      rw [← hws.length_eq, List.length_append, h.length_eq]
      rfl
    obtain ⟨rfl, -⟩ := eq_of_join_append hfree hlength htyped
    have hlast := List.forall₂_drop words.length hws
    rw [← h.length_eq, List.drop_left, h.length_eq, List.drop_left] at hlast
    cases hlast with
    | cons hempty _ => exact hempty
  · intro hempty
    refine ⟨words ++ [[]], [], List.rel_append h (.cons hempty .nil), ?_⟩
    by_cases hne : words = []
    · rw [hne]
      rfl
    · rw [typedWords_eq_join hne, Text.join_append_of_ne_nil hne (List.cons_ne_nil _ _), Text.join_singleton]
      simp

/-- The words typed for the first parts lead to the next one. -/
theorem unreached_typedWords {rest words : List Text} (todo : List Text) : ∀ done : List Text,
    Plain (Text.join [' '] (done ++ (todo ++ rest))) → List.Forall₂ Accepts (done ++ todo) words →
    unreached .pureText (typedWords words) done (todo ++ rest) =
      unreached .pureText (typedWords words) (done ++ todo) rest := by
  induction todo with
  | nil =>
    intro done _ _
    rw [List.nil_append, List.append_nil]
  | cons part todo ih =>
    intro done hplain hwords
    rw [List.cons_append] at hplain ⊢
    have hreached : Reaches (typedWords words) (done ++ [part]) := by
      rw [List.append_cons] at hwords
      exact reaches_typedWords (by simp) hwords
    rw [(unreached_cons hplain _).1 hreached]
    rw [List.append_cons] at hplain hwords
    rw [List.append_cons done part todo]
    exact ih (done ++ [part]) hplain hwords

/-- What remains behind words is the rest of the text, without the next part if that takes the empty text. -/
theorem remaining_typedWords {text part : Text} {rest words : List Text} (hplain : Plain text) (hfree : ∀ w ∈ words, ' ' ∉ w)
    (hwords : List.Forall₂ Accepts ((splitParts text).take words.length) words)
    (hnext : (splitParts text).drop words.length = part :: rest) :
    (¬Accepts part [] → remaining .pureText text (typedWords words) = .ok (Text.join [' '] (part :: rest))) ∧
    (Accepts part [] → rest ≠ [] → remaining .pureText text (typedWords words) = .ok (Text.join [' '] rest)) ∧
    (Accepts part [] → rest = [] → remaining .pureText text (typedWords words) = .ok text) := by
  have hparts : splitParts text = (splitParts text).take words.length ++ part :: rest := by
    rw [← hnext, List.take_append_drop]
  rw [← Body.join_splitParts text] at hplain
  generalize (splitParts text).take words.length = done at hparts hwords
  rw [hparts] at hplain
  have hbehind : unreached .pureText (typedWords words) [] (splitParts text) =
      unreached .pureText (typedWords words) done (part :: rest) := by
    rw [hparts]
    exact unreached_typedWords done [] hplain hwords
  obtain ⟨hreached, hnot⟩ := unreached_cons hplain (typedWords words)
  rw [reaches_next_iff hfree hwords] at hreached hnot
  unfold remaining
  rw [hbehind]
  refine ⟨fun hempty => ?_, fun hempty hrest => ?_, fun hempty hrest => ?_⟩
  · rw [hnot hempty]
    rfl
  · obtain ⟨next, rest, rfl⟩ := List.exists_cons_of_ne_nil hrest
    rw [List.append_cons] at hplain
    have hbeyond : ¬Reaches (typedWords words) (done ++ [part] ++ [next]) := by
      rintro ⟨ws, after, hws, htyped⟩
      have hle := length_le_of_join_append hfree htyped
      have hlength := hws.length_eq
      rw [List.length_append, List.length_append, hwords.length_eq] at hlength
      simp only [List.length_singleton] at hlength
      omega
    rw [hreached hempty, (unreached_cons hplain _).2 hbeyond]
    rfl
  · rw [hreached hempty, hrest]
    rfl

/-! ## What is left as it is -/

theorem mem_of_mem_dropOptional {c d : Char} {s : Text} (h : c ∈ dropOptional d s) : c ∈ s := by
  cases s with
  | nil => exact h
  | cons e s =>
    rw [dropOptional] at h
    split at h
    · exact List.mem_cons_of_mem e h
    · exact h

theorem quotedClassEnd?_eq_none {s : Text} (h : '[' ∉ s) : quotedClassEnd? s = none := by
  have hafter : Text.after? (of "[^\"]") (dropOptional '(' s) = none := by
    rw [Option.eq_none_iff_forall_ne_some]
    intro rest hrest
    refine h (mem_of_mem_dropOptional (d := '(') ?_)
    rw [Text.after?_eq_some_iff.1 hrest]
    exact List.mem_append_left _ (by decide)
  rw [quotedClassEnd?, hafter]
  rfl

/-- Without a bracket there is no quoted class. -/
theorem substitute_quotedClass {s : Text} (h : '[' ∉ s) (write : Unit → Text) : substitute quotedClass write s = s := by
  have hpieces : ∀ (s : Text) (back : Option Char), '[' ∉ s → Piece.render write (piecesFrom quotedClass back 0 s) = s := by
    intro s
    induction s with
    | nil => exact fun _ _ => rfl
    | cons c s ih =>
      intro back hs
      rw [List.mem_cons, not_or] at hs
      have hnone : quotedClass back (c :: s) = none := by
        unfold quotedClass
        split
        · rename_i heq
          cases heq
          rw [quotedClassEnd?_eq_none hs.2]
        · rfl
      rw [piecesFrom, hnone]
      exact congrArg (c :: ·) (ih (some c) hs.2)
  exact hpieces s none h

theorem dropFinalDollar_eq_self {s : Text} (h : '$' ∉ s) : Body.dropFinalDollar s = s := by
  fun_induction Body.dropFinalDollar s with
  | case1 => rfl
  | case2 => simp at h
  | case3 => simp at h
  | case4 c s _ _ ih =>
    rw [List.mem_cons, not_or] at h
    rw [ih h.2]

/-- A text without backslashes, carets and dollar signs is shown as it is. -/
theorem display_eq_self {s : Text} (hslash : '\\' ∉ s) (hcaret : '^' ∉ s) (hdollar : '$' ∉ s) : Body.display s = s := by
  have hfilter : s.filter (· != '\\') = s := by
    rw [List.filter_eq_self]
    intro c hc
    rw [bne_iff_ne]
    rintro rfl
    exact hslash hc
  rw [Body.display, hfilter]
  unfold Body.dropAnchors
  split
  · simp at hcaret
  · exact dropFinalDollar_eq_self hdollar

/-- The characters that mean something in the text to insert. -/
def insertMarks : Text := of "[\\^$"

theorem unmarked {s : Text} (h : insertMarks.all (fun c => !s.contains c) = true) : ∀ c ∈ insertMarks, c ∉ s := by
  simpa using h

/-- Without these characters, what remains of pure text is inserted as it is. -/
theorem insertText_of_remaining {text typed rest : Text} (h : remaining .pureText text typed = .ok rest)
    (hmarks : ∀ c ∈ insertMarks, c ∉ rest) : insertText ⟨.pureText, false⟩ text typed = .ok rest := by
  have hbracket : '[' ∉ rest := hmarks '[' (by decide)
  have hshown : Body.display rest = rest :=
    display_eq_self (hmarks '\\' (by decide)) (hmarks '^' (by decide)) (hmarks '$' (by decide))
  rw [insertText, h]
  show Except.ok (Body.display (substitute quotedClass _ rest)) = _
  rw [substitute_quotedClass hbracket, hshown]

/-! ## The text to insert -/

theorem spelling_empty_iff (ts : List Body.Token) : Spelling ts [] ↔ ∀ t ∈ ts, t.Denotes [] := by
  induction ts with
  | nil => simp [Body.spelling_nil]
  | cons t ts ih =>
    rw [Body.spelling_cons, List.forall_mem_cons, ← ih]
    constructor
    · rintro ⟨u, v, huv, hu, hv⟩
      obtain ⟨rfl, rfl⟩ := List.append_eq_nil_iff.1 huv.symm
      exact ⟨hu, hv⟩
    · exact fun ⟨hu, hv⟩ => ⟨[], [], rfl, hu, hv⟩

/-- The tokens that stand for the empty text, among others: parameters for anything, and optional text. -/
theorem denotes_empty_iff {t : Body.Token} (h : ∀ p, t = .param p → p.Valid) :
    t.Denotes [] ↔ t = .param .anything ∨ ∃ letters, t = .param (.optional letters) := by
  cases t with
  | char c => simp [Body.Token.Denotes]
  | param p =>
    cases p with
    | oneOf words =>
      have hwords : [] ∉ words := fun hmem => ((h _ rfl).2 [] hmem).1 rfl
      simp [Body.Token.Denotes, Body.Parameter.Denotes, hwords]
    | _ => simp [Body.Token.Denotes, Body.Parameter.Denotes]

/-- A part takes the empty text if all of its tokens do. -/
theorem accepts_nil_iff {part : Text} (h : nul ∉ part) :
    Accepts part [] ↔ ∀ t ∈ tokens part, t = .param .anything ∨ ∃ letters, t = .param (.optional letters) := by
  rw [accepts_iff h, spelling_empty_iff]
  refine forall_congr' fun t => imp_congr_right fun ht => denotes_empty_iff fun p hp => ?_
  exact Body.tokens_valid part p (hp ▸ ht)

/-- Behind words for the first parts of a step, what is inserted is the rest of the step, if the next part does not take the empty
text. If it does, then it is left out, and behind the last part the whole step is inserted instead: what has been typed is repeated,
unless nothing was typed for the only part. -/
theorem insertText_after_words (s : Settings) (hpure : s.pureText.isSet = true) (hstops : s.smartSnippets.isSet = false)
    (text : Text) (hnul : nul ∉ text) (hmarks : ∀ c ∈ insertMarks, c ∉ text) (hapart : SpacesApart text) (words : List Text)
    (hlength : words.length < (splitParts text).length) (hfree : ∀ w ∈ words, ' ' ∉ w)
    (hwords : List.Forall₂ Accepts ((splitParts text).take words.length) words) :
    ∃ part rest, (splitParts text).drop words.length = part :: rest ∧
      (Accepts part [] ↔ ∀ t ∈ tokens part, t = .param .anything ∨ ∃ letters, t = .param (.optional letters)) ∧
      (¬Accepts part [] → insertText (insertStyle s) text (typedWords words) = .ok (Text.join [' '] (part :: rest))) ∧
      (Accepts part [] → rest ≠ [] → insertText (insertStyle s) text (typedWords words) = .ok (Text.join [' '] rest)) ∧
      (Accepts part [] → rest = [] → insertText (insertStyle s) text (typedWords words) = .ok text) ∧
      (insertText (insertStyle s) text (typedWords words) = .ok (Text.join [' '] ((splitParts text).drop words.length)) ↔
        ¬Accepts part [] ∨ words = [] ∧ rest = []) := by
  have hstyle : insertStyle s = ⟨.pureText, false⟩ := by rw [insertStyle, bodyKind, hpure, hstops]; rfl
  obtain ⟨part, rest, hnext⟩ : ∃ part rest, (splitParts text).drop words.length = part :: rest :=
    List.exists_cons_of_ne_nil (List.ne_nil_of_length_pos (by rw [List.length_drop]; omega))
  have htext : text = Text.join [' '] ((splitParts text).take words.length ++ part :: rest) := by
    rw [← hnext, List.take_append_drop, Body.join_splitParts]
  have hmem : ∀ c ∈ Text.join [' '] (part :: rest), c ∈ text := fun c hc => htext ▸ Text.mem_join_append_right _ hc
  have hmemRest : ∀ c ∈ Text.join [' '] rest, c ∈ text := fun c hc => hmem c (Text.mem_join_append_right [part] hc)
  have hnulPart : nul ∉ part := fun hc => hnul (hmem _ (Text.mem_join_of_mem List.mem_cons_self hc))
  obtain ⟨hrest, hskipped, hwhole⟩ := remaining_typedWords ⟨hnul, hapart⟩ hfree hwords hnext
  have hinsertRest : ¬Accepts part [] →
      insertText (insertStyle s) text (typedWords words) = .ok (Text.join [' '] (part :: rest)) := fun hempty =>
    hstyle ▸ insertText_of_remaining (hrest hempty) fun c hc hin => hmarks c hc (hmem c hin)
  have hinsertSkipped : Accepts part [] → rest ≠ [] →
      insertText (insertStyle s) text (typedWords words) = .ok (Text.join [' '] rest) := fun hempty hne =>
    hstyle ▸ insertText_of_remaining (hskipped hempty hne) fun c hc hin => hmarks c hc (hmemRest c hin)
  have hinsertWhole : Accepts part [] → rest = [] → insertText (insertStyle s) text (typedWords words) = .ok text :=
    fun hempty hnil => hstyle ▸ insertText_of_remaining (hwhole hempty hnil) hmarks
  refine ⟨part, rest, hnext, accepts_nil_iff hnulPart, hinsertRest, hinsertSkipped, hinsertWhole, ?_⟩
  rw [hnext]
  constructor
  · intro h
    by_cases hempty : Accepts part []
    · right
      by_cases hnil : rest = []
      · refine ⟨?_, hnil⟩
        by_contra hne
        have hdone : (splitParts text).take words.length ≠ [] := by
          rw [← List.length_pos_iff, hwords.length_eq]
          exact List.length_pos_iff.2 hne
        have hsame : text = Text.join [' '] (part :: rest) := Except.ok.inj ((hinsertWhole hempty hnil).symm.trans h)
        exact Text.join_append_ne (by decide) hdone (List.cons_ne_nil _ _) (htext.symm.trans hsame)
      · have hlonger : Text.join [' '] ([part] ++ rest) ≠ Text.join [' '] rest :=
          Text.join_append_ne (by decide) (List.cons_ne_nil _ _) hnil
        exact absurd (Except.ok.inj (h.symm.trans (hinsertSkipped hempty hnil))) hlonger
    · exact .inl hempty
  · rintro (hempty | ⟨rfl, rfl⟩)
    · exact hinsertRest hempty
    · by_cases hempty : Accepts part []
      · exact (hinsertWhole hempty rfl).trans (congrArg Except.ok htext)
      · exact hinsertRest hempty

/-- A number is still to be typed, with what follows it. -/
theorem insertText_after_words_number :
    insertText (insertStyle { pureText := .bool true }) (of "I have \x7bint\x7d cukes") (of "I have ") =
      .ok (of "\x7bint\x7d cukes") := by
  have hfirst : List.Forall₂ Accepts [of "I", of "have"] [of "I", of "have"] := accepts_plainWords (by decide +kernel)
  have hparts : splitParts (of "I have \x7bint\x7d cukes") = [of "I", of "have", of "\x7bint\x7d", of "cukes"] := by decide +kernel
  have hapart : SpacesApart (of "I have \x7bint\x7d cukes") := by
    unfold SpacesApart
    decide +kernel
  obtain ⟨part, rest, hnext, hempty, hinsert, -⟩ := insertText_after_words { pureText := .bool true } rfl rfl
    (of "I have \x7bint\x7d cukes") (by decide) (unmarked (by decide)) hapart [of "I", of "have"] (by rw [hparts]; decide)
    (by decide) (by rw [hparts]; exact hfirst)
  rw [hparts] at hnext
  cases hnext
  have hnumber : tokens (of "\x7bint\x7d") = [.param .int] := by decide +kernel
  refine hinsert ?_
  rw [hempty, hnumber]
  simp

/-- A name in braces takes the empty text: as the last part it makes the whole step be inserted behind what has been typed, and
elsewhere it is left out. -/
theorem insertText_repeats_typed :
    let style := insertStyle { pureText := .bool true }
    let last := of "I have \x7bname\x7d"
    let inner := of "I have \x7bname\x7d apples"
    (SpacesApart last ∧ List.Forall₂ Accepts ((splitParts last).take 2) [of "I", of "have"] ∧
      Text.join [' '] ((splitParts last).drop 2) = of "\x7bname\x7d" ∧ insertText style last (of "I have ") = .ok last) ∧
    (SpacesApart inner ∧ List.Forall₂ Accepts ((splitParts inner).take 2) [of "I", of "have"] ∧
      Text.join [' '] ((splitParts inner).drop 2) = of "\x7bname\x7d apples" ∧
      insertText style inner (of "I have ") = .ok (of "apples")) := by
  have hfirst : List.Forall₂ Accepts [of "I", of "have"] [of "I", of "have"] := accepts_plainWords (by decide +kernel)
  have hname : Accepts (of "\x7bname\x7d") [] := by
    have htokens : tokens (of "\x7bname\x7d") = [.param .anything] := by decide +kernel
    rw [accepts_nil_iff (by decide), htokens]
    simp
  have hlast : splitParts (of "I have \x7bname\x7d") = [of "I", of "have", of "\x7bname\x7d"] := by decide +kernel
  have hinner : splitParts (of "I have \x7bname\x7d apples") = [of "I", of "have", of "\x7bname\x7d", of "apples"] := by
    decide +kernel
  have hlastApart : SpacesApart (of "I have \x7bname\x7d") := by
    unfold SpacesApart
    decide +kernel
  have hinnerApart : SpacesApart (of "I have \x7bname\x7d apples") := by
    unfold SpacesApart
    decide +kernel
  have hfree : ∀ w ∈ [of "I", of "have"], ' ' ∉ w := by decide
  have hwhole := remaining_typedWords ⟨by decide, hlastApart⟩ hfree (by rw [hlast]; exact hfirst) (by rw [hlast]; rfl)
  have hskipped := remaining_typedWords ⟨by decide, hinnerApart⟩ hfree (by rw [hinner]; exact hfirst) (by rw [hinner]; rfl)
  refine ⟨⟨hlastApart, ?_, ?_, ?_⟩, ⟨hinnerApart, ?_, ?_, ?_⟩⟩
  · rw [hlast]
    exact hfirst
  · rw [hlast]
    rfl
  · exact insertText_of_remaining (hwhole.2.2 hname rfl) (unmarked (by decide))
  · rw [hinner]
    exact hfirst
  · rw [hinner]
    rfl
  · exact insertText_of_remaining (hskipped.2.1 hname (List.cons_ne_nil _ _)) (unmarked (by decide))

end Editor
end StepCatalog
