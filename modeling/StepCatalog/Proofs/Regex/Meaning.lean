import StepCatalog.Regex.Search

/-!
# What a regular expression takes

`Node.run` tries the ways of a node in an order and hands captures along. Here is what it finds, said without either:
`Node.Takes n before w after` says that the node can take `w` out of a text in which the characters `before`, nearest first, stand
in front and `after` follows. This is the meaning of the nodes whose ways do not depend on captures and are never given up for
good (`Node.Regular`).

Main statements: `finds_run` (matching such a node succeeds exactly where it takes something after which the rest succeeds) and
`search?_isSome_iff` (a search succeeds exactly if the node takes some part of the text).
-/

namespace StepCatalog.Regex

/-- What can be taken out of a text: the characters in front, nearest first, those that are taken, and those that follow. -/
abbrev Span : Type := Text → Text → Text → Prop

/-- One after the other. -/
def Span.seq (L M : Span) : Span := fun before w after =>
  ∃ u v, w = u ++ v ∧ L before u (v ++ after) ∧ M (u.reverse ++ before) v after

/-- A number of rounds, one after the other. -/
def Rounds (L : Span) : Nat → Span
  | 0 => fun _ w _ => w = []
  | n + 1 => Span.seq L (Rounds L n)

/-- What a node takes. Nodes that are not regular take nothing here. -/
def Node.Takes : Node → Span
  | .empty => fun _ w _ => w = []
  | .one set => fun _ w _ => ∃ c, w = [c] ∧ set.holds c = true
  | .anchor a => fun before w after => w = [] ∧ Place.meets ⟨before, after, []⟩ a = true
  | .seq a b => Span.seq a.Takes b.Takes
  | .alt a b => fun before w after => a.Takes before w after ∨ b.Takes before w after
  | .repeated _ least most body => fun before w after =>
    ∃ n, least ≤ n ∧ (∀ m, most = some m → n ≤ m) ∧ Rounds body.Takes n before w after
  | .group _ body => body.Takes
  | _ => fun _ _ _ => False

/-- The nodes built from sets, anchors, sequences, choices, greedy repetitions and groups. -/
def Node.Regular : Node → Prop
  | .empty | .one _ | .anchor _ => True
  | .seq a b | .alt a b => a.Regular ∧ b.Regular
  | .repeated .greedy least most body => (∀ m, most = some m → least ≤ m) ∧ body.Regular
  | .group _ body => body.Regular
  | _ => False

/-! ## Continuations and matchers -/

/-- Whether the continuation succeeds does not depend on what was captured. -/
def GroupBlind (k : Cont) : Prop :=
  ∀ before after groups groups', (k ⟨before, after, groups⟩).isSome = (k ⟨before, after, groups'⟩).isSome

/-- The matcher succeeds exactly if `L` takes a beginning of what is to come, and the continuation succeeds behind it. -/
def Finds (m : Matcher) (L : Span) : Prop :=
  ∀ (p : Place) (k : Cont), GroupBlind k → ((m p k).isSome = true ↔
    ∃ w after, p.after = w ++ after ∧ L p.before w after ∧ (k ⟨w.reverse ++ p.before, after, p.groups⟩).isSome = true)

/-- A matcher that finds a span does not look at captures, if what comes after does not. -/
theorem Finds.groupBlind {m : Matcher} {L : Span} (h : Finds m L) {k : Cont} (hk : GroupBlind k) :
    GroupBlind (fun q => m q k) := by
  intro before after g g'
  rw [Bool.eq_iff_iff, h _ k hk, h _ k hk]
  constructor
  · rintro ⟨w, rest, he, hL, hs⟩
    exact ⟨w, rest, he, hL, by rw [hk _ _ g' g]; exact hs⟩
  · rintro ⟨w, rest, he, hL, hs⟩
    exact ⟨w, rest, he, hL, by rw [hk _ _ g g']; exact hs⟩

/-- A matcher that hands its place on finds the empty text. -/
theorem finds_empty : Finds (fun p k => k p) (fun _ w _ => w = []) := by
  intro p k _
  constructor
  · intro hs
    exact ⟨[], p.after, rfl, rfl, hs⟩
  · rintro ⟨w, after, he, rfl, hs⟩
    rw [List.nil_append] at he
    subst he
    exact hs

/-- Matchers one after the other find spans one after the other. -/
theorem Finds.seq {m m' : Matcher} {L M : Span} (h : Finds m L) (h' : Finds m' M) :
    Finds (fun p k => m p (fun q => m' q k)) (Span.seq L M) := by
  intro p k hk
  rw [h p _ (h'.groupBlind hk)]
  constructor
  · rintro ⟨u, rest, he, hL, hs⟩
    obtain ⟨v, after, he', hM, hs'⟩ := (h' _ k hk).1 hs
    simp only at he'
    subst he'
    refine ⟨u ++ v, after, by rw [he, List.append_assoc], ⟨u, v, rfl, hL, hM⟩, ?_⟩
    rw [List.reverse_append, List.append_assoc]
    exact hs'
  · rintro ⟨w, after, he, ⟨u, v, rfl, hL, hM⟩, hs⟩
    refine ⟨u, v ++ after, by rw [he, List.append_assoc], hL, ?_⟩
    rw [h' _ k hk]
    refine ⟨v, after, rfl, hM, ?_⟩
    rw [List.reverse_append, List.append_assoc] at hs
    exact hs

/-- Some place is reached by one of two ways exactly if one is reached by the first or by the second. -/
theorem isSome_orElse {α : Type} (a b : Option α) : (a <|> b).isSome = (a.isSome || b.isSome) := by
  cases a <;> rfl

/-! ## Rounds -/

/-- Rounds, and then further rounds. -/
theorem rounds_add (L : Span) (m n : Nat) (before w after : Text) :
    Rounds L (m + n) before w after ↔ Span.seq (Rounds L m) (Rounds L n) before w after := by
  induction m generalizing before w with
  | zero =>
    rw [Nat.zero_add]
    constructor
    · intro h
      exact ⟨[], w, rfl, rfl, h⟩
    · rintro ⟨u, v, rfl, rfl, h⟩
      exact h
  | succ m ih =>
    rw [Nat.succ_add]
    constructor
    · rintro ⟨u, v, rfl, hL, hr⟩
      obtain ⟨u', v', rfl, hm, hn⟩ := (ih _ _).1 hr
      refine ⟨u ++ u', v', by rw [List.append_assoc], ⟨u, u', rfl, by rw [← List.append_assoc]; exact hL, hm⟩, ?_⟩
      rw [List.reverse_append, List.append_assoc]
      exact hn
    · rintro ⟨_, v', rfl, ⟨u, u', rfl, hL, hm⟩, hn⟩
      refine ⟨u, u' ++ v', by rw [List.append_assoc], by rw [List.append_assoc]; exact hL, (ih _ _).2 ⟨u', v', rfl, hm, ?_⟩⟩
      rw [List.reverse_append, List.append_assoc] at hn
      exact hn

/-- A span that takes something. -/
def Span.proper (L : Span) : Span := fun before w after => w ≠ [] ∧ L before w after

/-- Rounds that take nothing can be left out, and then there are at most as many rounds as characters. -/
theorem rounds_proper {L : Span} {n : Nat} {before w after : Text} (h : Rounds L n before w after) :
    ∃ i, i ≤ n ∧ i ≤ w.length ∧ Rounds L.proper i before w after := by
  induction n generalizing before w with
  | zero => exact ⟨0, Nat.le_refl _, Nat.zero_le _, h⟩
  | succ n ih =>
    obtain ⟨u, v, rfl, hL, hr⟩ := h
    obtain ⟨i, hi, hlen, hp⟩ := ih hr
    cases u with
    | nil => exact ⟨i, Nat.le_succ_of_le hi, hlen, hp⟩
    | cons c u =>
      refine ⟨i + 1, Nat.succ_le_succ hi, ?_, c :: u, v, rfl, ⟨List.cons_ne_nil _ _, hL⟩, hp⟩
      simp only [List.length_append, List.length_cons]
      omega

/-- A fixed number of rounds of a matcher finds that number of rounds of its span. -/
theorem finds_exactly {m : Matcher} {L : Span} (h : Finds m L) (n : Nat) : Finds (exactly m n) (Rounds L n) := by
  induction n with
  | zero => exact finds_empty
  | succ n ih => exact h.seq ih

/-- Further rounds do not look at captures, if neither a round nor what comes after does. -/
theorem upToGreedy_groupBlind {m : Matcher} {L : Span} (h : Finds m L) {k : Cont} (hk : GroupBlind k) (n : Nat) :
    ∀ last, GroupBlind (fun q => upToGreedy m n last q k) := by
  induction n with
  | zero =>
    intro last
    exact hk
  | succ n ih =>
    intro last before after g g'
    have hround := h.groupBlind (ih (some after.length)) before after g g'
    simp only [upToGreedy]
    split
    · exact hk before after g g'
    · rw [isSome_orElse, isSome_orElse, hround, hk before after g g']

/-- What further rounds find is a number of rounds within the bound. -/
theorem rounds_of_upToGreedy {m : Matcher} {L : Span} (h : Finds m L) {k : Cont} (hk : GroupBlind k) (n : Nat) :
    ∀ (last : Option Nat) (p : Place), (upToGreedy m n last p k).isSome = true →
      ∃ i, i ≤ n ∧ ∃ w after, p.after = w ++ after ∧ Rounds L i p.before w after ∧
        (k ⟨w.reverse ++ p.before, after, p.groups⟩).isSome = true := by
  induction n with
  | zero =>
    intro last p hs
    exact ⟨0, Nat.le_refl _, [], p.after, rfl, rfl, hs⟩
  | succ n ih =>
    intro last p hs
    have none_more (hs : (k p).isSome = true) : ∃ i, i ≤ n + 1 ∧ ∃ w after, p.after = w ++ after ∧
        Rounds L i p.before w after ∧ (k ⟨w.reverse ++ p.before, after, p.groups⟩).isSome = true :=
      ⟨0, Nat.zero_le _, [], p.after, rfl, rfl, hs⟩
    simp only [upToGreedy] at hs
    split at hs
    · exact none_more hs
    · rw [isSome_orElse, Bool.or_eq_true] at hs
      rcases hs with hs | hs
      · obtain ⟨u, rest, he, hL, hs⟩ := (h p _ (upToGreedy_groupBlind h hk n _)).1 hs
        obtain ⟨i, hi, v, after, he', hr, hs⟩ := ih _ _ hs
        simp only at he'
        subst he'
        refine ⟨i + 1, Nat.succ_le_succ hi, u ++ v, after, by rw [he, List.append_assoc], ⟨u, v, rfl, hL, hr⟩, ?_⟩
        rw [List.reverse_append, List.append_assoc]
        exact hs
      · exact none_more hs

/-- Rounds that take something are found, within the bound: none of them starts where the last one did. -/
theorem upToGreedy_of_rounds {m : Matcher} {L : Span} (h : Finds m L) {k : Cont} (hk : GroupBlind k) (n : Nat) :
    ∀ (i : Nat) (last : Option Nat) (p : Place) (w after : Text), i ≤ n → (last = some p.after.length → i = 0) →
      p.after = w ++ after → Rounds L.proper i p.before w after →
      (k ⟨w.reverse ++ p.before, after, p.groups⟩).isSome = true → (upToGreedy m n last p k).isSome = true := by
  induction n with
  | zero =>
    intro i last p w after hi _ he hr hs
    obtain rfl : i = 0 := by omega
    obtain rfl : w = [] := hr
    rw [List.nil_append] at he
    subst he
    exact hs
  | succ n ih =>
    intro i last p w after hi hlast he hr hs
    simp only [upToGreedy]
    cases i with
    | zero =>
      obtain rfl : w = [] := hr
      rw [List.nil_append] at he
      subst he
      split
      · exact hs
      · rw [isSome_orElse, Bool.or_eq_true]
        exact Or.inr hs
    | succ i =>
      rw [if_neg (fun hl => by have := hlast hl; omega), isSome_orElse, Bool.or_eq_true]
      obtain ⟨u, v, rfl, ⟨hne, hL⟩, hr⟩ := hr
      left
      rw [h p _ (upToGreedy_groupBlind h hk n _)]
      refine ⟨u, v ++ after, by rw [he, List.append_assoc], hL, ?_⟩
      refine ih i _ _ v after (by omega) ?_ rfl hr ?_
      · intro hl
        have hpos : 0 < u.length := List.length_pos_iff.2 hne
        simp only [he, Option.some.injEq, List.length_append] at hl
        omega
      · rw [List.reverse_append, List.append_assoc] at hs
        exact hs

/-! ## Nodes -/

/-- A node takes what a repetition of it takes, the least number of rounds first. -/
theorem finds_repeated {m : Matcher} {L : Span} (h : Finds m L) (least : Nat) (most : Option Nat)
    (hm : ∀ b, most = some b → least ≤ b) :
    Finds (fun p k => exactly m least p (fun q => upToGreedy m (furtherRounds least most q) none q k))
      (fun before w after => ∃ n, least ≤ n ∧ (∀ b, most = some b → n ≤ b) ∧ Rounds L n before w after) := by
  intro p k hk
  have hblind : GroupBlind (fun q => upToGreedy m (furtherRounds least most q) none q k) := by
    intro before after g g'
    exact upToGreedy_groupBlind h hk _ none before after g g'
  rw [finds_exactly h least p _ hblind]
  constructor
  · rintro ⟨u, rest, he, hu, hs⟩
    obtain ⟨i, hi, v, after, he', hv, hs⟩ := rounds_of_upToGreedy h hk _ _ _ hs
    simp only at he'
    subst he'
    refine ⟨u ++ v, after, by rw [he, List.append_assoc], ⟨least + i, Nat.le_add_right _ _, ?_, ?_⟩, ?_⟩
    · intro b hb
      have := hm b hb
      simp only [furtherRounds, hb] at hi
      omega
    · exact (rounds_add L least i _ _ _).2 ⟨u, v, rfl, hu, hv⟩
    · rw [List.reverse_append, List.append_assoc]
      exact hs
  · rintro ⟨w, after, he, ⟨n, hn, hb, hr⟩, hs⟩
    obtain ⟨j, rfl⟩ : ∃ j, n = least + j := ⟨n - least, by omega⟩
    obtain ⟨u, v, rfl, hu, hv⟩ := (rounds_add L least j _ _ _).1 hr
    obtain ⟨i, hi, hlen, hp⟩ := rounds_proper hv
    refine ⟨u, v ++ after, by rw [he, List.append_assoc], hu, ?_⟩
    refine upToGreedy_of_rounds h hk _ i none _ v after ?_ (fun hl => nomatch hl) rfl hp ?_
    · cases hmost : most with
      | none =>
        simp only [furtherRounds, List.length_append]
        omega
      | some b =>
        have := hb b hmost
        simp only [furtherRounds]
        omega
    · rw [List.reverse_append, List.append_assoc] at hs
      exact hs

/-- Matching a regular node finds what it takes. -/
theorem finds_run (n : Node) (hn : n.Regular) : Finds n.run n.Takes := by
  induction n with
  | empty => exact finds_empty
  | one set =>
    intro p k _
    simp only [Node.run, Node.Takes]
    constructor
    · intro hs
      split at hs
      · cases hs
      · rename_i c rest he
        split at hs
        · rename_i hc
          exact ⟨[c], rest, he, ⟨c, rfl, hc⟩, hs⟩
        · cases hs
    · rintro ⟨_, after, he, ⟨c, rfl, hc⟩, hs⟩
      rw [he]
      simp only [List.cons_append, List.nil_append, hc, if_true]
      exact hs
  | anchor a =>
    intro p k _
    have hmeets : Place.meets ⟨p.before, p.after, []⟩ a = p.meets a := by cases a <;> rfl
    simp only [Node.run, Node.Takes]
    constructor
    · intro hs
      split at hs
      · rename_i ha
        exact ⟨[], p.after, rfl, ⟨rfl, by rw [hmeets]; exact ha⟩, hs⟩
      · cases hs
    · rintro ⟨w, after, he, ⟨rfl, ha⟩, hs⟩
      rw [List.nil_append] at he
      subst he
      rw [hmeets] at ha
      rw [if_pos ha]
      exact hs
  | seq a b iha ihb => exact (iha hn.1).seq (ihb hn.2)
  | alt a b iha ihb =>
    intro p k hk
    simp only [Node.run, Node.Takes, isSome_orElse, Bool.or_eq_true, iha hn.1 p k hk, ihb hn.2 p k hk]
    constructor
    · rintro (⟨w, after, he, hL, hs⟩ | ⟨w, after, he, hL, hs⟩)
      · exact ⟨w, after, he, Or.inl hL, hs⟩
      · exact ⟨w, after, he, Or.inr hL, hs⟩
    · rintro ⟨w, after, he, hL | hL, hs⟩
      · exact Or.inl ⟨w, after, he, hL, hs⟩
      · exact Or.inr ⟨w, after, he, hL, hs⟩
  | repeated greed least most body ih =>
    cases greed with
    | greedy => exact finds_repeated (ih hn.2) least most hn.1
    | lazy => exact hn.elim
    | possessive => exact hn.elim
  | group index body ih =>
    cases index with
    | none => exact ih hn
    | some i =>
      intro p k hk
      -- the capture changes nothing that the continuation can see
      have hblind : GroupBlind (fun q => k (Place.capture i p q)) := fun before after _ _ => hk before after _ _
      have hcapture : ∀ before after g, (k (Place.capture i p ⟨before, after, g⟩)).isSome = (k ⟨before, after, g⟩).isSome :=
        fun before after g => hk before after _ g
      simp only [Node.run, Node.Takes]
      rw [ih hn p _ hblind]
      simp only [hcapture]
  | backref => exact hn.elim
  | ahead => exact hn.elim
  | behind => exact hn.elim
  | atomic => exact hn.elim
  | cond => exact hn.elim

/-! ## Searching -/

/-- A regular node matches at a place exactly if it takes a beginning of what is to come. -/
theorem matchAt_isSome_iff {n : Node} (hn : n.Regular) (before s : Text) :
    (n.matchAt before s).isSome = true ↔ ∃ w after, s = w ++ after ∧ n.Takes before w after := by
  unfold Node.matchAt
  rw [Option.isSome_map, finds_run n hn _ _ (fun _ _ _ _ => rfl)]
  constructor
  · rintro ⟨w, after, he, hL, _⟩
    exact ⟨w, after, he, hL⟩
  · rintro ⟨w, after, he, hL⟩
    exact ⟨w, after, he, hL, rfl⟩

theorem searchFrom_isSome_iff {n : Node} (hn : n.Regular) (before s : Text) :
    (n.searchFrom before s).isSome = true ↔
      ∃ pre w after, s = pre ++ (w ++ after) ∧ n.Takes (pre.reverse ++ before) w after := by
  induction s generalizing before with
  | nil =>
    unfold Node.searchFrom
    rw [matchAt_isSome_iff hn]
    constructor
    · rintro ⟨w, after, he, hL⟩
      exact ⟨[], w, after, he, hL⟩
    · rintro ⟨pre, w, after, he, hL⟩
      obtain ⟨rfl, hnil⟩ := List.append_eq_nil_iff.1 he.symm
      exact ⟨w, after, hnil.symm, hL⟩
  | cons c s ih =>
    have hsplit : (n.searchFrom before (c :: s)).isSome =
        ((n.matchAt before (c :: s)).isSome || (n.searchFrom (c :: before) s).isSome) := by
      rw [Node.searchFrom]
      cases n.matchAt before (c :: s) <;> rfl
    rw [hsplit, Bool.or_eq_true, matchAt_isSome_iff hn, ih]
    constructor
    · rintro (⟨w, after, he, hL⟩ | ⟨pre, w, after, he, hL⟩)
      · exact ⟨[], w, after, he, hL⟩
      · refine ⟨c :: pre, w, after, by rw [he]; rfl, ?_⟩
        rw [List.reverse_cons, List.append_assoc]
        exact hL
    · rintro ⟨pre, w, after, he, hL⟩
      cases pre with
      | nil => exact Or.inl ⟨w, after, he, hL⟩
      | cons d pre =>
        rw [List.cons_append] at he
        obtain ⟨rfl, rfl⟩ := List.cons.inj he
        rw [List.reverse_cons, List.append_assoc] at hL
        exact Or.inr ⟨pre, w, after, rfl, hL⟩

/-- A regular node is found in a text exactly if it takes some part of it. -/
theorem search?_isSome_iff {n : Node} (hn : n.Regular) (s : Text) :
    (n.search? s).isSome = true ↔ ∃ pre w after, s = pre ++ (w ++ after) ∧ n.Takes pre.reverse w after := by
  unfold Node.search?
  rw [searchFrom_isSome_iff hn]
  simp only [List.append_nil]

end StepCatalog.Regex
