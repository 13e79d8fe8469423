import StepCatalog.Proofs.Regex.Meaning
import StepCatalog.Regex.Reader

/-!
# What a pattern writes

Reading a pattern is a fold over its characters, so what a text adds to a draft can be said text by text: `Writes s L` says that
reading `s` wherever an item may begin adds items that together take `L`, and `WritesChoice s L` says the same of alternatives
with bars between them. Both are closed under the ways in which patterns are put together, so that a pattern never has to be read
as a whole.

A quantifier stays open to the mark behind it. `Draft.steady` settles it, and what follows sees no difference as long as it does
not begin with such a mark (`Fresh`).

Main statement: `ofText?_of_writesChoice` (a text that writes a choice is a regular expression, and it takes just that).
-/

namespace StepCatalog.Regex

/-! ## Sequences and choices of nodes -/

/-- What nodes take one after the other. -/
def SeqTakes : List Node → Span
  | [] => fun _ w _ => w = []
  | n :: ns => Span.seq n.Takes (SeqTakes ns)

theorem seq_nil_right (L : Span) (before w after : Text) :
    Span.seq L (fun _ v _ => v = []) before w after ↔ L before w after := by
  constructor
  · rintro ⟨u, _, rfl, hL, rfl⟩
    rw [List.append_nil]
    exact hL
  · intro hL
    exact ⟨w, [], (List.append_nil w).symm, hL, rfl⟩

theorem seq_nil_left (L : Span) (before w after : Text) :
    Span.seq (fun _ v _ => v = []) L before w after ↔ L before w after := by
  constructor
  · rintro ⟨_, v, rfl, rfl, hL⟩
    exact hL
  · intro hL
    exact ⟨[], w, rfl, rfl, hL⟩

theorem seq_assoc (L M N : Span) (before w after : Text) :
    Span.seq (Span.seq L M) N before w after ↔ Span.seq L (Span.seq M N) before w after := by
  constructor
  · rintro ⟨_, x, rfl, ⟨u, v, rfl, hL, hM⟩, hN⟩
    rw [← List.append_assoc] at hL
    rw [List.reverse_append, List.append_assoc] at hN
    exact ⟨u, v ++ x, by rw [List.append_assoc], hL, v, x, rfl, hM, hN⟩
  · rintro ⟨u, _, rfl, hL, v, x, rfl, hM, hN⟩
    rw [List.append_assoc] at hL
    refine ⟨u ++ v, x, by rw [List.append_assoc], ⟨u, v, rfl, hL, hM⟩, ?_⟩
    rw [List.reverse_append, List.append_assoc]
    exact hN

/-- Spans that agree can take each other's place in a sequence. -/
theorem seq_congr {L L' M M' : Span} (hL : ∀ before w after, L before w after ↔ L' before w after)
    (hM : ∀ before w after, M before w after ↔ M' before w after) (before w after : Text) :
    Span.seq L M before w after ↔ Span.seq L' M' before w after := by
  simp only [Span.seq, hL, hM]

theorem seqTakes_append (ns ms : List Node) (before w after : Text) :
    SeqTakes (ns ++ ms) before w after ↔ Span.seq (SeqTakes ns) (SeqTakes ms) before w after := by
  induction ns generalizing before w with
  | nil => exact (seq_nil_left _ _ _ _).symm
  | cons n ns ih =>
    refine Iff.trans ?_ (seq_assoc _ _ _ _ _ _).symm
    constructor
    · rintro ⟨u, v, rfl, hn, hr⟩
      exact ⟨u, v, rfl, hn, (ih _ _).1 hr⟩
    · rintro ⟨u, v, rfl, hn, hr⟩
      exact ⟨u, v, rfl, hn, (ih _ _).2 hr⟩

theorem ofSeq_takes (ns : List Node) (before w after : Text) :
    (Node.ofSeq ns).Takes before w after ↔ SeqTakes ns before w after := by
  induction ns generalizing before w with
  | nil => exact Iff.rfl
  | cons n ns ih =>
    cases ns with
    | nil => exact (seq_nil_right _ _ _ _).symm
    | cons m ms =>
      constructor
      · rintro ⟨u, v, rfl, hn, hr⟩
        exact ⟨u, v, rfl, hn, (ih _ _).1 hr⟩
      · rintro ⟨u, v, rfl, hn, hr⟩
        exact ⟨u, v, rfl, hn, (ih _ _).2 hr⟩

theorem ofSeq_regular {ns : List Node} (h : ∀ n ∈ ns, n.Regular) : (Node.ofSeq ns).Regular := by
  induction ns with
  | nil => trivial
  | cons n ns ih =>
    cases ns with
    | nil => exact h n (by simp)
    | cons m ms => exact ⟨h n (by simp), ih fun x hx => h x (List.mem_cons_of_mem _ hx)⟩

theorem ofAlts_takes {ns : List Node} (hne : ns ≠ []) (before w after : Text) :
    (Node.ofAlts ns).Takes before w after ↔ ∃ n ∈ ns, n.Takes before w after := by
  induction ns with
  | nil => exact absurd rfl hne
  | cons n ns ih =>
    cases ns with
    | nil => simp [Node.ofAlts]
    | cons m ms =>
      have := ih (List.cons_ne_nil _ _)
      simp only [Node.ofAlts, Node.Takes] at this ⊢
      rw [this]
      simp only [List.mem_cons, exists_eq_or_imp]

theorem ofAlts_regular {ns : List Node} (h : ∀ n ∈ ns, n.Regular) : (Node.ofAlts ns).Regular := by
  induction ns with
  | nil => trivial
  | cons n ns ih =>
    cases ns with
    | nil => exact h n (by simp)
    | cons m ms => exact ⟨h n (by simp), ih fun x hx => h x (List.mem_cons_of_mem _ hx)⟩

/-! ## Drafts between two items -/

/-- The level with further items in its current alternative. -/
def Level.add (level : Level) (items : List Node) : Level := { level with items := items.reverse ++ level.items }

/-- The level with its current alternative finished. -/
def Level.next (level : Level) : Level :=
  { level with alternatives := level.current :: level.alternatives, items := [] }

namespace Draft

/-- The draft with an open quantifier taken as it stands. -/
def steady (d : Draft) : Draft :=
  match d.mode with
  | .quantified least most => d.repeatLast .greedy least most
  | _ => d

/-- The draft where the next item may begin, at another level and with other groups. -/
def grown (d : Draft) (level : Level) (groupCount : Nat) (widths : List (Nat × Width)) : Draft :=
  { d with mode := .item, level, groupCount, widths }

/-- An item may begin, no flag is set, and any number of alternatives may follow. -/
structure Ready (d : Draft) : Prop where
  mode : d.mode = .item
  flags : d.level.flags = {}
  template : d.template = false
  outer : ∀ i level, d.outer.head? ≠ some (.cond i, level)

/-- Growing keeps a draft ready. -/
theorem Ready.grown {d : Draft} (h : d.Ready) (level : Level) (hl : level.flags = {}) (count : Nat)
    (widths : List (Nat × Width)) : (d.grown level count widths).Ready :=
  ⟨rfl, hl, h.template, h.outer⟩

theorem ready_start : (start {}).Ready :=
  ⟨rfl, rfl, rfl, fun _ _ h => nomatch h⟩

/-- Inside a new parenthesis that is not a choice by a group, the draft is ready. -/
theorem Ready.enter {d : Draft} (h : d.Ready) {o : Opening} (ho : ∀ i, o ≠ .cond i) : (d.enter o d.level.flags).Ready := by
  refine ⟨rfl, h.flags, h.template, ?_⟩
  intro i level he
  simp only [Draft.enter, List.head?_cons, Option.some.injEq, Prod.mk.injEq] at he
  exact ho i he.1

/-- Where an item may begin, a character is read as one. -/
theorem feed_item {d : Draft} (h : d.mode = .item) (c : Char) : d.feed c = d.feedItem c := by
  obtain ⟨mode, _, _, _, _, _, _, _, _, _, _, _⟩ := d
  obtain rfl : mode = .item := h
  rfl

/-- A draft is steady, or it has a last item with an open quantifier. -/
theorem steady_cases (d : Draft) : d.steady = d ∨ ∃ least most n items, d.mode = .quantified least most ∧
    d.level.items = n :: items ∧
    d.steady = { d with mode := .item, level := { d.level with items := .repeated .greedy least most n :: items } } := by
  unfold steady
  split
  · rename_i least most hm
    unfold repeatLast
    split
    · exact Or.inl rfl
    · rename_i n items hi
      exact Or.inr ⟨least, most, n, items, hm, hi, rfl⟩
  · exact Or.inl rfl

theorem steady_steady (d : Draft) : d.steady.steady = d.steady := by
  rcases steady_cases d with h | ⟨least, most, n, items, _, _, h⟩
  · rw [h, h]
  · rw [h]
    rfl

/-- A character that is no mark of a quantifier is read alike before and after the quantifier is settled. -/
theorem feed_steady (d : Draft) {c : Char} (h1 : c ≠ '?') (h2 : c ≠ '+') : d.steady.feed c = d.feed c := by
  rcases steady_cases d with h | ⟨least, most, n, items, hm, hi, h⟩
  · rw [h]
  · have hfeed : d.feed c = (d.repeatLast .greedy least most).feedItem c := by
      unfold feed
      rw [hm]
      simp only
    rw [hfeed, h, feed_item rfl, repeatLast, hi]

/-- The end of the pattern is read alike before and after the quantifier is settled. -/
theorem finish_steady (d : Draft) : d.steady.finish = d.finish := by
  rcases steady_cases d with h | ⟨least, most, n, items, hm, hi, h⟩
  · rw [h]
  · have hs : d.settle = d.steady.settle := by
      rw [h]
      unfold settle
      rw [hm]
      simp only
      rw [repeatLast, hi]
    unfold finish
    rw [hs]

/-! ## Reading texts one after the other -/

theorem feedAll_append (d : Draft) (s t : Text) : d.feedAll (s ++ t) = d.feedAll s >>= (·.feedAll t) := by
  unfold feedAll
  rw [List.foldlM_append]

theorem feedAll_cons (d : Draft) (c : Char) (s : Text) : d.feedAll (c :: s) = d.feed c >>= (·.feedAll s) := rfl

theorem feedAll_append_of_ok {d e : Draft} {s : Text} (h : d.feedAll s = .ok e) (t : Text) :
    d.feedAll (s ++ t) = e.feedAll t := by
  rw [feedAll_append, h]
  rfl

theorem feedAll_cons_of_ok {d e : Draft} {c : Char} (h : d.feed c = .ok e) (s : Text) :
    d.feedAll (c :: s) = e.feedAll s := by
  rw [feedAll_cons, h]
  rfl

end Draft

/-- A text that leaves a quantifier in front of it as it is. -/
def Fresh (s : Text) : Prop := ∀ c, s.head? = some c → c ≠ '?' ∧ c ≠ '+'

instance (s : Text) : Decidable (Fresh s) :=
  match s with
  | [] => isTrue nofun
  | c :: _ => decidable_of_iff (c ≠ '?' ∧ c ≠ '+') (by simp [Fresh])

theorem Fresh.append {s t : Text} (hs : Fresh s) (ht : Fresh t) : Fresh (s ++ t) := by
  cases s with
  | nil => exact ht
  | cons c s => exact hs

/-- Reading on from a draft, and reading on from it with its quantifier settled, end alike. -/
theorem Draft.feedAll_steady {d f : Draft} {t : Text} (ht : Fresh t) (h : d.steady.feedAll t = .ok f) :
    ∃ e, d.feedAll t = .ok e ∧ e.steady = f.steady := by
  cases t with
  | nil =>
    obtain rfl : d.steady = f := Except.ok.inj h
    exact ⟨d, rfl, (Draft.steady_steady d).symm⟩
  | cons c t =>
    obtain ⟨h1, h2⟩ := ht c rfl
    rw [Draft.feedAll_cons, Draft.feed_steady d h1 h2, ← Draft.feedAll_cons] at h
    exact ⟨f, h, rfl⟩

/-! ## Characters that open something -/

theorem feed_backslash {d : Draft} (hd : d.Ready) : d.feed '\\' = .ok { d with mode := .escape .sequence } := by
  rw [Draft.feed_item hd.mode]
  unfold Draft.feedItem
  rw [hd.flags]
  rfl

theorem feed_bracket {d : Draft} (hd : d.Ready) : d.feed '[' = .ok { d with mode := .set {} .opened } := by
  rw [Draft.feed_item hd.mode]
  unfold Draft.feedItem
  rw [hd.flags]
  rfl

theorem feed_paren {d : Draft} (hd : d.Ready) : d.feed '(' = .ok { d with mode := .paren } := by
  rw [Draft.feed_item hd.mode]
  unfold Draft.feedItem
  rw [hd.flags]
  rfl

/-! ## Items -/

/-- Reading the text where an item may begin adds items that together take `L`. -/
def Writes (s : Text) (L : Span) : Prop :=
  ∀ d : Draft, d.Ready → ∃ (e : Draft) (items : List Node) (count : Nat) (widths : List (Nat × Width)),
    d.feedAll s = .ok e ∧ e.steady = d.grown (d.level.add items) count widths ∧
    (∀ n ∈ items, n.Regular) ∧ ∀ before w after, SeqTakes items before w after ↔ L before w after

theorem Writes.congr {s : Text} {L M : Span} (h : Writes s L) (hLM : ∀ before w after, L before w after ↔ M before w after) :
    Writes s M := by
  intro d hd
  obtain ⟨e, items, count, widths, h1, h2, h3, h4⟩ := h d hd
  exact ⟨e, items, count, widths, h1, h2, h3, fun before w after => (h4 before w after).trans (hLM before w after)⟩

theorem writes_nil : Writes [] (fun _ w _ => w = []) := by
  intro d hd
  refine ⟨d, [], d.groupCount, d.widths, rfl, ?_, by simp, fun _ _ _ => Iff.rfl⟩
  obtain ⟨mode, level, _, _, _, _, _, _, _, _, _, _⟩ := d
  obtain rfl : mode = .item := hd.mode
  rfl

/-- Texts one after the other write their items one after the other. -/
theorem Writes.append {s t : Text} {L M : Span} (hs : Writes s L) (ht : Writes t M) (hf : Fresh t) :
    Writes (s ++ t) (Span.seq L M) := by
  intro d hd
  obtain ⟨e, items, count, widths, h1, h2, h3, h4⟩ := hs d hd
  have hready : e.steady.Ready := by
    rw [h2]
    exact hd.grown (d.level.add items) hd.flags count widths
  obtain ⟨f, items', count', widths', h1', h2', h3', h4'⟩ := ht e.steady hready
  obtain ⟨g, hg, hgf⟩ := Draft.feedAll_steady hf h1'
  refine ⟨g, items ++ items', count', widths', by rw [Draft.feedAll_append_of_ok h1, hg], ?_, ?_, ?_⟩
  · rw [hgf, h2', h2]
    simp only [Draft.grown, Level.add, List.reverse_append, List.append_assoc]
  · intro n hn
    rcases List.mem_append.1 hn with hn | hn
    · exact h3 n hn
    · exact h3' n hn
  · intro before w after
    rw [seqTakes_append]
    exact seq_congr h4 h4' before w after

/-- A single item, from a single character. -/
theorem writes_of_push {c : Char} {n : Node} (hn : n.Regular) (h : ∀ d : Draft, d.Ready → d.feed c = .ok (d.push n)) :
    Writes [c] n.Takes := by
  intro d hd
  refine ⟨d.push n, [n], d.groupCount, d.widths, ?_, rfl, ?_, fun _ _ _ => seq_nil_right _ _ _ _⟩
  · rw [Draft.feedAll_cons, h d hd]
    rfl
  · intro m hm
    rw [List.mem_singleton] at hm
    subst hm
    exact hn

/-- Reading the text where an item may begin adds one set of characters. -/
def WritesSet (s : Text) (set : CharSet) : Prop := ∀ d : Draft, d.Ready → d.feedAll s = .ok (d.push (.one set))

theorem WritesSet.writes {s : Text} {set : CharSet} (h : WritesSet s set) : Writes s (Node.one set).Takes := by
  intro d hd
  refine ⟨d.push (.one set), [.one set], d.groupCount, d.widths, h d hd, rfl, ?_, fun _ _ _ => seq_nil_right _ _ _ _⟩
  intro m hm
  rw [List.mem_singleton] at hm
  subst hm
  trivial

/-- Rounds of one set take as many characters of the set. -/
theorem rounds_one (set : CharSet) (n : Nat) (before w after : Text) :
    Rounds (Node.one set).Takes n before w after ↔ w.length = n ∧ ∀ c ∈ w, set.holds c = true := by
  induction n generalizing before w with
  | zero =>
    constructor
    · intro h
      obtain rfl : w = [] := h
      simp
    · intro h
      exact List.eq_nil_of_length_eq_zero h.1
  | succ n ih =>
    constructor
    · rintro ⟨_, v, rfl, ⟨c, rfl, hc⟩, hr⟩
      obtain ⟨hlen, hall⟩ := (ih _ _).1 hr
      refine ⟨by simp [hlen], ?_⟩
      intro x hx
      rcases List.mem_cons.1 hx with rfl | hx
      · exact hc
      · exact hall x hx
    · rintro ⟨hlen, hall⟩
      cases w with
      | nil => cases hlen
      | cons c v =>
        refine ⟨[c], v, rfl, ⟨c, rfl, hall c (by simp)⟩, (ih _ _).2 ⟨?_, fun x hx => hall x (List.mem_cons_of_mem _ hx)⟩⟩
        simpa using hlen

/-- Characters of a set, within bounds on their number. -/
def Many (set : CharSet) (least : Nat) (most : Option Nat) : Span := fun _ w _ =>
  least ≤ w.length ∧ (∀ m, most = some m → w.length ≤ m) ∧ ∀ c ∈ w, set.holds c = true

theorem repeated_one_takes (set : CharSet) (greed : Greed) (least : Nat) (most : Option Nat) (before w after : Text) :
    (Node.repeated greed least most (.one set)).Takes before w after ↔ Many set least most before w after := by
  constructor
  · rintro ⟨n, h1, h2, hr⟩
    obtain ⟨rfl, h3⟩ := (rounds_one set n before w after).1 hr
    exact ⟨h1, h2, h3⟩
  · rintro ⟨h1, h2, h3⟩
    exact ⟨w.length, h1, h2, (rounds_one set _ before w after).2 ⟨rfl, h3⟩⟩

/-- The last item of a draft under a quantifier. -/
theorem feedAll_quantifier {d : Draft} (hd : d.Ready) {n : Node} {items : List Node} (hi : d.level.items = n :: items)
    (ha : ∀ a, n ≠ .anchor a) (hr : ∀ g l m b, n ≠ .repeated g l m b) {mark : Char} {least : Nat} {most : Option Nat}
    (hmark : ∀ d : Draft, d.Ready → d.feed mark = d.quantify least most) :
    ∃ e, d.feedAll [mark] = .ok e ∧ e.steady =
      d.grown { d.level with items := .repeated .greedy least most n :: items } d.groupCount d.widths := by
  refine ⟨{ d with mode := .quantified least most, misfit := d.misfit || d.template }, ?_, ?_⟩
  · rw [Draft.feedAll_cons, hmark d hd]
    unfold Draft.quantify
    rw [hi]
    cases n with
    | anchor a => exact absurd rfl (ha a)
    | repeated g l m b => exact absurd rfl (hr g l m b)
    | _ => rfl
  · unfold Draft.steady Draft.repeatLast
    simp only
    rw [hi]
    simp only [hd.template, Bool.or_false, Draft.grown]

theorem feed_question (d : Draft) (hd : d.Ready) : d.feed '?' = d.quantify 0 (some 1) := by
  rw [Draft.feed_item hd.mode, Draft.feedItem, hd.flags]
  rfl

theorem feed_star (d : Draft) (hd : d.Ready) : d.feed '*' = d.quantify 0 none := by
  rw [Draft.feed_item hd.mode, Draft.feedItem, hd.flags]
  rfl

theorem feed_plus (d : Draft) (hd : d.Ready) : d.feed '+' = d.quantify 1 none := by
  rw [Draft.feed_item hd.mode, Draft.feedItem, hd.flags]
  rfl

/-- A set with a quantifier behind it. -/
theorem WritesSet.quantified {s : Text} {set : CharSet} (h : WritesSet s set) {mark : Char} {least : Nat} {most : Option Nat}
    (hmark : ∀ d : Draft, d.Ready → d.feed mark = d.quantify least most) (hm : ∀ m, most = some m → least ≤ m) :
    Writes (s ++ [mark]) (Many set least most) := by
  intro d hd
  have hready : (d.push (.one set)).Ready := ⟨rfl, hd.flags, hd.template, hd.outer⟩
  obtain ⟨e, h1, h2⟩ := feedAll_quantifier hready rfl nofun nofun hmark
  refine ⟨e, [.repeated .greedy least most (.one set)], d.groupCount, d.widths, ?_, h2, ?_, ?_⟩
  · rw [Draft.feedAll_append_of_ok (h d hd), h1]
  · intro n hn
    rw [List.mem_singleton] at hn
    subst hn
    exact ⟨hm, trivial⟩
  · intro before w after
    rw [← repeated_one_takes set .greedy]
    exact seq_nil_right _ _ _ _

/-! ## Alternatives and groups -/

/-- Reading the text where the first item of an alternative may begin gives alternatives of which one takes `L`. -/
def WritesChoice (s : Text) (L : Span) : Prop :=
  ∀ d : Draft, d.Ready → d.level.items = [] →
    ∃ (e : Draft) (level : Level) (choices : List Node) (count : Nat) (widths : List (Nat × Width)),
      d.feedAll s = .ok e ∧ e.steady = d.grown level count widths ∧ level.flags = {} ∧
      (level.current :: level.alternatives).reverse = d.level.alternatives.reverse ++ choices ∧ choices ≠ [] ∧
      (∀ n ∈ choices, n.Regular) ∧ ∀ before w after, (∃ n ∈ choices, n.Takes before w after) ↔ L before w after

theorem WritesChoice.congr {s : Text} {L M : Span} (h : WritesChoice s L)
    (hLM : ∀ before w after, L before w after ↔ M before w after) : WritesChoice s M := by
  intro d hd hi
  obtain ⟨e, level, choices, count, widths, h1, h2, h3, h4, h5, h6, h7⟩ := h d hd hi
  exact ⟨e, level, choices, count, widths, h1, h2, h3, h4, h5, h6,
    fun before w after => (h7 before w after).trans (hLM before w after)⟩

/-- Items alone are a single alternative. -/
theorem Writes.choice {s : Text} {L : Span} (h : Writes s L) : WritesChoice s L := by
  intro d hd hi
  obtain ⟨e, items, count, widths, h1, h2, h3, h4⟩ := h d hd
  refine ⟨e, d.level.add items, [Node.ofSeq items], count, widths, h1, h2, hd.flags, ?_, List.cons_ne_nil _ _, ?_, ?_⟩
  · simp [Level.current, Level.add, hi]
  · intro n hn
    rw [List.mem_singleton] at hn
    subst hn
    exact ofSeq_regular h3
  · intro before w after
    simp only [List.mem_singleton, exists_eq_left, ofSeq_takes]
    exact h4 before w after

/-- A bar ends the current alternative. -/
theorem feed_bar {d : Draft} (hd : d.Ready) : d.feed '|' = .ok (d.grown d.level.next d.groupCount d.widths) := by
  have hnext : d.feed '|' = d.nextAlternative := by
    rw [Draft.feed_item hd.mode]
    unfold Draft.feedItem
    rw [hd.flags]
    rfl
  rw [hnext]
  unfold Draft.nextAlternative
  split
  · rename_i i level rest _ _ ho _
    exact absurd (by rw [ho]; rfl) (hd.outer i level)
  · unfold Draft.grown
    rw [hd.mode]
    rfl

/-- One of two spans. -/
def Span.or (L M : Span) : Span := fun before w after => L before w after ∨ M before w after

/-- An alternative, a bar, and further alternatives. -/
theorem Writes.bar {s t : Text} {L M : Span} (hs : Writes s L) (ht : WritesChoice t M) :
    WritesChoice (s ++ '|' :: t) (L.or M) := by
  intro d hd hi
  obtain ⟨e, items, count, widths, h1, h2, h3, h4⟩ := hs d hd
  have hready : (d.grown (d.level.add items) count widths).Ready := hd.grown (d.level.add items) hd.flags _ _
  have hbar : e.feed '|' = .ok (d.grown (d.level.add items).next count widths) := by
    rw [← Draft.feed_steady e (by decide) (by decide), h2]
    exact feed_bar hready
  obtain ⟨f, level, choices, count', widths', h1', h2', h3', h4', h5', h6', h7'⟩ :=
    ht (d.grown (d.level.add items).next count widths) (hd.grown (d.level.add items).next hd.flags _ _) rfl
  refine ⟨f, level, Node.ofSeq items :: choices, count', widths', ?_, h2', h3', ?_, List.cons_ne_nil _ _, ?_, ?_⟩
  · rw [Draft.feedAll_append_of_ok h1, Draft.feedAll_cons_of_ok hbar, h1']
  · rw [h4']
    simp [Draft.grown, Level.next, Level.add, Level.current, hi]
  · intro n hn
    rcases List.mem_cons.1 hn with rfl | hn
    · exact ofSeq_regular h3
    · exact h6' n hn
  · intro before w after
    simp only [Span.or, ← h4, ← h7', ← ofSeq_takes, List.mem_cons, exists_eq_or_imp]

/-- The index of a parenthesis that only groups. -/
def groupIndex? : Opening → Option (Option Nat)
  | .capture i => some (some i)
  | .plain => some none
  | _ => none

/-- A choice and a closing parenthesis, read inside a parenthesis that only groups, add one group around the choice. -/
theorem WritesChoice.closed {s : Text} {L : Span} (h : WritesChoice s L) {d : Draft} (hd : d.Ready) {o : Opening}
    {index : Option Nat} (ho : groupIndex? o = some index) :
    ∃ (body : Node) (count : Nat) (widths : List (Nat × Width)), body.Regular ∧
      (∀ before w after, body.Takes before w after ↔ L before w after) ∧
      (d.enter o d.level.flags).feedAll (s ++ [')']) =
        .ok (d.grown { d.level with items := .group index body :: d.level.items } count widths) := by
  have hready : (d.enter o d.level.flags).Ready := hd.enter (by rintro i rfl; cases ho)
  obtain ⟨e, level, choices, count, widths, h1, h2, h3, h4, h5, h6, h7⟩ := h _ hready rfl
  rw [show (d.enter o d.level.flags).level.alternatives = [] from rfl, List.reverse_nil, List.nil_append] at h4
  have hclose : e.feed ')' = (d.enter o d.level.flags |>.grown level count widths).close := by
    rw [← Draft.feed_steady e (by decide) (by decide), h2, Draft.feed_item rfl]
    unfold Draft.feedItem
    rw [show (d.enter o d.level.flags |>.grown level count widths).level.flags = {} from h3]
    rfl
  have hnode : level.node = Node.ofAlts choices := by
    unfold Level.node
    rw [h4]
  have hfeed : ∀ f, (d.enter o d.level.flags |>.grown level count widths).close = .ok f →
      (d.enter o d.level.flags).feedAll (s ++ [')']) = .ok f := by
    intro f hf
    rw [Draft.feedAll_append_of_ok h1, Draft.feedAll_cons, hclose, hf]
    rfl
  refine ⟨Node.ofAlts choices, count, ?_, ofAlts_regular h6, fun before w after => (ofAlts_takes h5 _ _ _).trans (h7 _ _ _), ?_⟩
  · exact match o with
      | .capture i => (i, (Node.ofAlts choices).width (d.enter o d.level.flags |>.grown level count widths).groupWidth) :: widths
      | _ => widths
  · rw [← hnode]
    cases o with
    | capture i =>
      obtain rfl : some i = index := Option.some.inj ho
      exact hfeed _ rfl
    | plain =>
      obtain rfl : none = index := Option.some.inj ho
      exact hfeed _ rfl
    | _ => cases ho

/-- A parenthesis with no question mark behind it opens a capturing group. -/
theorem feedAll_open {d : Draft} (hd : d.Ready) {c : Char} (hc : c ≠ '?') (s : Text) :
    d.feedAll ('(' :: c :: s) = d.enterGroup.feedAll (c :: s) := by
  have hnext : Draft.feed { d with mode := .paren } c = d.enterGroup.feed c := by
    rw [Draft.feed_item (d := d.enterGroup) rfl]
    exact if_neg hc
  rw [Draft.feedAll_cons_of_ok (feed_paren hd), Draft.feedAll_cons, hnext]
  rfl

/-- A choice in parentheses adds one group. -/
theorem WritesChoice.feedAll_group {s : Text} {L : Span} (h : WritesChoice s L) (hs : s.head? ≠ some '?') {d : Draft}
    (hd : d.Ready) :
    ∃ (body : Node) (index : Option Nat) (count : Nat) (widths : List (Nat × Width)), body.Regular ∧
      (∀ before w after, body.Takes before w after ↔ L before w after) ∧
      d.feedAll ('(' :: s ++ [')']) =
        .ok (d.grown { d.level with items := .group index body :: d.level.items } count widths) := by
  obtain ⟨body, count, widths, h1, h2, h3⟩ :=
    h.closed (d := { d with groupCount := d.groupCount + 1 }) ⟨hd.mode, hd.flags, hd.template, hd.outer⟩
      (o := .capture (d.groupCount + 1)) rfl
  refine ⟨body, some (d.groupCount + 1), count, widths, h1, h2, ?_⟩
  have hopen : d.feedAll ('(' :: s ++ [')']) = d.enterGroup.feedAll (s ++ [')']) := by
    cases s with
    | nil => exact feedAll_open hd (by decide) []
    | cons c s => exact feedAll_open hd (fun hc => hs (by rw [hc]; rfl)) _
  rw [hopen]
  exact h3

/-- A choice in parentheses takes what the choice takes. -/
theorem WritesChoice.group {s : Text} {L : Span} (h : WritesChoice s L) (hs : s.head? ≠ some '?') :
    Writes ('(' :: s ++ [')']) L := by
  intro d hd
  obtain ⟨body, index, count, widths, h1, h2, h3⟩ := h.feedAll_group hs hd
  refine ⟨_, [.group index body], count, widths, h3, rfl, ?_, fun before w after => ?_⟩
  · intro n hn
    rw [List.mem_singleton] at hn
    subst hn
    exact h1
  · rw [← h2]
    exact seq_nil_right _ _ _ _

/-- A choice in parentheses with a question mark behind it takes what the choice takes, or nothing. -/
theorem WritesChoice.optional {s : Text} {L : Span} (h : WritesChoice s L) (hs : s.head? ≠ some '?') :
    Writes (('(' :: s ++ [')']) ++ ['?']) (L.or fun _ w _ => w = []) := by
  intro d hd
  obtain ⟨body, index, count, widths, h1, h2, h3⟩ := h.feedAll_group hs hd
  have hready := hd.grown { d.level with items := .group index body :: d.level.items } hd.flags count widths
  obtain ⟨e, h4, h5⟩ := feedAll_quantifier hready rfl nofun nofun feed_question
  refine ⟨e, [.repeated .greedy 0 (some 1) (.group index body)], count, widths, ?_, h5, ?_, fun before w after => ?_⟩
  · rw [Draft.feedAll_append_of_ok h3, h4]
  · intro n hn
    rw [List.mem_singleton] at hn
    subst hn
    exact ⟨fun _ _ => Nat.zero_le _, h1⟩
  · refine (seq_nil_right _ _ _ _).trans ?_
    rw [Span.or, ← h2]
    constructor
    · rintro ⟨n, _, hle, hr⟩
      obtain rfl | rfl : n = 0 ∨ n = 1 := by
        have := hle 1 rfl
        omega
      · exact Or.inr hr
      · exact Or.inl ((seq_nil_right _ _ _ _).1 hr)
    · rintro (hb | hw)
      · exact ⟨1, by omega, fun m hm => by cases hm; omega, (seq_nil_right _ _ _ _).2 hb⟩
      · exact ⟨0, by omega, fun m hm => by cases hm; omega, hw⟩

/-- A choice in parentheses that do not capture takes what the choice takes. -/
theorem WritesChoice.plainGroup {s : Text} {L : Span} (h : WritesChoice s L) :
    Writes ('(' :: '?' :: ':' :: s ++ [')']) L := by
  intro d hd
  have hopen : d.feedAll ('(' :: '?' :: ':' :: s ++ [')']) = (d.enter .plain d.level.flags).feedAll (s ++ [')']) := by
    rw [List.cons_append, Draft.feedAll_cons_of_ok (feed_paren hd)]
    rfl
  obtain ⟨body, count, widths, h1, h2, h3⟩ := h.closed hd (o := .plain) rfl
  refine ⟨_, [.group none body], count, widths, hopen.trans h3, rfl, ?_, fun before w after => ?_⟩
  · intro n hn
    rw [List.mem_singleton] at hn
    subst hn
    exact h1
  · rw [← h2]
    exact seq_nil_right _ _ _ _

/-! ## Whole patterns -/

/-- A text that writes a choice is a regular expression, and it takes just that. -/
theorem ofText?_of_writesChoice {s : Text} {L : Span} (h : WritesChoice s L) :
    ∃ n, Node.ofText? s {} = .ok n ∧ n.Regular ∧ ∀ before w after, n.Takes before w after ↔ L before w after := by
  obtain ⟨e, level, choices, count, widths, h1, h2, h3, h4, h5, h6, h7⟩ := h _ Draft.ready_start rfl
  have hnode : level.node = Node.ofAlts choices := by
    unfold Level.node
    rw [h4]
    rfl
  refine ⟨Node.ofAlts choices, ?_, ofAlts_regular h6, fun before w after => (ofAlts_takes h5 _ _ _).trans (h7 _ _ _)⟩
  unfold Node.ofText?
  rw [h1, ← hnode]
  exact (Draft.finish_steady e).symm.trans (by rw [h2]; rfl)

/-! ## Characters and anchors -/

/-- The characters that do not stand for themselves where an item may begin. -/
def isOperator (c : Char) : Bool := (Text.of "\\[()|*+?\x7b.^$").contains c

/-- The set of one character holds that character only. -/
theorem literal_holds_iff (c x : Char) : (CharSet.literal .exact false c.toNat).holds x = true ↔ x = c := by
  have hx : (CharSet.literal .exact false c.toNat).holds x = (c.toNat == x.toNat) := by
    simp [CharSet.literal, CaseFold.isCased, CharSet.holds, CaseFold.code, Member.holds]
  rw [hx, beq_iff_eq]
  constructor
  · intro h
    exact (Char.toNat_inj.1 h).symm
  · rintro rfl
    rfl

/-- The set of all characters but one holds every other character. -/
theorem literal_negated_holds_iff (c x : Char) : (CharSet.literal .exact true c.toNat).holds x = true ↔ x ≠ c := by
  have hx : (CharSet.literal .exact true c.toNat).holds x = !(CharSet.literal .exact false c.toNat).holds x := by
    simp [CharSet.literal, CaseFold.isCased, CharSet.holds]
  rw [hx, Bool.not_eq_true', ← Bool.not_eq_true, literal_holds_iff]

/-- A character that is no operator stands for itself. -/
theorem writesSet_char {c : Char} (hc : isOperator c = false) : WritesSet [c] (CharSet.literal .exact false c.toNat) := by
  intro d hd
  have hfeed : d.feed c = .ok (d.pushCode c.toNat) := by
    rw [Draft.feed_item hd.mode]
    unfold Draft.feedItem
    rw [hd.flags]
    simp only [Bool.false_and, Bool.false_eq_true, if_false]
    split <;> first | rfl | (exfalso; revert hc; decide)
  rw [Draft.feedAll_cons_of_ok hfeed]
  unfold Draft.pushCode
  rw [hd.flags]
  rfl

/-- A character that is neither letter nor digit stands for itself behind a backslash. -/
theorem writesSet_escaped {c : Char} (hc : c.isAlphanum = false) :
    WritesSet ['\\', c] (CharSet.literal .exact false c.toNat) := by
  intro d hd
  have hdigit : c.isDigit = false := by
    cases h : c.isDigit
    · rfl
    · simp [Char.isAlphanum, h] at hc
  have hne : ∀ x : Char, x.isAlphanum = true → c ≠ x := by
    rintro x hx rfl
    rw [hc] at hx
    cases hx
  have hfeed : Draft.feed { d with mode := .escape .sequence } c = .ok (d.pushCode c.toNat) := by
    show Draft.feedEscape { d with mode := .escape .sequence } .sequence c = _
    have h1 : ∀ ascii, Draft.anchor? ascii c = none := by
      intro ascii
      unfold Draft.anchor?
      split <;> first | rfl | exact absurd rfl (hne _ (by decide))
    have h2 : Draft.category? c = none := by
      unfold Draft.category?
      split <;> first | rfl | exact absurd rfl (hne _ (by decide))
    have h3 : Draft.controlCode? c = none := by
      unfold Draft.controlCode?
      split <;> first | rfl | exact absurd rfl (hne _ (by decide))
    simp only [Draft.feedEscape, h1, if_neg (hne '0' (by decide)), hdigit, Bool.false_eq_true, if_false,
      Draft.feedCommonEscape, h2, h3]
    split
    · exact absurd rfl (hne _ (by decide))
    · exact absurd rfl (hne _ (by decide))
    · exact absurd rfl (hne _ (by decide))
    · rw [hc]
      rfl
  rw [Draft.feedAll_cons_of_ok (feed_backslash hd), Draft.feedAll_cons_of_ok hfeed]
  unfold Draft.pushCode
  rw [hd.flags]
  rfl

/-! ### Classes of characters -/

/-- The characters of a class, or all others. -/
def CharSet.ofCategory (negated : Bool) (k : Category) : CharSet := ⟨.exact, negated, [.category k false false]⟩

theorem ofCategory_holds_iff (negated : Bool) (k : Category) (c : Char) :
    (CharSet.ofCategory negated k).holds c = true ↔ k.holds false c = !negated := by
  simp only [CharSet.ofCategory, CharSet.holds, CaseFold.code, List.any_cons, List.any_nil, Bool.or_false, Member.holds,
    Char.ofNat_toNat]
  cases k.holds false c <;> cases negated <;> decide

theorem notNewline_holds_iff (c : Char) : CharSet.notNewline.holds c = true ↔ c ≠ '\n' :=
  literal_negated_holds_iff '\n' c

/-- A dot stands for every character but the line feed. -/
theorem writesSet_dot : WritesSet ['.'] CharSet.notNewline := by
  intro d hd
  have hfeed : d.feed '.' = .ok (d.push (.one CharSet.notNewline)) := by
    rw [Draft.feed_item hd.mode]
    unfold Draft.feedItem
    rw [hd.flags]
    rfl
  rw [Draft.feedAll_cons_of_ok hfeed]
  rfl

/-- Where no flag is set, brackets add a set in which case matters. -/
theorem pushSet_ready {d : Draft} (hd : d.Ready) (mode : Mode) (negated : Bool) (items : List Item) :
    Draft.pushSet { d with mode } negated items = d.push (.one (CharSet.ofItems .exact false negated items)) := by
  unfold Draft.pushSet
  rw [show ({ d with mode } : Draft).level.flags = {} from hd.flags]
  rfl

/-- A backslash and `d` stand for a decimal digit. -/
theorem writesSet_digit : WritesSet ['\\', 'd'] (CharSet.ofCategory false .digit) := by
  intro d hd
  have hfeed : Draft.feed { d with mode := .escape .sequence } 'd' = .ok (d.push (.one (CharSet.ofCategory false .digit))) := by
    show Except.ok (Draft.pushSet { d with mode := .escape .sequence } false [.category .digit false]) = _
    rw [pushSet_ready hd]
    rfl
  rw [Draft.feedAll_cons_of_ok (feed_backslash hd), Draft.feedAll_cons_of_ok hfeed]
  rfl

/-- Brackets around a caret and a character stand for every other character. -/
theorem writesSet_but {c : Char} (hc : c ≠ '\\') : WritesSet ['[', '^', c, ']'] (CharSet.literal .exact true c.toNat) := by
  intro d hd
  have hmember : Draft.feed { d with mode := .set { negated := true } .member } c =
      .ok { d with mode := .set { negated := true } (.after (.code c.toNat)) } := by
    show Except.ok (Draft.feedMember _ _ c) = _
    unfold Draft.feedMember
    rw [if_neg (by simp), if_neg hc]
  have hcaret : Draft.feed { d with mode := .set {} .opened } '^' = .ok { d with mode := .set { negated := true } .member } := rfl
  rw [Draft.feedAll_cons_of_ok (feed_bracket hd), Draft.feedAll_cons_of_ok hcaret, Draft.feedAll_cons_of_ok hmember]
  show Except.ok (Draft.pushSet { d with mode := .set { negated := true } (.after (.code c.toNat)) } true [.code c.toNat]) = _
  rw [pushSet_ready hd]
  rfl

/-- Brackets around a caret and the class of blanks stand for every character that is no blank. -/
theorem writesSet_notBlank : WritesSet ['[', '^', '\\', 's', ']'] (CharSet.ofCategory true .blank) := by
  intro d hd
  rw [Draft.feedAll_cons_of_ok (feed_bracket hd)]
  show Except.ok (Draft.pushSet { d with mode := .set { negated := true } (.after (.category .blank false)) } true
    [.category .blank false]) = _
  rw [pushSet_ready hd]
  rfl

/-! ### Repeated characters and plain text -/

/-- A set of one character that may be left out. -/
theorem many_literal_optional (c : Char) (before w after : Text) :
    Many (CharSet.literal .exact false c.toNat) 0 (some 1) before w after ↔ w = [] ∨ w = [c] := by
  constructor
  · rintro ⟨_, hle, hall⟩
    have hlen := hle 1 rfl
    cases w with
    | nil => exact Or.inl rfl
    | cons x w =>
      obtain rfl : w = [] := List.eq_nil_of_length_eq_zero (by simpa using hlen)
      rw [(literal_holds_iff c x).1 (hall x (by simp))]
      exact Or.inr rfl
  · rintro (rfl | rfl)
    · exact ⟨Nat.le_refl _, fun _ _ => Nat.zero_le _, by simp⟩
    · refine ⟨Nat.zero_le _, fun m hm => ?_, ?_⟩
      · cases hm
        exact Nat.le_refl _
      · intro x hx
        rw [List.mem_singleton] at hx
        exact (literal_holds_iff c x).2 hx

/-- A character that may be left out. -/
theorem WritesSet.maybe {s : Text} {c : Char} (h : WritesSet s (CharSet.literal .exact false c.toNat)) :
    Writes (s ++ ['?']) (fun _ w _ => w = [] ∨ w = [c]) :=
  (h.quantified feed_question (fun _ _ => Nat.zero_le _)).congr (many_literal_optional c)

/-- Any number of characters of a set, and at least one of them. -/
theorem many_star (set : CharSet) (before w after : Text) :
    Many set 0 none before w after ↔ ∀ c ∈ w, set.holds c = true := by
  simp [Many]

theorem many_plus (set : CharSet) (before w after : Text) :
    Many set 1 none before w after ↔ w ≠ [] ∧ ∀ c ∈ w, set.holds c = true := by
  simp [Many, Nat.one_le_iff_ne_zero]

/-- A character that is no operator writes itself. -/
theorem writes_char {c : Char} (hc : isOperator c = false) : Writes [c] (fun _ w _ => w = [c]) := by
  refine (writesSet_char hc).writes.congr fun before w after => ?_
  simp [Node.Takes, literal_holds_iff]

theorem writes_escaped {c : Char} (hc : c.isAlphanum = false) : Writes ['\\', c] (fun _ w _ => w = [c]) := by
  refine (writesSet_escaped hc).writes.congr fun before w after => ?_
  simp [Node.Takes, literal_holds_iff]

/-- Characters that are no operators write themselves. -/
theorem writes_chars {s : Text} (h : ∀ c ∈ s, isOperator c = false) : Writes s (fun _ w _ => w = s) := by
  induction s with
  | nil => exact writes_nil
  | cons c s ih =>
    have hfresh : Fresh s := by
      intro x hx
      have hop := h x (List.mem_cons_of_mem _ (List.mem_of_mem_head? hx))
      constructor <;> (rintro rfl; exact absurd hop (by decide))
    have happend := (writes_char (h c (by simp))).append (ih fun x hx => h x (List.mem_cons_of_mem _ hx)) hfresh
    refine happend.congr fun before w after => ?_
    simp [Span.seq]

/-! ### Anchors -/

/-- At the beginning of the text. -/
def Span.start : Span := fun before w _ => w = [] ∧ before = []

/-- At the end of the text, or in front of its final line feed. -/
def Span.stop : Span := fun _ w after => w = [] ∧ (after = [] ∨ after = ['\n'])

theorem writes_start : Writes ['^'] Span.start := by
  refine (writes_of_push (n := .anchor .textStart) trivial ?_).congr fun before w after => ?_
  · intro d hd
    rw [Draft.feed_item hd.mode]
    unfold Draft.feedItem
    rw [hd.flags]
    rfl
  · simp [Node.Takes, Place.meets, Span.start]

theorem writes_stop : Writes ['$'] Span.stop := by
  refine (writes_of_push (n := .anchor .finalEnd) trivial ?_).congr fun before w after => ?_
  · intro d hd
    rw [Draft.feed_item hd.mode]
    unfold Draft.feedItem
    rw [hd.flags]
    rfl
  · simp [Node.Takes, Place.meets, Span.stop]

/-- Anything that must begin at the beginning of the text. -/
theorem seq_start_iff (L : Span) (before w after : Text) :
    Span.seq Span.start L before w after ↔ before = [] ∧ L [] w after := by
  constructor
  · rintro ⟨_, v, rfl, ⟨rfl, rfl⟩, hL⟩
    exact ⟨rfl, hL⟩
  · rintro ⟨rfl, hL⟩
    exact ⟨[], w, rfl, ⟨rfl, rfl⟩, hL⟩

/-- Anything that must end at the end of the text. -/
theorem seq_stop_iff (L : Span) (before w after : Text) :
    Span.seq L Span.stop before w after ↔ L before w after ∧ (after = [] ∨ after = ['\n']) := by
  constructor
  · rintro ⟨u, _, rfl, hL, rfl, hend⟩
    rw [List.append_nil]
    exact ⟨hL, hend⟩
  · rintro ⟨hL, hend⟩
    exact ⟨w, [], (List.append_nil w).symm, hL, rfl, hend⟩

end StepCatalog.Regex
