import StepCatalog.Proofs.Regex.Meaning
import StepCatalog.Proofs.Regex.Progress

/-!
# Texts cut off behind a match

What follows a match is read by some anchors, by looks ahead and by nodes that settle for the first way they find. A node without them
finds, in a text whose ending is cut off, everything that it finds in front of that ending (`keeps_run`): the way that led to the match
is still there, and if it is not the first one any more, another one succeeds. So a search in two texts put together finds nothing
that ends in the first one unless the first one holds a match by itself (`stop_gt_of_search?_append`).
-/

namespace StepCatalog.Regex

/-! ## Places in front of an ending -/

/-- The place with more text behind. -/
def Place.extend (p : Place) (t : Text) : Place := { p with after := p.after ++ t }

theorem Place.extend_inj {p q : Place} {t : Text} : p.extend t = q.extend t ↔ p = q := by
  cases p
  cases q
  simp [extend]

/-- A place from which a match goes on to a place in front of an ending stands in front of it, too. -/
theorem Reaches.exists_extend {numbers : List Nat} {p' q : Place} {t : Text} (h : Reaches numbers p' (q.extend t)) :
    ∃ p : Place, p' = p.extend t := by
  obtain ⟨w, hafter, -⟩ := h.taken
  refine ⟨{ p' with after := w ++ q.after }, ?_⟩
  rw [Place.extend, List.append_assoc]
  exact congrArg (fun after => { p' with after }) hafter

theorem Reaches.length_after_le {numbers : List Nat} {p q : Place} (h : Reaches numbers p q) : q.after.length ≤ p.after.length := by
  obtain ⟨w, hafter, -⟩ := h.taken
  rw [hafter, List.length_append]
  omega

/-- Whether a condition depends on what follows. -/
def Anchor.looksBeyond : Anchor → Bool
  | .textStart | .lineStart => false
  | .finalEnd | .lineEnd | .textEnd | .wordEdge _ | .noWordEdge _ => true

/-- Whether what follows the text that a node takes may decide how it takes it. -/
def Node.looksBeyond : Node → Bool
  | .empty | .one _ | .backref _ _ => false
  | .anchor a => a.looksBeyond
  | .seq a b | .alt a b | .cond _ a b => a.looksBeyond || b.looksBeyond
  | .repeated .possessive _ _ _ | .ahead _ _ | .behind _ _ _ | .atomic _ => true
  | .repeated _ _ _ body | .group _ body => body.looksBeyond

/-! ## Ways that are kept -/

/-- Wherever `k'`, from at most `bound` characters in front of the end, gives `r`, an ending is still ahead, and without it `k`
succeeds. -/
def Follows (ending : Text) (r : Place) (bound : Nat) (k' k : Cont) : Prop :=
  ∀ q', q'.after.length ≤ bound → k' q' = some r → ∃ q, q' = q.extend ending ∧ (k q).isSome = true

/-- A way that is found in front of an ending is kept when the ending is cut off, from a place on. -/
def KeepsAt (ending : Text) (m' m : Matcher) (p : Place) : Prop :=
  ∀ r k' k, Follows ending r (p.extend ending).after.length k' k → m' (p.extend ending) k' = some r → (m p k).isSome = true

/-- A matcher that keeps every way in front of an ending. -/
def Keeps (ending : Text) (m : Matcher) : Prop := ∀ p, KeepsAt ending m m p

namespace Follows

variable {ending : Text} {r : Place} {bound : Nat} {k' k : Cont}

theorem mono (h : Follows ending r bound k' k) {lower : Nat} (hle : lower ≤ bound) : Follows ending r lower k' k :=
  fun q' hq' => h q' (Nat.le_trans hq' hle)

theorem isSome (h : Follows ending r bound k' k) {p : Place} (hp : (p.extend ending).after.length ≤ bound)
    (hr : k' (p.extend ending) = some r) : (k p).isSome = true := by
  obtain ⟨q, heq, hq⟩ := h _ hp hr
  rwa [Place.extend_inj.1 heq]

/-- What comes after further matchers. -/
theorem bind {m' m : Matcher} {numbers : List Nat} (hm : ∀ q : Place, (q.extend ending).after.length ≤ bound → KeepsAt ending m' m q)
    (hleads : Leads m' numbers) (h : Follows ending r bound k' k) :
    Follows ending r bound (fun q => m' q k') (fun q => m q k) := by
  intro q' hq' hr
  obtain ⟨s', hs', hk'⟩ := hleads _ _ _ hr
  obtain ⟨s, rfl, -⟩ := h s' (Nat.le_trans hs'.length_after_le hq') hk'
  obtain ⟨q, rfl⟩ := hs'.exists_extend
  exact ⟨q, rfl, hm q hq' r k' k (h.mono hq') hr⟩

end Follows

theorem Place.length_after_extend (p : Place) (t : Text) : (p.extend t).after.length = p.after.length + t.length := by
  simp [extend]

theorem isSome_upToGreedy {m : Matcher} {k : Cont} {p : Place} (h : (k p).isSome = true) (n : Nat) (last : Option Nat) :
    (upToGreedy m n last p k).isSome = true := by
  cases n with
  | zero => exact h
  | succ n =>
    rw [upToGreedy]
    split
    · exact h
    · rw [isSome_orElse, h, Bool.or_true]

theorem isSome_upToLazy {m : Matcher} {k : Cont} {p : Place} (h : (k p).isSome = true) (n : Nat) (last : Option Nat) :
    (upToLazy m n last p k).isSome = true := by
  cases n with
  | zero => exact h
  | succ n => rw [upToLazy, isSome_orElse, h, Bool.true_or]

/-- After a further round, the rounds that are left are still enough. -/
theorem roundsLeft {ending : Text} {n' n : Nat} {last : Option Nat} {p : Place}
    (hn : n' + 1 ≤ n ∨ p.after.length < n ∨ last = some p.after.length) (hlast : last ≠ some p.after.length) :
    ∃ n₀, n = n₀ + 1 ∧ ∀ q : Place, (q.extend ending).after.length ≤ (p.extend ending).after.length →
      n' ≤ n₀ ∨ q.after.length < n₀ ∨ some p.after.length = some q.after.length := by
  have hn : n' + 1 ≤ n ∨ p.after.length < n := by
    rcases hn with hn | hn | hn
    · exact .inl hn
    · exact .inr hn
    · exact absurd hn hlast
  refine ⟨n - 1, by omega, fun q hq => ?_⟩
  rw [Place.length_after_extend, Place.length_after_extend] at hq
  rw [Option.some.injEq]
  omega

namespace Keeps

variable {ending : Text} {m : Matcher} {numbers : List Nat}

theorem exactly (h : Keeps ending m) (hleads : Leads m numbers) (n : Nat) : Keeps ending (exactly m n) := by
  induction n with
  | zero => exact fun p r k' k hk hr => hk.isSome (Nat.le_refl _) hr
  | succ n ih => exact fun p r k' k hk hr => h p r _ _ (hk.bind (fun q _ => ih q) (hleads.exactly n)) hr

/-- Further rounds are kept if as many may be run, or more than there are characters, or none would start. -/
theorem upToGreedy (h : Keeps ending m) (hleads : Leads m numbers) (n' n : Nat) (last : Option Nat) (p : Place)
    (hn : n' ≤ n ∨ p.after.length < n ∨ last = some p.after.length) :
    KeepsAt ending (upToGreedy m n' (last.map (· + ending.length))) (upToGreedy m n last) p := by
  induction n' generalizing n last p with
  | zero => exact fun r k' k hk hr => isSome_upToGreedy (hk.isSome (Nat.le_refl _) hr) n last
  | succ n' ih =>
    intro r k' k hk hr
    have hstop (hr : k' (p.extend ending) = some r) : (Regex.upToGreedy m n last p k).isSome = true :=
      isSome_upToGreedy (hk.isSome (Nat.le_refl _) hr) n last
    rw [Regex.upToGreedy, Place.length_after_extend] at hr
    split at hr
    · exact hstop hr
    · rename_i hlast
      have hlast : last ≠ some p.after.length := fun h => hlast (by rw [h]; rfl)
      obtain ⟨n, rfl, hleft⟩ := roundsLeft hn hlast
      rcases (Option.orElse_eq_some _ _ _).1 hr with hr | ⟨-, hr⟩
      · rw [Regex.upToGreedy, if_neg hlast, isSome_orElse, Bool.or_eq_true]
        exact .inl (h p r _ _ (hk.bind (fun q hq => ih n _ q (hleft q hq)) (hleads.upToGreedy _ _)) hr)
      · exact hstop hr

theorem upToLazy (h : Keeps ending m) (hleads : Leads m numbers) (n' n : Nat) (last : Option Nat) (p : Place)
    (hn : n' ≤ n ∨ p.after.length < n ∨ last = some p.after.length) :
    KeepsAt ending (upToLazy m n' (last.map (· + ending.length))) (upToLazy m n last) p := by
  induction n' generalizing n last p with
  | zero => exact fun r k' k hk hr => isSome_upToLazy (hk.isSome (Nat.le_refl _) hr) n last
  | succ n' ih =>
    intro r k' k hk hr
    rw [Regex.upToLazy, Place.length_after_extend] at hr
    rcases (Option.orElse_eq_some _ _ _).1 hr with hr | ⟨-, hr⟩
    · exact isSome_upToLazy (hk.isSome (Nat.le_refl _) hr) n last
    · split at hr
      · cases hr
      · rename_i hlast
        have hlast : last ≠ some p.after.length := fun h => hlast (by rw [h]; rfl)
        obtain ⟨n, rfl, hleft⟩ := roundsLeft hn hlast
        rw [Regex.upToLazy, if_neg hlast, isSome_orElse, Bool.or_eq_true]
        exact .inr (h p r _ _ (hk.bind (fun q hq => ih n _ q (hleft q hq)) (hleads.upToLazy _ _)) hr)

end Keeps

/-- The next `n` characters agree with a text whatever follows them. -/
theorem agrees_append {fold : CaseFold} {u s t : Text} (hu : u.length ≤ s.length) (h : agrees fold u (s ++ t) = true) :
    agrees fold u s = true := by
  induction u generalizing s with
  | nil => rfl
  | cons a u ih =>
    cases s with
    | nil => simp at hu
    | cons c s =>
      simp only [List.cons_append, agrees, Bool.and_eq_true] at h ⊢
      exact ⟨h.1, ih (Nat.le_of_succ_le_succ hu) h.2⟩

theorem length_le_of_agrees {fold : CaseFold} {u s : Text} (h : agrees fold u s = true) : u.length ≤ s.length := by
  induction u generalizing s with
  | nil => simp
  | cons a u ih =>
    cases s with
    | nil => cases h
    | cons c s =>
      rw [agrees, Bool.and_eq_true] at h
      simpa using ih h.2

theorem Place.capture_extend (i : Nat) (p q : Place) (t : Text) :
    Place.capture i (p.extend t) (q.extend t) = (Place.capture i p q).extend t := by
  simp only [capture, extend, List.length_append, Nat.add_sub_add_right]
  rw [List.take_append_of_le_length (Nat.sub_le _ _)]

/-! ## Nodes that keep every way -/

/-- Without an ending as many further rounds may be run as with it, or more than there are characters. -/
theorem furtherRounds_extend (ending : Text) (least : Nat) (most : Option Nat) (q : Place) :
    furtherRounds least most (q.extend ending) ≤ furtherRounds least most q ∨ q.after.length < furtherRounds least most q ∨
      none = some q.after.length := by
  cases most with
  | none => exact .inr (.inl (Nat.lt_succ_self _))
  | some m => exact .inl (Nat.le_refl _)

/-- One character is taken in front of an ending or not at all. -/
theorem keeps_one (ending : Text) (set : CharSet) : Keeps ending (Node.one set).run := by
  rintro ⟨before, after, groups⟩ r k' k hk hr
  cases after with
  | nil =>
    -- the character is one of the ending, so the ending is not ahead any more
    cases ending with
    | nil => cases hr
    | cons c rest =>
      rw [Place.extend, List.nil_append, run_one_cons] at hr
      split at hr
      · obtain ⟨q, hq, -⟩ := hk _ (by simp [Place.extend]) hr
        have hlength := congrArg (fun p : Place => p.after.length) hq
        simp only [Place.length_after_extend, List.length_cons] at hlength
        omega
      · cases hr
  | cons c after =>
    rw [Place.extend, List.cons_append, run_one_cons] at hr
    rw [run_one_cons]
    split at hr
    · rename_i hset
      rw [if_pos hset]
      exact hk.isSome (p := ⟨c :: before, after, groups⟩) (by simp [Place.extend]) hr
    · cases hr

/-- An anchor that does not look beyond its place holds there with and without an ending. -/
theorem keeps_anchor (ending : Text) {a : Anchor} (ha : a.looksBeyond = false) : Keeps ending (Node.anchor a).run := by
  intro p r k' k hk hr
  have hmeets : (p.extend ending).meets a = p.meets a := by
    match a, ha with
    | .textStart, _ | .lineStart, _ => rfl
  rw [Node.run, hmeets] at hr
  rw [Node.run]
  split at hr
  · rename_i hmeets
    rw [if_pos hmeets]
    exact hk.isSome (Nat.le_refl _) hr
  · cases hr

/-- A reference takes its text in front of an ending or not at all. -/
theorem keeps_backref (ending : Text) (i : Nat) (fold : CaseFold) : Keeps ending (Node.backref i fold).run := by
  intro p r k' k hk hr
  have hgroup : (p.extend ending).group? i = p.group? i := rfl
  simp only [Node.run, hgroup] at hr ⊢
  split at hr
  · cases hr
  · rename_i u _
    split at hr
    · rename_i hagrees
      obtain ⟨q, hq, hsome⟩ := hk _ (by simp [Place.advance]) hr
      have hafter : (p.after ++ ending).drop u.length = q.after ++ ending := congrArg Place.after hq
      have hu : u.length ≤ p.after.length := by
        have hrest := congrArg List.length hafter
        have hall := length_le_of_agrees hagrees
        simp only [Place.extend, List.length_drop, List.length_append] at hrest hall
        omega
      have hadvance : (p.extend ending).advance u.length = (p.advance u.length).extend ending := by
        simp [Place.advance, Place.extend, List.take_append_of_le_length hu, List.drop_append_of_le_length hu]
      rw [hadvance, Place.extend_inj] at hq
      rw [if_pos (agrees_append hu hagrees), hq]
      exact hsome
    · cases hr

namespace Keeps

variable {ending : Text} {body : Node}

/-- A captured text is the same with and without an ending behind the group. -/
theorem capture (h : Keeps ending body.run) (i : Nat) : Keeps ending (Node.group (some i) body).run := by
  intro p r k' k hk hr
  refine h p r _ _ (fun q' hq' hr' => ?_) hr
  obtain ⟨c, hc, hsome⟩ := hk (Place.capture i (p.extend ending) q') hq' hr'
  have hafter : q'.after = c.after ++ ending := congrArg Place.after hc
  obtain ⟨q, rfl⟩ : ∃ q : Place, q' = q.extend ending := ⟨{ q' with after := c.after }, by rw [Place.extend, ← hafter]⟩
  rw [Place.capture_extend, Place.extend_inj] at hc
  exact ⟨q, rfl, hc ▸ hsome⟩

/-- A repetition that may go back keeps the ways of its rounds. -/
theorem repeated (h : Keeps ending body.run) {greed : Greed} (hgreed : greed ≠ .possessive) (least : Nat) (most : Option Nat) :
    Keeps ending (Node.repeated greed least most body).run := by
  have hbody := leads_run body
  cases greed with
  | greedy =>
    have hrest : Leads (fun q k => Regex.upToGreedy body.run (furtherRounds least most q) none q k) body.numbers :=
      fun p k r hr => hbody.upToGreedy _ _ p k r hr
    intro p r k' k hk hr
    refine h.exactly hbody least p r _ _ (hk.bind (fun q _ => ?_) hrest) hr
    exact h.upToGreedy hbody _ _ none q (furtherRounds_extend ending least most q)
  | lazy =>
    have hrest : Leads (fun q k => Regex.upToLazy body.run (furtherRounds least most q) none q k) body.numbers :=
      fun p k r hr => hbody.upToLazy _ _ p k r hr
    intro p r k' k hk hr
    refine h.exactly hbody least p r _ _ (hk.bind (fun q _ => ?_) hrest) hr
    exact h.upToLazy hbody _ _ none q (furtherRounds_extend ending least most q)
  | possessive => exact absurd rfl hgreed

end Keeps

/-- A node that does not look beyond what it takes keeps every way in front of an ending. -/
theorem keeps_run (ending : Text) (n : Node) (hn : n.looksBeyond = false) : Keeps ending n.run := by
  induction n with
  | empty => exact fun p r k' k hk hr => hk.isSome (Nat.le_refl _) hr
  | one set => exact keeps_one ending set
  | anchor a => exact keeps_anchor ending hn
  | seq a b iha ihb =>
    rw [Node.looksBeyond, Bool.or_eq_false_iff] at hn
    exact fun p r k' k hk hr => iha hn.1 p r _ _ (hk.bind (fun q _ => ihb hn.2 q) (leads_run b)) hr
  | alt a b iha ihb =>
    rw [Node.looksBeyond, Bool.or_eq_false_iff] at hn
    intro p r k' k hk hr
    rw [Node.run, isSome_orElse, Bool.or_eq_true]
    rcases (Option.orElse_eq_some _ _ _).1 hr with hr | ⟨-, hr⟩
    · exact .inl (iha hn.1 p r k' k hk hr)
    · exact .inr (ihb hn.2 p r k' k hk hr)
  | repeated greed least most body ih =>
    cases greed with
    | greedy => exact (ih hn).repeated (by decide) least most
    | lazy => exact (ih hn).repeated (by decide) least most
    | possessive => cases hn
  | group index body ih =>
    cases index with
    | none => exact ih hn
    | some i => exact (ih hn).capture i
  | backref i fold => exact keeps_backref ending i fold
  | ahead => cases hn
  | behind => cases hn
  | atomic => cases hn
  | cond i yes no ihy ihn =>
    rw [Node.looksBeyond, Bool.or_eq_false_iff] at hn
    intro p r k' k hk hr
    have hgroup : (p.extend ending).group? i = p.group? i := rfl
    simp only [Node.run, hgroup] at hr ⊢
    split at hr
    · rename_i hi
      rw [if_pos hi]
      exact ihy hn.1 p r k' k hk hr
    · rename_i hi
      rw [if_neg hi]
      exact ihn hn.2 p r k' k hk hr

/-! ## Where a search ends -/

/-- A match ends where the text that it took ends. -/
theorem matchAt_eq_some {n : Node} {before after : Text} {m : Match} (h : n.matchAt before after = some m) :
    ∃ w rest groups, after = w ++ rest ∧ n.run ⟨before, after, []⟩ some = some ⟨w.reverse ++ before, rest, groups⟩ ∧
      m.stop = before.length + w.length := by
  obtain ⟨p, hp, rfl⟩ := Option.map_eq_some_iff.1 h
  obtain ⟨w, hafter, hbefore⟩ := ((leads_run n).settled hp).taken
  refine ⟨w, p.after, p.groups, hafter, ?_, ?_⟩
  · rw [hp, ← hbefore]
  · show p.before.length = _
    rw [hbefore, List.length_append, List.length_reverse, Nat.add_comm]

/-- In two texts put together, a node that does not look beyond what it takes is found to end in the second one, unless the first one
holds it by itself. -/
theorem stop_gt_of_search?_append {n : Node} (hn : n.looksBeyond = false) {s t : Text} {m : Match}
    (h : n.search? (s ++ t) = some m) (hs : n.search? s = none) : s.length < m.stop := by
  obtain ⟨pre, post, hsplit, -, hm⟩ := matchAt_of_searchFrom h
  obtain ⟨w, rest, groups, rfl, hrun, hstop⟩ := matchAt_eq_some hm
  rw [List.append_nil] at hrun hstop
  by_contra hlt
  -- the match ends in the first text, which goes on behind it
  obtain ⟨rest, rfl, rfl⟩ : ∃ rest', s = pre ++ w ++ rest' ∧ rest = rest' ++ t := by
    rw [← List.append_assoc] at hsplit
    rcases List.append_eq_append_iff.1 hsplit with ⟨left, hleft, hright⟩ | hrest
    · have hnil : left = [] := by
        have hlength := congrArg List.length hleft
        rw [hstop, List.length_reverse] at hlt
        simp only [List.length_append] at hlength
        exact List.length_eq_zero_iff.1 (by omega)
      subst hnil
      exact ⟨[], by simpa using hleft.symm, by simpa using hright.symm⟩
    · exact hrest
  have hfollows : Follows t ⟨w.reverse ++ pre.reverse, rest ++ t, groups⟩
      (Place.extend ⟨pre.reverse, w ++ rest, []⟩ t).after.length some some := by
    rintro q' - hq'
    exact ⟨⟨w.reverse ++ pre.reverse, rest, groups⟩, Option.some.inj hq', rfl⟩
  rw [← List.append_assoc] at hrun
  have hfound : (n.matchAt (pre.reverse ++ []) (w ++ rest)).isSome = true := by
    rw [Node.matchAt, List.append_nil, Option.isSome_map]
    exact keeps_run t n hn _ _ _ _ hfollows hrun
  have hsearch := searchFrom_isSome_of_matchAt hfound
  rw [← List.append_assoc, ← Node.search?, hs] at hsearch
  cases hsearch

end StepCatalog.Regex
