import Mathlib.Data.Option.Basic
import StepCatalog.Regex.Search

/-!
# What a match goes through and what it depends on

Matching moves forward through the text and only adds captures, those of the groups that stand in the node (`Reaches`,
`leads_run`). What stands in front of a place is read by some anchors and by looks behind only; a node without them matches in
the same way whatever stands in front (`blind_run`), so that a search in two texts put together finds nothing that begins in the
second one unless the second one holds it by itself (`start_lt_of_search?_append`).
-/

namespace StepCatalog.Regex

/-! ## Places that a match reaches -/

/-- A place further on in the text, with more captured by groups among the given ones. -/
structure Reaches (numbers : List Nat) (p q : Place) : Prop where
  taken : ∃ w, p.after = w ++ q.after ∧ q.before = w.reverse ++ p.before
  captured : ∃ new, q.groups = new ++ p.groups ∧ ∀ e ∈ new, e.1 ∈ numbers

namespace Reaches

variable {numbers numbers' : List Nat} {p q r : Place}

theorem refl (numbers : List Nat) (p : Place) : Reaches numbers p p := ⟨⟨[], rfl, rfl⟩, ⟨[], rfl, by simp⟩⟩

theorem mono (h : Reaches numbers p q) (hsub : ∀ i ∈ numbers, i ∈ numbers') : Reaches numbers' p q := by
  obtain ⟨htaken, new, hgroups, hnew⟩ := h
  exact ⟨htaken, new, hgroups, fun e he => hsub _ (hnew e he)⟩

theorem trans (h : Reaches numbers p q) (h' : Reaches numbers q r) : Reaches numbers p r := by
  obtain ⟨⟨w, hafter, hbefore⟩, new, hgroups, hnew⟩ := h
  obtain ⟨⟨w', hafter', hbefore'⟩, new', hgroups', hnew'⟩ := h'
  refine ⟨⟨w ++ w', ?_, ?_⟩, new' ++ new, ?_, ?_⟩
  · rw [hafter, hafter', List.append_assoc]
  · rw [hbefore', hbefore, List.reverse_append, List.append_assoc]
  · rw [hgroups', hgroups, List.append_assoc]
  · intro e he
    rcases List.mem_append.1 he with he | he
    · exact hnew' e he
    · exact hnew e he

/-- The same place with the captures of a place reached. -/
theorem stay {p' : Place} (h : Reaches numbers p' q) (hgroups : p'.groups = p.groups) :
    Reaches numbers p { p with groups := q.groups } := by
  obtain ⟨new, hnew, hnumbers⟩ := h.captured
  exact ⟨⟨[], rfl, rfl⟩, new, hnew.trans (by rw [hgroups]), hnumbers⟩

/-- What a group captures is what was taken since it was entered. -/
theorem capture {i : Nat} (h : Reaches numbers p q) (hi : i ∈ numbers) : Reaches numbers p (Place.capture i p q) := by
  obtain ⟨htaken, new, hgroups, hnew⟩ := h
  refine ⟨htaken, _ :: new, congrArg _ hgroups, ?_⟩
  rintro e he
  rcases List.mem_cons.1 he with rfl | he
  · exact hi
  · exact hnew e he

end Reaches

/-- Whatever a matcher hands on is reached from where it began. -/
def Leads (m : Matcher) (numbers : List Nat) : Prop :=
  ∀ p k r, m p k = some r → ∃ q, Reaches numbers p q ∧ k q = some r

namespace Leads

variable {m : Matcher} {numbers : List Nat}

theorem settled (h : Leads m numbers) {p q : Place} (hq : m p some = some q) : Reaches numbers p q := by
  obtain ⟨q', hreach, heq⟩ := h p some q hq
  rw [← Option.some.inj heq]
  exact hreach

theorem exactly (h : Leads m numbers) (n : Nat) : Leads (exactly m n) numbers := by
  induction n with
  | zero => exact fun p k r hr => ⟨p, .refl _ p, hr⟩
  | succ n ih =>
    intro p k r hr
    obtain ⟨q, hq, hrest⟩ := h _ _ _ hr
    obtain ⟨q', hq', hk⟩ := ih _ _ _ hrest
    exact ⟨q', hq.trans hq', hk⟩

theorem upToGreedy (h : Leads m numbers) (n : Nat) : ∀ last, Leads (upToGreedy m n last) numbers := by
  induction n with
  | zero => exact fun last p k r hr => ⟨p, .refl _ p, hr⟩
  | succ n ih =>
    intro last p k r hr
    simp only [Regex.upToGreedy] at hr
    split at hr
    · exact ⟨p, .refl _ p, hr⟩
    · rcases (Option.orElse_eq_some _ _ _).1 hr with hr | ⟨-, hr⟩
      · obtain ⟨q, hq, hrest⟩ := h _ _ _ hr
        obtain ⟨q', hq', hk⟩ := ih _ _ _ _ hrest
        exact ⟨q', hq.trans hq', hk⟩
      · exact ⟨p, .refl _ p, hr⟩

theorem upToLazy (h : Leads m numbers) (n : Nat) : ∀ last, Leads (upToLazy m n last) numbers := by
  induction n with
  | zero => exact fun last p k r hr => ⟨p, .refl _ p, hr⟩
  | succ n ih =>
    intro last p k r hr
    simp only [Regex.upToLazy] at hr
    rcases (Option.orElse_eq_some _ _ _).1 hr with hr | ⟨-, hr⟩
    · exact ⟨p, .refl _ p, hr⟩
    · split at hr
      · cases hr
      · obtain ⟨q, hq, hrest⟩ := h _ _ _ hr
        obtain ⟨q', hq', hk⟩ := ih _ _ _ _ hrest
        exact ⟨q', hq.trans hq', hk⟩

theorem exactlySettled (h : Leads m numbers) (n : Nat) :
    ∀ {p q}, exactlySettled m n p = some q → Reaches numbers p q := by
  induction n with
  | zero =>
    intro p q hq
    rw [← Option.some.inj hq]
    exact .refl _ p
  | succ n ih =>
    intro p q hq
    simp only [Regex.exactlySettled] at hq
    split at hq
    · rename_i p' hp'
      exact (h.settled hp').trans (ih hq)
    · cases hq

theorem upToPossessive (h : Leads m numbers) (n : Nat) :
    ∀ {last p q}, upToPossessive m n last p = some q → Reaches numbers p q := by
  induction n with
  | zero =>
    intro last p q hq
    rw [← Option.some.inj hq]
    exact .refl _ p
  | succ n ih =>
    intro last p q hq
    simp only [Regex.upToPossessive] at hq
    split at hq
    · rw [← Option.some.inj hq]
      exact .refl _ p
    · split at hq
      · rename_i p' hp'
        exact (h.settled hp').trans (ih hq)
      · rw [← Option.some.inj hq]
        exact .refl _ p

theorem mono (h : Leads m numbers) {numbers' : List Nat} (hsub : ∀ i ∈ numbers, i ∈ numbers') : Leads m numbers' := by
  intro p k r hr
  obtain ⟨q, hq, hk⟩ := h p k r hr
  exact ⟨q, hq.mono hsub, hk⟩

end Leads

/-- The numbers of the groups in a node. -/
def Node.numbers : Node → List Nat
  | .empty | .one _ | .anchor _ | .backref _ _ => []
  | .seq a b | .alt a b | .cond _ a b => a.numbers ++ b.numbers
  | .repeated _ _ _ body | .group none body | .ahead _ body | .behind _ _ body | .atomic body => body.numbers
  | .group (some i) body => i :: body.numbers

/-- Matching a node reaches places further on, with captures of its groups. -/
theorem leads_run (n : Node) : Leads n.run n.numbers := by
  induction n with
  | empty => exact fun p k r hr => ⟨p, .refl _ p, hr⟩
  | one set =>
    intro p k r hr
    simp only [Node.run] at hr
    split at hr
    · cases hr
    · rename_i c rest hafter
      split at hr
      · refine ⟨{ p with before := c :: p.before, after := rest }, ?_, hr⟩
        exact ⟨⟨[c], hafter, rfl⟩, [], rfl, by simp⟩
      · cases hr
  | anchor a =>
    intro p k r hr
    simp only [Node.run] at hr
    split at hr
    · exact ⟨p, .refl _ p, hr⟩
    · cases hr
  | seq a b iha ihb =>
    intro p k r hr
    obtain ⟨q, hq, hrest⟩ := iha _ _ _ hr
    obtain ⟨q', hq', hk⟩ := ihb _ _ _ hrest
    refine ⟨q', (hq.mono ?_).trans (hq'.mono ?_), hk⟩
    · exact fun i hi => List.mem_append_left _ hi
    · exact fun i hi => List.mem_append_right _ hi
  | alt a b iha ihb =>
    intro p k r hr
    rcases (Option.orElse_eq_some _ _ _).1 hr with hr | ⟨-, hr⟩
    · exact iha.mono (fun i hi => List.mem_append_left _ hi) p k r hr
    · exact ihb.mono (fun i hi => List.mem_append_right _ hi) p k r hr
  | repeated greed least most body ih =>
    cases greed with
    | greedy =>
      intro p k r hr
      obtain ⟨q, hq, hrest⟩ := ih.exactly least _ _ _ hr
      obtain ⟨q', hq', hk⟩ := ih.upToGreedy _ _ _ _ _ hrest
      exact ⟨q', hq.trans hq', hk⟩
    | lazy =>
      intro p k r hr
      obtain ⟨q, hq, hrest⟩ := ih.exactly least _ _ _ hr
      obtain ⟨q', hq', hk⟩ := ih.upToLazy _ _ _ _ _ hrest
      exact ⟨q', hq.trans hq', hk⟩
    | possessive =>
      intro p k r hr
      simp only [Node.run] at hr
      split at hr
      · cases hr
      · rename_i q hq
        split at hr
        · cases hr
        · rename_i q' hq'
          exact ⟨q', (ih.exactlySettled _ hq).trans (ih.upToPossessive _ hq'), hr⟩
  | group index body ih =>
    cases index with
    | none => exact ih
    | some i =>
      intro p k r hr
      obtain ⟨q, hq, hk⟩ := ih _ _ _ hr
      exact ⟨_, (hq.mono fun _ => List.mem_cons_of_mem i).capture List.mem_cons_self, hk⟩
  | backref i fold =>
    intro p k r hr
    simp only [Node.run] at hr
    split at hr
    · cases hr
    · rename_i t _
      split at hr
      · refine ⟨p.advance t.length, ?_, hr⟩
        exact ⟨⟨p.after.take t.length, (List.take_append_drop _ _).symm, rfl⟩, [], rfl, by simp⟩
      · cases hr
  | ahead negated body ih =>
    intro p k r hr
    simp only [Node.run] at hr
    split at hr
    · rename_i q hq
      exact ⟨_, (ih.settled hq).stay rfl, hr⟩
    · exact ⟨p, .refl _ p, hr⟩
    · cases hr
  | behind negated width body ih =>
    intro p k r hr
    simp only [Node.run] at hr
    split at hr
    · rename_i q hq
      obtain ⟨p', hp', hbody⟩ := Option.bind_eq_some_iff.1 hq
      have hgroups : p'.groups = p.groups := by
        unfold Place.back? at hp'
        split at hp'
        · rw [← Option.some.inj hp']
        · cases hp'
      exact ⟨_, (ih.settled hbody).stay hgroups, hr⟩
    · exact ⟨p, .refl _ p, hr⟩
    · cases hr
  | atomic body ih =>
    intro p k r hr
    simp only [Node.run] at hr
    split at hr
    · rename_i q hq
      exact ⟨q, ih.settled hq, hr⟩
    · cases hr
  | cond i yes no ihy ihn =>
    intro p k r hr
    simp only [Node.run] at hr
    split at hr
    · exact ihy.mono (fun i hi => List.mem_append_left _ hi) p k r hr
    · exact ihn.mono (fun i hi => List.mem_append_right _ hi) p k r hr

/-! ## What groups hold in the end -/

theorem run_ofSeq_cons (n : Node) (ns : List Node) (p : Place) (k : Cont) :
    (Node.ofSeq (n :: ns)).run p k = n.run p fun q => (Node.ofSeq ns).run q k := by
  cases ns <;> rfl

/-- A node that takes one character. -/
theorem run_one_cons (set : CharSet) (before : Text) (c : Char) (after : Text) (groups : List (Nat × Text)) (k : Cont) :
    (Node.one set).run ⟨before, c :: after, groups⟩ k = if set.holds c then k ⟨c :: before, after, groups⟩ else none := rfl

/-- A group captures what has been taken since it was entered. -/
theorem capture_append (i : Nat) (u before before' after : Text) (groups groups' : List (Nat × Text)) :
    Place.capture i ⟨before, u ++ after, groups⟩ ⟨before', after, groups'⟩ = ⟨before', after, (i, u) :: groups'⟩ := by
  simp [Place.capture]

/-- A group keeps what it has captured unless it is entered again. -/
theorem Reaches.group?_eq {numbers : List Nat} {p q : Place} (h : Reaches numbers p q) {i : Nat} (hi : i ∉ numbers) :
    q.group? i = p.group? i := by
  obtain ⟨new, hgroups, hnew⟩ := h.captured
  have hnone : new.lookup i = none := by
    rw [List.lookup_eq_none_iff]
    intro e he
    rw [bne_iff_ne]
    rintro rfl
    exact hi (hnew e he)
  unfold Place.group?
  rw [hgroups, List.lookup_append, hnone, Option.none_or]

/-- A group in front of nodes that do not enter it again holds the beginning of what is matched. -/
theorem first_group_ofSeq {i : Nat} {body : Node} {ns : List Node} (hi : i ∉ (Node.ofSeq ns).numbers) {p : Place} {k : Cont}
    {r : Place} (h : (Node.ofSeq (.group (some i) body :: ns)).run p k = some r) :
    ∃ q w rest, k q = some r ∧ q.group? i = some w ∧ p.after = w ++ rest := by
  rw [run_ofSeq_cons] at h
  obtain ⟨q, hq, hrest⟩ := leads_run body _ _ _ h
  obtain ⟨q', hq', hk⟩ := leads_run _ _ _ _ hrest
  obtain ⟨w, hafter, -⟩ := hq.taken
  refine ⟨q', w, q.after, hk, ?_, hafter⟩
  rw [hq'.group?_eq hi]
  simp [Place.group?, Place.capture, hafter]

/-! ## Nodes that do not look back -/

/-- Whether a condition depends on what stands in front. -/
def Anchor.looksBack : Anchor → Bool
  | .textStart | .lineStart | .wordEdge _ | .noWordEdge _ => true
  | .finalEnd | .lineEnd | .textEnd => false

/-- Whether a node looks at what stands in front. -/
def Node.looksBack : Node → Bool
  | .empty | .one _ | .backref _ _ => false
  | .anchor a => a.looksBack
  | .seq a b | .alt a b | .cond _ a b => a.looksBack || b.looksBack
  | .repeated _ _ _ body | .group _ body | .ahead _ body | .atomic body => body.looksBack
  | .behind _ _ _ => true

/-- Places that differ in what stands in front only. -/
structure SameAhead (p q : Place) : Prop where
  after : p.after = q.after
  groups : p.groups = q.groups

/-- Continuations that agree at places which differ in what stands in front only. -/
def Agree (k k' : Cont) : Prop := ∀ q q', SameAhead q q' → Option.Rel SameAhead (k q) (k' q')

/-- A matcher that what stands in front does not matter to. -/
def Blind (m : Matcher) : Prop :=
  ∀ p p' k k', SameAhead p p' → Agree k k' → Option.Rel SameAhead (m p k) (m p' k')

theorem agree_some : Agree some some := fun _ _ h => .some h

theorem rel_orElse {a a' b b' : Option Place} (ha : Option.Rel SameAhead a a') (hb : Option.Rel SameAhead b b') :
    Option.Rel SameAhead (a <|> b) (a' <|> b') := by
  cases ha with
  | none => exact hb
  | some h => exact .some h

namespace Blind

variable {m : Matcher}

theorem exactly (h : Blind m) (n : Nat) : Blind (exactly m n) := by
  induction n with
  | zero => exact fun p p' k k' hp hk => hk p p' hp
  | succ n ih => exact fun p p' k k' hp hk => h p p' _ _ hp fun q q' hq => ih q q' k k' hq hk

theorem upToGreedy (h : Blind m) (n : Nat) : ∀ last, Blind (upToGreedy m n last) := by
  induction n with
  | zero => exact fun last p p' k k' hp hk => hk p p' hp
  | succ n ih =>
    intro last p p' k k' hp hk
    simp only [Regex.upToGreedy, hp.after]
    split
    · exact hk p p' hp
    · exact rel_orElse (h p p' _ _ hp fun q q' hq => ih _ q q' k k' hq hk) (hk p p' hp)

theorem upToLazy (h : Blind m) (n : Nat) : ∀ last, Blind (upToLazy m n last) := by
  induction n with
  | zero => exact fun last p p' k k' hp hk => hk p p' hp
  | succ n ih =>
    intro last p p' k k' hp hk
    simp only [Regex.upToLazy, hp.after]
    refine rel_orElse (hk p p' hp) ?_
    split
    · exact .none
    · exact h p p' _ _ hp fun q q' hq => ih _ q q' k k' hq hk

theorem exactlySettled (h : Blind m) (n : Nat) : Agree (exactlySettled m n) (exactlySettled m n) := by
  induction n with
  | zero => exact agree_some
  | succ n ih =>
    intro p p' hp
    have hround := h p p' some some hp agree_some
    simp only [Regex.exactlySettled]
    generalize m p some = q, m p' some = q' at hround
    cases hround with
    | none => exact .none
    | some hq => exact ih _ _ hq

theorem upToPossessive (h : Blind m) (n : Nat) : ∀ last, Agree (upToPossessive m n last) (upToPossessive m n last) := by
  induction n with
  | zero => exact fun _ => agree_some
  | succ n ih =>
    intro last p p' hp
    have hround := h p p' some some hp agree_some
    simp only [Regex.upToPossessive, hp.after]
    split
    · exact .some hp
    · generalize m p some = q, m p' some = q' at hround
      cases hround with
      | none => exact .some hp
      | some hq => exact ih _ _ _ hq

end Blind

/-- Matching a node that does not look back. -/
theorem blind_run (n : Node) (hn : n.looksBack = false) : Blind n.run := by
  induction n with
  | empty => exact fun p p' k k' hp hk => hk p p' hp
  | one set =>
    intro p p' k k' hp hk
    simp only [Node.run, hp.after]
    split
    · exact .none
    · split
      · exact hk _ _ ⟨rfl, hp.groups⟩
      · exact .none
  | anchor a =>
    intro p p' k k' hp hk
    have hmeets : p.meets a = p'.meets a := by
      match a, hn with
      | .finalEnd, _ | .lineEnd, _ | .textEnd, _ => simp only [Place.meets, hp.after]
    simp only [Node.run, hmeets]
    split
    · exact hk p p' hp
    · exact .none
  | seq a b iha ihb =>
    rw [Node.looksBack, Bool.or_eq_false_iff] at hn
    exact fun p p' k k' hp hk => iha hn.1 p p' _ _ hp fun q q' hq => ihb hn.2 q q' k k' hq hk
  | alt a b iha ihb =>
    rw [Node.looksBack, Bool.or_eq_false_iff] at hn
    exact fun p p' k k' hp hk => rel_orElse (iha hn.1 p p' k k' hp hk) (ihb hn.2 p p' k k' hp hk)
  | repeated greed least most body ih =>
    have hbody := ih hn
    have hrounds : ∀ {q q' : Place}, SameAhead q q' → furtherRounds least most q = furtherRounds least most q' := by
      intro q q' hq
      cases most <;> simp [furtherRounds, hq.after]
    cases greed with
    | greedy =>
      intro p p' k k' hp hk
      refine hbody.exactly least p p' _ _ hp fun q q' hq => ?_
      rw [hrounds hq]
      exact hbody.upToGreedy _ _ q q' k k' hq hk
    | lazy =>
      intro p p' k k' hp hk
      refine hbody.exactly least p p' _ _ hp fun q q' hq => ?_
      rw [hrounds hq]
      exact hbody.upToLazy _ _ q q' k k' hq hk
    | possessive =>
      intro p p' k k' hp hk
      have hleast := hbody.exactlySettled least p p' hp
      simp only [Node.run]
      generalize exactlySettled body.run least p = q, exactlySettled body.run least p' = q' at hleast
      cases hleast with
      | none => exact .none
      | @some q q' hq =>
        have hmore := hbody.upToPossessive (furtherRounds least most q) none q q' hq
        simp only [← hrounds hq]
        generalize upToPossessive body.run (furtherRounds least most q) none q = r,
          upToPossessive body.run (furtherRounds least most q) none q' = r' at hmore
        cases hmore with
        | none => exact .none
        | some hr => exact hk _ _ hr
  | group index body ih =>
    cases index with
    | none => exact ih hn
    | some i =>
      intro p p' k k' hp hk
      refine ih hn p p' _ _ hp fun q q' hq => hk _ _ ⟨hq.after, ?_⟩
      simp only [Place.capture, hp.after, hq.after, hq.groups]
  | backref i fold =>
    intro p p' k k' hp hk
    have hgroup : p.group? i = p'.group? i := by simp only [Place.group?, hp.groups]
    simp only [Node.run, hgroup, hp.after]
    split
    · exact .none
    · split
      · exact hk _ _ ⟨by simp only [Place.advance, hp.after], hp.groups⟩
      · exact .none
  | ahead negated body ih =>
    intro p p' k k' hp hk
    have hlook := ih hn p p' some some hp agree_some
    simp only [Node.run]
    generalize body.run p some = q, body.run p' some = q' at hlook
    cases hlook with
    | none =>
      cases negated with
      | true => exact hk p p' hp
      | false => exact .none
    | some hq =>
      cases negated with
      | true => exact .none
      | false => exact hk _ _ ⟨hp.after, hq.groups⟩
  | behind => cases hn
  | atomic body ih =>
    intro p p' k k' hp hk
    have hbody := ih hn p p' some some hp agree_some
    simp only [Node.run]
    generalize body.run p some = q, body.run p' some = q' at hbody
    cases hbody with
    | none => exact .none
    | some hq => exact hk _ _ hq
  | cond i yes no ihy ihn =>
    rw [Node.looksBack, Bool.or_eq_false_iff] at hn
    intro p p' k k' hp hk
    have hgroup : p.group? i = p'.group? i := by simp only [Place.group?, hp.groups]
    simp only [Node.run, hgroup]
    split
    · exact ihy hn.1 p p' k k' hp hk
    · exact ihn hn.2 p p' k k' hp hk

/-! ## Where a search finds a match -/

/-- What stands in front does not matter to whether a node that does not look back matches. -/
theorem matchAt_isSome_congr {n : Node} (hn : n.looksBack = false) (before before' after : Text) :
    (n.matchAt before after).isSome = (n.matchAt before' after).isSome := by
  have h := blind_run n hn ⟨before, after, []⟩ ⟨before', after, []⟩ some some ⟨rfl, rfl⟩ agree_some
  unfold Node.matchAt
  generalize n.run ⟨before, after, []⟩ some = q, n.run ⟨before', after, []⟩ some = q' at h
  cases h <;> rfl

/-- A search finds a match at some place of the text. -/
theorem matchAt_of_searchFrom {n : Node} {before s : Text} {m : Match} (h : n.searchFrom before s = some m) :
    ∃ pre post, s = pre ++ post ∧ m.start = before.length + pre.length ∧ n.matchAt (pre.reverse ++ before) post = some m := by
  have hstart : ∀ {before after : Text}, n.matchAt before after = some m → m.start = before.length := by
    intro before after hm
    obtain ⟨p, -, rfl⟩ := Option.map_eq_some_iff.1 hm
    rfl
  induction s generalizing before with
  | nil => exact ⟨[], [], rfl, hstart h, h⟩
  | cons c s ih =>
    rw [Node.searchFrom] at h
    split at h
    · rename_i m' hm'
      obtain rfl := Option.some.inj h
      exact ⟨[], c :: s, rfl, hstart hm', hm'⟩
    · obtain ⟨pre, post, rfl, hpos, hm⟩ := ih h
      refine ⟨c :: pre, post, rfl, ?_, ?_⟩
      · rw [hpos, List.length_cons, List.length_cons]
        omega
      · rw [List.reverse_cons, List.append_assoc]
        exact hm

/-- A search passes over no place where the node matches. -/
theorem searchFrom_isSome_of_matchAt {n : Node} {before pre post : Text}
    (h : (n.matchAt (pre.reverse ++ before) post).isSome = true) : (n.searchFrom before (pre ++ post)).isSome = true := by
  induction pre generalizing before with
  | nil =>
    cases post with
    | nil => exact h
    | cons c post =>
      obtain ⟨m, hm⟩ := Option.isSome_iff_exists.1 h
      rw [List.reverse_nil, List.nil_append] at hm
      rw [List.nil_append, Node.searchFrom, hm]
      rfl
  | cons c pre ih =>
    rw [List.reverse_cons, List.append_assoc] at h
    rw [List.cons_append, Node.searchFrom]
    split
    · rfl
    · exact ih h

/-- In two texts put together, a node that does not look back is found before the second one begins, unless that one holds it by
itself. -/
theorem start_lt_of_search?_append {n : Node} (hn : n.looksBack = false) {s t : Text} {m : Match}
    (h : n.search? (s ++ t) = some m) (ht : n.search? t = none) : m.start < s.length := by
  obtain ⟨pre, post, hsplit, hpos, hm⟩ := matchAt_of_searchFrom h
  rw [List.length_nil, Nat.zero_add] at hpos
  by_contra hlt
  rw [hpos, Nat.not_lt] at hlt
  obtain ⟨pre', rfl⟩ : ∃ pre', pre = s ++ pre' := by
    refine ⟨pre.drop s.length, ?_⟩
    have htake : pre.take s.length = s := by
      have := congrArg (List.take s.length) hsplit
      rw [List.take_left, List.take_append_of_le_length hlt] at this
      exact this.symm
    calc pre = pre.take s.length ++ pre.drop s.length := (List.take_append_drop _ _).symm
      _ = s ++ pre.drop s.length := by rw [htake]
  rw [List.append_assoc] at hsplit
  obtain rfl := List.append_cancel_left hsplit
  have hfound : (n.matchAt (pre'.reverse ++ []) post).isSome = true := by
    rw [matchAt_isSome_congr hn _ ((s ++ pre').reverse ++ []), hm]
    rfl
  have hsearch := searchFrom_isSome_of_matchAt hfound
  rw [← Node.search?, ht] at hsearch
  cases hsearch

end StepCatalog.Regex
