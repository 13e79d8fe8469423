import StepCatalog.Definition.Rule
import StepCatalog.Proofs.Regex.Beyond

/-!
# Keywords and bodies of definitions

The rule of languages looks neither back nor beyond what it takes, and whatever it finds begins with a keyword and has a body.
-/

namespace StepCatalog.Regex

/-- What holds of nodes, of the empty one and of two in sequence holds of all of them one after the other. -/
theorem ofSeq_of_forall {P : Node → Prop} (hempty : P .empty) (hseq : ∀ a b, P a → P b → P (.seq a b)) {ns : List Node}
    (h : ∀ n ∈ ns, P n) : P (Node.ofSeq ns) := by
  fun_induction Node.ofSeq ns with
  | case1 => exact hempty
  | case2 n => exact h n (by simp)
  | case3 n ns _ ih => exact hseq _ _ (h n (by simp)) (ih fun m hm => h m (List.mem_cons_of_mem _ hm))

theorem ofAlts_of_forall {P : Node → Prop} (hempty : P .empty) (halt : ∀ a b, P a → P b → P (.alt a b)) {ns : List Node}
    (h : ∀ n ∈ ns, P n) : P (Node.ofAlts ns) := by
  fun_induction Node.ofAlts ns with
  | case1 => exact hempty
  | case2 n => exact h n (by simp)
  | case3 n ns _ ih => exact halt _ _ (h n (by simp)) (ih fun m hm => h m (List.mem_cons_of_mem _ hm))

/-- A node that depends neither on what stands in front nor on what follows the text that it takes. -/
def Node.Secluded (n : Node) : Prop := n.looksBack = false ∧ n.looksBeyond = false

theorem secluded_ofSeq {ns : List Node} (h : ∀ n ∈ ns, n.Secluded) : (Node.ofSeq ns).Secluded := by
  refine ofSeq_of_forall ⟨rfl, rfl⟩ (fun a b ha hb => ?_) h
  simp [Node.Secluded, Node.looksBack, Node.looksBeyond, ha.1, ha.2, hb.1, hb.2]

theorem secluded_ofAlts {ns : List Node} (h : ∀ n ∈ ns, n.Secluded) : (Node.ofAlts ns).Secluded := by
  refine ofAlts_of_forall ⟨rfl, rfl⟩ (fun a b ha hb => ?_) h
  simp [Node.Secluded, Node.looksBack, Node.looksBeyond, ha.1, ha.2, hb.1, hb.2]

theorem secluded_literal (fold : CaseFold) (s : Text) : (Node.literal fold s).Secluded := by
  refine secluded_ofSeq ?_
  rw [List.forall_mem_map]
  exact fun c _ => ⟨rfl, rfl⟩

end StepCatalog.Regex

namespace StepCatalog.Definition

open Regex

/-- The words that declare a step, in order of preference. -/
def wordsNode (ls : List Gherkin.Language) : Node := .group (some 2) (Node.ofAlts ((declaringWords ls).map (Node.literal .full)))

/-- What follows the keyword. -/
def argumentNodes : List Node := (headNodes []).tail ++ bodyNodes

theorem node_ofLanguages (ls : List Gherkin.Language) :
    (Rule.ofLanguages ls).node = Node.ofSeq (.group (some 1) (wordsNode ls) :: argumentNodes) := rfl

/-- Whether the rule of languages matches at a place is settled by the text that it takes. -/
theorem secluded_ofLanguages (ls : List Gherkin.Language) : (Rule.ofLanguages ls).node.Secluded := by
  have hargument : ∀ n ∈ argumentNodes, n.looksBack = false ∧ n.looksBeyond = false := by decide +kernel
  rw [node_ofLanguages]
  refine secluded_ofSeq ?_
  rw [List.forall_mem_cons]
  refine ⟨secluded_ofAlts ?_, hargument⟩
  rw [List.forall_mem_map]
  intro word _
  exact secluded_literal .full word

/-- A definition that is found was found by a match at its beginning. -/
theorem matchAt_of_find? {rule : Rule} {line : Text} {found : Found} (h : rule.find? line = some found) :
    ∃ pre post m, line = pre ++ post ∧ found.start = pre.length ∧ rule.node.matchAt pre.reverse post = some m ∧
      found.keyword? = m.group? rule.keywordGroup ∧ found.body? = m.group? rule.bodyGroup := by
  obtain ⟨m, hm, rfl⟩ := Option.map_eq_some_iff.1 h
  obtain ⟨pre, post, hsplit, hstart, hmatch⟩ := matchAt_of_searchFrom hm
  rw [List.length_nil, Nat.zero_add] at hstart
  rw [List.append_nil] at hmatch
  exact ⟨pre, post, m, hsplit, hstart, hmatch, rfl, rfl⟩

/-- What the rule of languages finds begins with its keyword. -/
theorem keyword_of_find? {ls : List Gherkin.Language} {line : Text} {found : Found}
    (h : (Rule.ofLanguages ls).find? line = some found) :
    ∃ keyword rest, found.keyword? = some keyword ∧ line.drop found.start = keyword ++ rest := by
  obtain ⟨pre, post, m, rfl, hstart, hmatch, hkeyword, -⟩ := matchAt_of_find? h
  obtain ⟨p, hrun, rfl⟩ := Option.map_eq_some_iff.1 hmatch
  rw [node_ofLanguages] at hrun
  obtain ⟨q, keyword, rest, hq, hgroup, hpost⟩ := first_group_ofSeq (by decide +kernel) hrun
  obtain rfl := Option.some.inj hq
  exact ⟨keyword, rest, hkeyword.trans hgroup, by rw [hstart, List.drop_left]; exact hpost⟩

end StepCatalog.Definition
