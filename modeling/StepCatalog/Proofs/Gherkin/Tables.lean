import StepCatalog.Gherkin.Outline
import StepCatalog.Proofs.Entries
import StepCatalog.Proofs.Gherkin.LinePattern
import StepCatalog.Proofs.Text.Trim

/-!
# Tables of examples

A row of a table is cut at its bars, each taken with the blanks around it. A cut at every match of that pattern and a cut at every
bar followed by trimming give the same cells (`rowCells_eq_cut`). Reading a row undoes writing it, whatever blanks are written around
the cells (`rowCells_write`), and a row of values binds each name to the last value under it that is not empty (`get?_bindRow_iff`).

Main statement: `outlineBindings_of_table`.
-/

namespace StepCatalog

open Text (of trimStart trimEnd)

/-! ## Cutting at a pattern -/

namespace Regex

/-- The parts of a text between the matches of a pattern that takes something wherever it matches. Of the last match, `skip`
characters are still to be passed over. -/
def cutFrom (n : Node) : Nat → Text → Text → List Text
  | _, _, [] => [[]]
  | skip + 1, before, c :: s => cutFrom n skip (c :: before) s
  | 0, before, c :: s =>
    match n.matchAt before (c :: s) with
    | some m => [] :: cutFrom n (m.stop - m.start - 1) (c :: before) s
    | none => Text.consFirst c (cutFrom n 0 (c :: before) s)

/-- The parts of a text between the matches of a pattern. -/
def cut (n : Node) (s : Text) : List Text := cutFrom n 0 [] s

theorem cutFrom_append (n : Node) (u before s : Text) :
    cutFrom n u.length before (u ++ s) = cutFrom n 0 (u.reverse ++ before) s := by
  induction u generalizing before with
  | nil => rfl
  | cons c u ih =>
    rw [List.length_cons, List.cons_append, cutFrom, ih, List.reverse_cons, List.append_assoc]
    rfl

theorem cutFrom_ne_nil (n : Node) (skip : Nat) (before s : Text) : cutFrom n skip before s ≠ [] := by
  fun_induction cutFrom n skip before s with
  | case1 => simp
  | case2 _ _ _ _ ih => exact ih
  | case3 => simp
  | case4 before c s _ ih =>
    cases hparts : cutFrom n 0 (c :: before) s with
    | nil => exact absurd hparts ih
    | cons part parts => simp [Text.consFirst]

end Regex

namespace Gherkin

open Regex

/-- Any number of blanks. -/
def blanks : Node := .repeated .greedy 0 none (.one (CharSet.ofCategory false .blank))

/-- A bar with the blanks around it. -/
def barNode : Node := .ofSeq [blanks, .char .exact '|', blanks]

theorem ofText?_bar : Node.ofText? (of "\\s*\\|\\s*") {} = .ok barNode := by rfl

theorem run_bar (before rest : Text) : (Node.ofSeq [.char .exact '|', blanks]).run ⟨before, '|' :: rest, []⟩ some =
    some ⟨(rest.takeWhile isBlank).reverse ++ '|' :: before, trimStart rest, []⟩ := by
  rw [run_ofSeq_cons, Node.char, run_one_cons, if_pos ((literal_holds_iff _ _).2 rfl)]
  exact run_repeated_while holds_blank_iff (Nat.zero_le _) (by simp)

theorem run_bar_eq_none {s : Text} (hs : ∀ rest, s ≠ '|' :: rest) (before : Text) :
    (Node.ofSeq [.char .exact '|', blanks]).run ⟨before, s, []⟩ some = none := by
  rw [run_ofSeq_cons, Node.char]
  cases s with
  | nil => rfl
  | cons c s =>
    rw [run_one_cons, if_neg]
    intro hc
    exact hs s (by rw [(literal_holds_iff _ _).1 hc])

/-- The blanks in front of a bar are never given back: a blank is no bar. -/
theorem run_barNode (before s : Text) : barNode.run ⟨before, s, []⟩ some =
    (Node.ofSeq [.char .exact '|', blanks]).run ⟨(s.takeWhile isBlank).reverse ++ before, trimStart s, []⟩ some := by
  rw [barNode, run_ofSeq_cons, blanks, run_repeated_while holds_blank_iff (Nat.zero_le _)]
  · rfl
  · intro _ v c w hv
    refine run_bar_eq_none (fun rest h => ?_) _
    have hc : isBlank c = true := List.all_eq_true.1 List.all_takeWhile c (by rw [hv]; simp)
    rw [(List.cons.inj h).1] at hc
    exact absurd hc (by decide)

/-- Where a bar follows, perhaps behind blanks, it is taken with the blanks on both sides. -/
theorem matchAt_barNode {s rest : Text} (h : trimStart s = '|' :: rest) (before : Text) : ∃ m, barNode.matchAt before s = some m ∧
    m.stop - m.start = (s.takeWhile isBlank).length + 1 + (rest.takeWhile isBlank).length := by
  refine ⟨_, by rw [Node.matchAt, run_barNode, h, run_bar]; rfl, ?_⟩
  simp only [List.length_append, List.length_reverse, List.length_cons]
  omega

theorem matchAt_barNode_eq_none {s : Text} (h : ∀ rest, trimStart s ≠ '|' :: rest) (before : Text) :
    barNode.matchAt before s = none := by
  rw [Node.matchAt, run_barNode, run_bar_eq_none h]
  rfl

/-! ## The parts between bars -/

/-- A match that takes the characters in front. -/
theorem cutFrom_of_matchAt {n : Node} {v before s : Text} {m : Match} (hm : n.matchAt before (v ++ s) = some m) (hv : v ≠ [])
    (hsize : m.stop - m.start = v.length) : cutFrom n 0 before (v ++ s) = [] :: cutFrom n 0 (v.reverse ++ before) s := by
  obtain ⟨c, v, rfl⟩ := List.exists_cons_of_ne_nil hv
  rw [List.cons_append] at hm ⊢
  simp only [cutFrom, hm, hsize, List.length_cons, Nat.add_sub_cancel, cutFrom_append, List.reverse_cons, List.append_assoc,
    List.singleton_append]

theorem cutFrom_of_no_bar {s : Text} (hs : '|' ∉ s) (before : Text) : cutFrom barNode 0 before s = [s] := by
  induction s generalizing before with
  | nil => rfl
  | cons c s ih =>
    rw [cutFrom, matchAt_barNode_eq_none]
    · rw [ih fun h => hs (List.mem_cons_of_mem c h)]
      rfl
    · intro rest h
      exact hs (Text.mem_of_mem_trimStart (by rw [h]; simp))

/-- At blanks with a bar behind them, the bar is taken with the blanks on both sides. -/
theorem cutFrom_blanks_bar {u : Text} (hu : u.isBlankText = true) (before rest : Text) : ∃ before',
    cutFrom barNode 0 before (u ++ '|' :: rest) = [] :: cutFrom barNode 0 before' (trimStart rest) := by
  have hstart : trimStart (u ++ '|' :: rest) = '|' :: rest := by
    rw [Text.trimStart_append hu, trimStart, List.dropWhile_cons_of_neg (by decide)]
  have htaken : (u ++ '|' :: rest).takeWhile isBlank = u := by
    rw [List.takeWhile_append_of_pos (List.all_eq_true.1 hu), List.takeWhile_cons_of_neg (by decide), List.append_nil]
  have hcut : u ++ '|' :: rest = (u ++ '|' :: rest.takeWhile isBlank) ++ trimStart rest := by simp [trimStart]
  obtain ⟨m, hm, hsize⟩ := matchAt_barNode hstart before
  rw [htaken] at hsize
  rw [hcut] at hm ⊢
  exact ⟨_, cutFrom_of_matchAt hm (by simp) (by rw [hsize]; simp; omega)⟩

/-- The first part ends in front of the blanks of the first bar, and the next one begins behind them. -/
theorem cutFrom_bar {u : Text} (hu : '|' ∉ u) (before rest : Text) : ∃ before',
    cutFrom barNode 0 before (u ++ '|' :: rest) = trimEnd u :: cutFrom barNode 0 before' (trimStart rest) := by
  induction u generalizing before with
  | nil => exact cutFrom_blanks_bar rfl before rest
  | cons c u ih =>
    by_cases hblank : Text.isBlankText (c :: u) = true
    · rw [← List.nil_append (c :: u), Text.trimEnd_append hblank, List.nil_append]
      exact cutFrom_blanks_bar hblank before rest
    · obtain ⟨before', hrest⟩ := ih (fun h => hu (List.mem_cons_of_mem c h)) (c :: before)
      have hnone : barNode.matchAt before (c :: u ++ '|' :: rest) = none := by
        refine matchAt_barNode_eq_none (fun rest' h => ?_) before
        -- what is left of the part behind its leading blanks does not begin with a bar
        have hne : trimStart (c :: u) ≠ [] := fun h => hblank (List.all_eq_true.2 (List.dropWhile_eq_nil_iff.1 h))
        obtain ⟨d, v, hv⟩ := List.exists_cons_of_ne_nil hne
        rw [Text.trimStart_append_cons (by decide), hv, List.cons_append] at h
        have hd : d ∈ c :: u := Text.mem_of_mem_trimStart (by rw [hv]; simp)
        rw [(List.cons.inj h).1] at hd
        exact hu hd
      refine ⟨before', ?_⟩
      rw [List.cons_append] at hnone ⊢
      rw [cutFrom, hnone, hrest, Text.trimEnd_cons (Bool.not_eq_true _ ▸ hblank)]
      rfl

/-! ## Rows -/

/-- Behind a bar, the parts but for the last are trimmed. -/
theorem dropLast_cutFrom (s before : Text) :
    (cutFrom barNode 0 before (trimStart s)).dropLast = ((Text.splitOn '|' s).dropLast).map Text.trim := by
  induction s using Text.parts_induction '|' generalizing before with
  | last part hpart =>
    rw [cutFrom_of_no_bar fun h => hpart (Text.mem_of_mem_trimStart h), Text.splitOn_of_not_mem hpart]
    rfl
  | more part rest hpart ih =>
    obtain ⟨before', hcut⟩ := cutFrom_bar (fun h => hpart (Text.mem_of_mem_trimStart h)) before rest
    rw [Text.trimStart_append_cons (by decide), hcut, Text.splitOn_append_cons hpart,
      List.dropLast_cons_of_ne_nil (cutFrom_ne_nil _ _ _ _), List.dropLast_cons_of_ne_nil (Text.splitOn_ne_nil _ _), ih]
    rfl

/-- The cells of a row are the inner parts of the cut at its bars. -/
theorem rowCells_eq_cut (row : Text) : rowCells row = ((cut barNode row).drop 1).dropLast := by
  by_cases hrow : '|' ∈ row
  · obtain ⟨part, rest, rfl, hpart⟩ := List.eq_append_cons_of_mem hrow
    obtain ⟨before, hcut⟩ := cutFrom_bar hpart [] rest
    rw [cut, hcut, rowCells, Text.splitOn_append_cons hpart]
    exact (dropLast_cutFrom rest before).symm
  · rw [cut, cutFrom_of_no_bar hrow, rowCells, Text.splitOn_of_not_mem hrow]
    rfl

/-- A cell of a table as it is written: a text without bars and without blanks at its ends, between blanks. -/
structure Cell where
  text : Text
  front : Text
  back : Text
  no_bar : '|' ∉ text
  trimmed : text.trim = text
  front_blank : front.isBlankText = true
  back_blank : back.isBlankText = true

/-- The cell with the blanks around it. -/
def Cell.write (c : Cell) : Text := c.front ++ (c.text ++ c.back)

/-- A row of a table as it is written: an indentation, the cells with a bar in front of each and one behind the last, and blanks. A row
without cells may be written with a bar or without. -/
structure Row where
  indent : Text
  cells : List Cell
  closed : Bool
  tail : Text
  indent_blank : indent.isBlankText = true
  closed_of_cells : cells ≠ [] → closed = true
  tail_blank : tail.isBlankText = true

namespace Row

/-- The line of a row. -/
def write (r : Row) : Text :=
  r.indent ++ (r.cells.flatMap (fun c => '|' :: c.write) ++ ((if r.closed then ['|'] else []) ++ r.tail))

/-- The texts of the cells. -/
def texts (r : Row) : List Text := r.cells.map (·.text)

end Row

theorem bar_not_mem_of_blank {s : Text} (h : s.isBlankText = true) : '|' ∉ s := by
  intro hmem
  exact absurd (List.all_eq_true.1 h _ hmem) (by decide)

theorem Cell.bar_not_mem_write (c : Cell) : '|' ∉ c.write := by
  simp only [write, List.mem_append, not_or]
  exact ⟨bar_not_mem_of_blank c.front_blank, c.no_bar, bar_not_mem_of_blank c.back_blank⟩

/-- The parts of a written row are its indentation, its cells and what stands behind the last bar. -/
theorem splitOn_cells {u tail : Text} (hu : '|' ∉ u) (htail : '|' ∉ tail) (cells : List Cell) :
    Text.splitOn '|' (u ++ (cells.flatMap (fun c => '|' :: c.write) ++ '|' :: tail)) = u :: (cells.map Cell.write ++ [tail]) := by
  induction cells generalizing u with
  | nil => rw [List.flatMap_nil, List.nil_append, Text.splitOn_append_cons hu, Text.splitOn_of_not_mem htail]; rfl
  | cons c cells ih =>
    rw [List.flatMap_cons, List.cons_append, List.cons_append, Text.splitOn_append_cons hu, List.append_assoc,
      ih c.bar_not_mem_write]
    rfl

/-- Reading a row undoes writing it. -/
theorem rowCells_write (r : Row) : rowCells r.write = r.texts := by
  have htrim : ∀ c : Cell, c.write.trim = c.text := fun c => Text.trim_padded c.front_blank c.trimmed c.back_blank
  have htail := bar_not_mem_of_blank r.tail_blank
  by_cases hclosed : r.closed = true
  · rw [rowCells, Row.write, hclosed, if_pos rfl, List.singleton_append, splitOn_cells (bar_not_mem_of_blank r.indent_blank) htail]
    simp [Row.texts, htrim]
  · have hcells : r.cells = [] := by
      by_contra hne
      exact hclosed (r.closed_of_cells hne)
    have hbar : '|' ∉ r.indent ++ r.tail := by simp [bar_not_mem_of_blank r.indent_blank, htail]
    simp [rowCells, Row.write, Row.texts, hcells, hclosed, Text.splitOn_of_not_mem hbar]

/-! ## Names and values -/

/-- The bindings that pairs of a name and a value make, one after the other. -/
def bindCells (cells : List (Text × Text)) : Bindings :=
  cells.foldl (fun b (name, value) => if value.isEmpty then b else Entries.put name value b) []

theorem bindCells_concat (cells : List (Text × Text)) (name value : Text) : bindCells (cells ++ [(name, value)]) =
    if value = [] then bindCells cells else Entries.put name value (bindCells cells) := by
  simp [bindCells]

/-- What is read under a name is the last value under it that is not empty. -/
theorem get?_bindCells_iff (cells : List (Text × Text)) (name value : Text) :
    Entries.get? name (bindCells cells) = some value ↔
      ∃ j, cells[j]? = some (name, value) ∧ value ≠ [] ∧ ∀ (k : Nat) v, j < k → cells[k]? = some (name, v) → v = [] := by
  induction cells using List.reverseRecOn with
  | nil => simp [bindCells, Entries.get?]
  | append_singleton cells cell ih =>
    obtain ⟨last, v⟩ := cell
    have hat : ∀ (k : Nat) cell, (cells ++ [(last, v)])[k]? = some cell ↔
        cells[k]? = some cell ∨ k = cells.length ∧ (last, v) = cell := by
      intro k cell
      grind
    have hlt : ∀ {k : Nat} {cell}, cells[k]? = some cell → k < cells.length := fun h => (List.getElem?_eq_some_iff.1 h).1
    have hget : Entries.get? name (bindCells (cells ++ [(last, v)])) =
        if last = name ∧ v ≠ [] then some v else Entries.get? name (bindCells cells) := by
      rw [bindCells_concat]
      by_cases hv : v = [] <;> simp [hv, Entries.get?_put]
    rw [hget]
    split
    · rename_i hcounts
      obtain ⟨rfl, hv⟩ := hcounts
      constructor
      · rintro ⟨⟩
        refine ⟨cells.length, (hat _ _).2 (.inr ⟨rfl, rfl⟩), hv, fun k w hk hw => ?_⟩
        rcases (hat _ _).1 hw with hw | ⟨rfl, -⟩
        · exact absurd (hlt hw) (by omega)
        · omega
      · rintro ⟨j, hj, -, hlater⟩
        rcases (hat _ _).1 hj with hj | ⟨-, hj⟩
        · exact absurd (hlater _ v (hlt hj) ((hat _ _).2 (.inr ⟨rfl, rfl⟩))) hv
        · cases hj
          rfl
    · -- the last pair binds nothing under the name
      rename_i hidle
      rw [ih]
      constructor
      · rintro ⟨j, hj, hne, hlater⟩
        refine ⟨j, (hat _ _).2 (.inl hj), hne, fun k w hk hw => ?_⟩
        rcases (hat _ _).1 hw with hw | ⟨-, hw⟩
        · exact hlater k w hk hw
        · cases hw
          by_contra hv
          exact hidle ⟨rfl, hv⟩
      · rintro ⟨j, hj, hne, hlater⟩
        rcases (hat _ _).1 hj with hj | ⟨-, hj⟩
        · exact ⟨j, hj, hne, fun k w hk hw => hlater k w hk ((hat _ _).2 (.inl hw))⟩
        · cases hj
          exact absurd ⟨rfl, hne⟩ hidle

/-- No name is bound twice. -/
theorem nodup_bindCells (cells : List (Text × Text)) : ((bindCells cells).map (·.1)).Nodup := by
  induction cells using List.reverseRecOn with
  | nil => exact List.nodup_nil
  | append_singleton cells cell ih =>
    rw [bindCells_concat]
    split
    · exact ih
    · exact Entries.nodup_keys_put ih _ _

/-- Lines that head no table are passed over. -/
theorem bindingsIn_append {ls : List Language} {pre : List Text} (hpre : ∀ line ∈ pre, isExamplesHeader ls line = false)
    (lines : List Text) : bindingsIn ls (pre ++ lines) = bindingsIn ls lines := by
  induction pre with
  | nil => rfl
  | cons line pre ih =>
    rw [List.forall_mem_cons] at hpre
    rw [← ih hpre.2, List.cons_append]
    match pre ++ lines with
    | [] => rfl
    | [_] => rfl
    | _ :: _ :: _ => rw [bindingsIn, hpre.1]; rfl

/-- Reading a table of examples undoes writing it: the names of the first row are bound to the values of the second one, each to the last
value under it that is not empty. -/
theorem outlineBindings_of_table (ls : List Language) (pre : List Text) (header : Text) (names values : Row) (post : List Text)
    (n : Int) (hheader : isExamplesHeader ls header = true) (hn : n ≤ pre.length)
    (hpre : ∀ line ∈ pre.drop n.toNat, isExamplesHeader ls line = false) :
    let b := outlineBindings ls (pre ++ header :: names.write :: values.write :: post) n
    (b.map (·.1)).Nodup ∧
    (∀ name value, Entries.get? name b = some value ↔
      ∃ j, names.texts[j]? = some name ∧ values.texts[j]? = some value ∧ value ≠ [] ∧
        ∀ (k : Nat) v, j < k → names.texts[k]? = some name → values.texts[k]? = some v → v = []) ∧
    ∃ bar, Node.ofText? (of "\\s*\\|\\s*") {} = .ok bar ∧ ∀ row, rowCells row = ((cut bar row).drop 1).dropLast := by
  intro b
  have hb : b = bindRow names.texts values.texts := by
    show bindingsIn ls (List.drop n.toNat (pre ++ header :: names.write :: values.write :: post)) = _
    rw [List.drop_append_of_le_length (by omega), bindingsIn_append hpre, bindingsIn, if_pos hheader, rowCells_write, rowCells_write]
  rw [hb]
  refine ⟨nodup_bindCells _, fun name value => ?_, barNode, ofText?_bar, rowCells_eq_cut⟩
  rw [bindRow, ← bindCells, get?_bindCells_iff]
  simp only [List.getElem?_zip_eq_some, and_assoc, and_imp]

/-- A name that stands twice, a name over an empty cell, a value under no name and another row behind, with blanks of several kinds. -/
theorem outlineBindings_of_table_repeated :
    let ls : List Language := [⟨"q", ["Given "], [], [], [], [], ["Examples"]⟩]
    let document := ["Given <n>", " Examples: of n", "\t| n|m |\u3000n | ", "| 1||2 |3|", "| 9 | 9 | 9 |"].map of
    Entries.get? (of "n") (outlineBindings ls document (-1)) = some (of "2") ∧
      Entries.get? (of "m") (outlineBindings ls document (-1)) = none := by
  intro ls document
  let cell (text front back : String) (h : '|' ∉ of text ∧ (of text).trim = of text ∧ (of front).isBlankText = true ∧
      (of back).isBlankText = true) : Cell := ⟨of text, of front, of back, h.1, h.2.1, h.2.2.1, h.2.2.2⟩
  let names : Row :=
    ⟨of "\t", [cell "n" " " "" (by decide), cell "m" "" " " (by decide), cell "n" "\u3000" " " (by decide)], true, of " ",
      by decide, by simp, by decide⟩
  let values : Row :=
    ⟨[], [cell "1" " " "" (by decide), cell "" "" "" (by decide), cell "2" "" " " (by decide), cell "3" "" "" (by decide)], true, [],
      by decide, by simp, by decide⟩
  obtain ⟨-, hget, -⟩ := outlineBindings_of_table ls [of "Given <n>"] (of " Examples: of n") names values [of "| 9 | 9 | 9 |"] (-1)
    (by decide +kernel) (by decide) (by decide +kernel)
  refine ⟨(hget _ _).2 ⟨2, rfl, rfl, by decide, fun k v hk hname => ?_⟩, ?_⟩
  · have hlt : k < 3 := (List.getElem?_eq_some_iff.1 hname).1
    omega
  · rw [Option.eq_none_iff_forall_ne_some]
    intro v hv
    obtain ⟨j, hname, hvalue, hne, -⟩ := (hget _ _).1 hv
    match j with
    | 0 | 2 => exact absurd hname (by decide)
    | 1 => exact hne (Option.some.inj hvalue).symm
    | j + 3 => cases hname

end Gherkin
end StepCatalog
