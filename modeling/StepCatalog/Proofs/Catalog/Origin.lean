import StepCatalog.CommandLine.Run
import StepCatalog.Proofs.Catalog.Scan
import StepCatalog.Proofs.Text.Encoding

/-!
# The file that a step came from

The address of a step is the path of its file, percent-encoded: decoded once, it gives that path. The file of a step, and what the
index shows, comes of decoding twice (`Path.ofUri`), so that it is the path again exactly if no name on the way there holds an escape
of its own (`Catalog.mem_fileSteps_file_iff`): a file `a%20b.js` is shown as `a b.js`.
-/

namespace StepCatalog

open Text (of)

/-! ## Paths and their addresses -/

namespace Path

open Percent

/-- A path that leads to a file: no name of it is empty or `.`, or holds a slash. -/
def Proper (p : Path) : Prop := ∀ name ∈ p, name ≠ [] ∧ name ≠ ['.'] ∧ '/' ∉ name

instance (p : Path) : Decidable p.Proper := inferInstanceAs (Decidable (∀ name ∈ p, _))

theorem splitOn_toText (p : Path) : Text.splitOn '/' p.toText = [] :: Text.splitOn '/' (Text.join ['/'] p) := by
  simp [toText, Text.splitOn]

/-- The names of a written path are its names. -/
theorem names_toText {p : Path} (hp : p.Proper) : names p.toText = p := by
  rw [names, splitOn_toText]
  cases p with
  | nil => rfl
  | cons name p =>
    have hslash : ∀ n ∈ name :: p, '/' ∉ n := fun n hn => (hp n hn).2.2
    rw [Text.splitOn_join hslash (List.cons_ne_nil _ _), List.filter_cons_of_neg (by simp), List.filter_eq_self]
    intro n hn
    obtain ⟨hempty, hdot, -⟩ := hp n hn
    simp [hempty, hdot]

/-- The names that a text writes, written again, take at most a slash more than the text. -/
theorem length_toText_names_le (s : Text) : (toText (names s)).length ≤ s.length + 1 := by
  have hle : (Text.join ['/'] (names s)).length ≤ (Text.join ['/'] (Text.splitOn '/' s)).length :=
    Text.length_join_le_of_sublist List.filter_sublist
  rw [Text.join_splitOn] at hle
  exact Nat.succ_le_succ hle

/-- An escape in a written path stands in one of its names. -/
theorem holdsEscape_toText_iff (p : Path) : HoldsEscape p.toText ↔ ∃ name ∈ p, HoldsEscape name := by
  have hslash : ∀ u v : Text, HoldsEscape (u ++ '/' :: v) ↔ HoldsEscape u ∨ HoldsEscape v :=
    holdsEscape_append_cons_iff (by decide) (by decide)
  have hnil : ¬HoldsEscape [] := fun ⟨_, _, _, _, hinfix⟩ => absurd (List.infix_nil.1 hinfix) (by simp)
  rw [toText, ← List.nil_append ('/' :: _), hslash, or_iff_right hnil]
  induction p with
  | nil => simpa [Text.join] using hnil
  | cons name p ih =>
    rw [List.exists_mem_cons_iff]
    by_cases hp : p = []
    · simp [hp, Text.join]
    · rw [Text.join_cons hp, List.singleton_append]
      exact (hslash _ _).trans (or_congr_right ih)

/-- An address begins with `file://`; what follows is decoded once to the path. -/
theorem after?_toUri (p : Path) : Text.after? (of "file://") p.toUri = some (encode p.toText) :=
  Text.after?_eq_some_iff.2 rfl

/-- The path of an address comes of decoding the path that the address was made of. -/
theorem ofUri_toUri (p : Path) : ofUri p.toUri = names (decode p.toText) := by
  rw [ofUri, after?_toUri, Option.getD_some, decode_encode]

/-- An address leads back to its path exactly if no name of the path holds an escape: what an escape is decoded to is too short to
write the path. -/
theorem ofUri_toUri_eq_iff {p : Path} (hp : p.Proper) : ofUri p.toUri = p ↔ ∀ name ∈ p, ¬HoldsEscape name := by
  have hnames : (∀ name ∈ p, ¬HoldsEscape name) ↔ ¬HoldsEscape p.toText := by
    rw [holdsEscape_toText_iff]
    push Not
    rfl
  rw [ofUri_toUri, hnames]
  constructor
  · intro heq hescape
    have hshort := length_decode_add_two_le hescape
    have hlong := length_toText_names_le (decode p.toText)
    rw [heq] at hlong
    omega
  · intro hno
    rw [decode_of_no_escape hno, names_toText hp]

/-- The names that a text writes are those of a path to a file. -/
theorem proper_names (s : Text) : Proper (names s) := by
  intro name hname
  obtain ⟨hmem, hkept⟩ := List.mem_filter.1 hname
  have hkept : name ≠ [] ∧ name ≠ ['.'] := by simpa using hkept
  exact ⟨hkept.1, hkept.2, Text.not_mem_of_mem_splitOn hmem⟩

/-- Two paths to files that are written alike are the same. -/
theorem toText_inj {p q : Path} (hp : p.Proper) (hq : q.Proper) : p.toText = q.toText ↔ p = q :=
  ⟨fun h => by rw [← names_toText hp, h, names_toText hq], congrArg toText⟩

end Path

/-! ## Steps and their files -/

namespace Catalog

/-- The address of a step is that of the file it was found in. -/
theorem uri_of_mem_fileSteps {s : Settings} {rule : Definition.Rule} {w : Workspace} {file : Path} {steps : List Step}
    (hscan : (fileSteps s rule w file).result = .ok steps) {x : Step} (hx : x ∈ steps) : x.uri = file.toUri := by
  obtain ⟨-, rfl⟩ := (fileSteps_result_eq_ok file steps).1 hscan
  obtain ⟨-, -, -, -, -, -, -, -, -, rfl⟩ := mem_listedSteps hx
  rfl

/-- The address of a step, decoded once, gives the path of the file it was found in. The file of the step, decoded twice, is that
path exactly if no name on the path holds an escape, and the same holds of the file that the index shows. -/
theorem mem_fileSteps_file_iff {s : Settings} {rule : Definition.Rule} {w : Workspace} {file : Path} (hproper : file.Proper)
    {steps : List Step} (hscan : (fileSteps s rule w file).result = .ok steps) {x : Step} (hx : x ∈ steps) :
    (Text.after? (of "file://") x.uri).map Percent.decode = some file.toText ∧
    (x.file = file ↔ ∀ name ∈ file, ¬Percent.HoldsEscape name) ∧
    ((CommandLine.indexed x).field? (of "file") = some (.string file.toText) ↔ ∀ name ∈ file, ¬Percent.HoldsEscape name) := by
  have huri := uri_of_mem_fileSteps hscan hx
  have hfile : x.file = Path.ofUri file.toUri := congrArg Path.ofUri huri
  have hiff := Path.ofUri_toUri_eq_iff hproper
  have hindexed : (CommandLine.indexed x).field? (of "file") = some (.string x.file.toText) := rfl
  refine ⟨?_, ?_, ?_⟩
  · rw [huri, Path.after?_toUri, Option.map_some, Percent.decode_encode]
  · rw [hfile, hiff]
  · have hproper' : (Path.ofUri file.toUri).Proper := Path.proper_names _
    rw [hindexed, hfile, Option.some_inj, Json.string.injEq, Path.toText_inj hproper' hproper, hiff]

/-- Blanks, letters beyond ASCII and the signs that addresses reserve make no difference, and neither does a percent sign without
digits. -/
theorem mem_fileSteps_file_iff_signs :
    let s : Settings := { languages := [⟨"q", ["Given "], [], [], [], [], []⟩] }
    let rule := Definition.Rule.ofLanguages s.languages
    let file : Path := [of "d é%", of "a?#;.js"]
    let w : Workspace := ⟨[(file, .file ((of "Given('x', f)").map fun c => c.toNat.toUInt8))]⟩
    file.Proper ∧ ∃ x, (fileSteps s rule w file).result = .ok [x] ∧ x.uri = of "file:///d%20%C3%A9%25/a%3F%23%3B.js" ∧
      x.file = file ∧ (CommandLine.indexed x).field? (of "file") = some (.string (of "/d é%/a?#;.js")) := by
  intro s rule file w
  have hproper : file.Proper := by decide +kernel
  have hno : ∀ name ∈ file, ¬Percent.HoldsEscape name := by decide +kernel
  have huris : (fileSteps s rule w file).result.toOption.map (·.map (·.uri)) = some [of "file:///d%20%C3%A9%25/a%3F%23%3B.js"] := by
    decide +kernel
  cases hscan : (fileSteps s rule w file).result with
  | error fault => simp [hscan, Except.toOption] at huris
  | ok steps =>
    have huris : steps.map (·.uri) = [of "file:///d%20%C3%A9%25/a%3F%23%3B.js"] := by
      simpa [hscan, Except.toOption] using huris
    obtain ⟨x, rfl, huri⟩ := List.map_eq_singleton_iff.1 huris
    obtain ⟨-, hfile, hindexed⟩ := mem_fileSteps_file_iff hproper hscan (List.mem_singleton_self x)
    exact ⟨hproper, x, rfl, huri, hfile.2 hno, hindexed.2 hno⟩

/-- The file `a%20b.js` is taken for `a b.js`. -/
theorem fileSteps_mistake_escaped_name :
    let s : Settings := { languages := [⟨"q", ["Given "], [], [], [], [], []⟩] }
    let file : Path := [of "a%20b.js"]
    let w : Workspace := ⟨[(file, .file ((of "Given('x', f)").map fun c => c.toNat.toUInt8))]⟩
    file.Proper ∧
      (fileSteps s (.ofLanguages s.languages) w file).result.toOption.map (·.map (·.file)) = some [[of "a b.js"]] ∧
      [of "a b.js"] ≠ file := by
  decide +kernel

end Catalog
end StepCatalog
