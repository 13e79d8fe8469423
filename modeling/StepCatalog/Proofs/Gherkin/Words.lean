import StepCatalog.Gherkin.Languages
import StepCatalog.Proofs.Text.Trim

/-!
# The words of the languages

A keyword of a language begins with a character that is no blank (`exists_of_mem_stepKeywords`). Languages are unmarked if their
keywords hold no character with which calls, comments or lines are written and begin no line comment (`Unmarked`); those of the table
are. The characters of a word are looked for among the bytes that encode it, where each of them is one byte (`byte_mem`).

Main statement: `unmarked_of_languages`.
-/

namespace StepCatalog

open Text (of)

namespace Gherkin

/-! ## Characters as bytes -/

/-- A character of the first 128 is encoded by its own code. -/
theorem byte_mem {s : String} {c : Char} (hc : c.toNat ≤ 127) (h : c ∈ s.toList) :
    UInt8.ofNat c.toNat ∈ s.toByteArray.data.toList := by
  have hencoded : String.utf8EncodeChar c = [UInt8.ofNat c.toNat] := if_pos hc
  rw [← String.utf8Encode_toList, List.utf8Encode, List.data_toByteArray]
  exact List.mem_flatMap.2 ⟨c, h, by rw [hencoded]; simp⟩

/-! ## Keywords -/

theorem mem_stepKeywords {ls : List Language} {w : Text} :
    w ∈ stepKeywords ls ↔ ∃ l ∈ ls, ∃ t ∈ StepType.ofKeywords, w ∈ l.words t := by
  simp only [stepKeywords, alternatives, List.mem_mergeSort, List.mem_eraseDups, Language.keywords, List.mem_flatMap, List.mem_map]
  constructor
  · rintro ⟨l, hl, _, ⟨t, ht, w, hw, rfl⟩, rfl⟩
    exact ⟨l, hl, t, ht, hw⟩
  · rintro ⟨l, hl, t, ht, hw⟩
    exact ⟨l, hl, (w, t), ⟨t, ht, w, hw, rfl⟩, rfl⟩

/-- The characters with which calls, comments and lines are written. -/
def markup : Text := of "(/\n"

/-- The keywords of languages hold no markup and begin no line comment. -/
def Unmarked (ls : List Language) : Prop := ∀ w ∈ stepKeywords ls, (∀ c ∈ markup, c ∉ w) ∧ w.head? ≠ some '#'

/-- The words of the table hold neither markup nor the sign of a line comment. -/
theorem markup_not_mem_listed {l : Language} (hl : l ∈ languages) {t : StepType} (ht : t ∈ StepType.ofKeywords) {w : String}
    (hw : w ∈ l.listed t) {c : Char} (hc : c ∈ '#' :: markup) : c ∉ w.toList := by
  have hbytes : ∀ l ∈ languages, ∀ t ∈ StepType.ofKeywords, ∀ w ∈ l.listed t,
      (w.toByteArray.data.toList.all fun b => !(('#' :: markup).map Char.toNat).contains b.toNat) = true := by decide +kernel
  have hcodes : (('#' :: markup).all fun c => c.toNat ≤ 127) = true := by decide
  simp only [List.all_eq_true, decide_eq_true_eq] at hcodes
  intro hmem
  have hbyte := List.all_eq_true.1 (hbytes l hl t ht w hw) _ (byte_mem (hcodes c hc) hmem)
  have hcode : (UInt8.ofNat c.toNat).toNat = c.toNat := by
    have hle := hcodes c hc
    rw [UInt8.toNat_ofNat']
    omega
  rw [hcode, List.contains_iff_mem.2 (List.mem_map_of_mem hc)] at hbyte
  cases hbyte

/-- A keyword begins with a character that is no blank. -/
theorem exists_of_mem_stepKeywords {ls : List Language} {w : Text} (hw : w ∈ stepKeywords ls) :
    ∃ c rest, w = c :: rest ∧ isBlank c = false := by
  obtain ⟨l, -, t, -, hw⟩ := mem_stepKeywords.1 hw
  simp only [Language.words, cleanWords, List.mem_filter, List.mem_map, Bool.and_eq_true, Bool.not_eq_true'] at hw
  obtain ⟨⟨listed, -, rfl⟩, hne, -⟩ := hw
  cases htrim : Text.trim listed.toList with
  | nil => simp [htrim] at hne
  | cons c rest => exact ⟨c, rest, rfl, Text.isBlank_of_trim_eq_cons htrim⟩

/-- The languages of the table are unmarked. -/
theorem unmarked_of_languages {ls : List Language} (hls : ∀ l ∈ ls, l ∈ languages) : Unmarked ls := by
  intro w hw
  obtain ⟨l, hl, t, ht, hw⟩ := mem_stepKeywords.1 hw
  simp only [Language.words, cleanWords, List.mem_filter, List.mem_map] at hw
  obtain ⟨⟨listed, hlisted, rfl⟩, -⟩ := hw
  have hnot : ∀ c ∈ '#' :: markup, c ∉ Text.trim listed.toList :=
    fun c hc hmem => markup_not_mem_listed (hls l hl) ht hlisted hc (Text.mem_of_mem_trim hmem)
  refine ⟨fun c hc => hnot c (List.mem_cons_of_mem _ hc), fun hhead => ?_⟩
  exact hnot '#' List.mem_cons_self (List.mem_of_mem_head? hhead)

end Gherkin
end StepCatalog
