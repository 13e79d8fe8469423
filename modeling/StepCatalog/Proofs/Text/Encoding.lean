import StepCatalog.Proofs.Text.Parts
import StepCatalog.Text.Percent

/-!
# Texts as bytes and as addresses

Decoding undoes encoding, of UTF-8 (`Utf8.decodeLossy_encode`) and of percent-encoding (`Percent.decode_encode`). To decode a text that
was not encoded leaves it alone if no percent sign in it has two hexadecimal digits behind it (`Percent.decode_of_no_escape`); where
one has, what is decoded is shorter by two (`Percent.length_decode_add_two_le`).
-/

namespace StepCatalog

/-! ## UTF-8 -/

namespace Utf8

theorem toNat_toUInt8 {n : Nat} (h : n < 256) : n.toUInt8.toNat = n := by
  rw [Nat.toUInt8, UInt8.toNat_ofNat']
  omega

/-- A byte within its bounds adds its share to the value. -/
theorem follow_succ {owed lo hi value size : Nat} {b : UInt8} (hlo : lo ≤ b.toNat) (hhi : b.toNat ≤ hi) (rest : List UInt8) :
    follow (owed + 1) lo hi value size (b :: rest) =
      follow owed 0x80 0xBF (value * 0x40 + (b.toNat - 0x80)) (size + 1) rest := by
  simp [follow, hlo, hhi]

theorem head_of_promise {b : UInt8} {owed lo hi value : Nat} (h : promise? b.toNat = some (owed, lo, hi, value)) (rest : List UInt8) :
    head b rest = follow owed lo hi value 1 rest := by
  simp [head, h]

/-- The first of two bytes. -/
theorem promise?_two (v : Nat) (hlo : 2 ≤ v) (hhi : v ≤ 0x1F) : promise? (0xC0 + v) = some (1, 0x80, 0xBF, v) := by
  have hbounds : (decide (0xC2 ≤ 0xC0 + v) && decide (0xC0 + v ≤ 0xDF)) = true := by simp; omega
  rw [promise?, if_neg (by omega), if_pos hbounds]
  simp

/-- The first of three bytes; what it demands of the next one leaves out long forms and surrogates. -/
theorem promise?_three (v next : Nat) (hv : v ≤ 0xF) (hnext : next < 0x40) (hlong : v = 0 → 0x20 ≤ next)
    (hsurrogate : v = 0xD → next < 0x20) :
    ∃ lo hi, promise? (0xE0 + v) = some (2, lo, hi, v) ∧ lo ≤ 0x80 + next ∧ 0x80 + next ≤ hi := by
  have htwo : ¬(decide (0xC2 ≤ 0xE0 + v) && decide (0xE0 + v ≤ 0xDF)) = true := by simp; omega
  rw [promise?, if_neg (by omega), if_neg htwo]
  by_cases h0 : v = 0
  · have := hlong h0
    exact ⟨0xA0, 0xBF, by simp [h0], by omega, by omega⟩
  · by_cases hD : v = 0xD
    · have := hsurrogate hD
      exact ⟨0x80, 0x9F, by simp [hD], by omega, by omega⟩
    · have hthree : (decide (0xE1 ≤ 0xE0 + v) && decide (0xE0 + v ≤ 0xEF)) = true := by simp; omega
      refine ⟨0x80, 0xBF, ?_, by omega, by omega⟩
      rw [if_neg (by omega), if_neg (by omega), if_pos hthree]
      simp

/-- The first of four bytes; what it demands of the next one leaves out long forms and all beyond the last code point. -/
theorem promise?_four (v next : Nat) (hv : v ≤ 4) (hnext : next < 0x40) (hlong : v = 0 → 0x10 ≤ next) (hlast : v = 4 → next < 0x10) :
    ∃ lo hi, promise? (0xF0 + v) = some (3, lo, hi, v) ∧ lo ≤ 0x80 + next ∧ 0x80 + next ≤ hi := by
  have htwo : ¬(decide (0xC2 ≤ 0xF0 + v) && decide (0xF0 + v ≤ 0xDF)) = true := by simp; omega
  have hthree : ¬(decide (0xE1 ≤ 0xF0 + v) && decide (0xF0 + v ≤ 0xEF)) = true := by simp; omega
  rw [promise?, if_neg (by omega), if_neg htwo, if_neg (by omega), if_neg (by omega), if_neg hthree]
  by_cases h0 : v = 0
  · have := hlong h0
    exact ⟨0x90, 0xBF, by simp [h0], by omega, by omega⟩
  · by_cases h4 : v = 4
    · have := hlast h4
      exact ⟨0x80, 0x8F, by simp [h4], by omega, by omega⟩
    · have hfour : (decide (0xF1 ≤ 0xF0 + v) && decide (0xF0 + v ≤ 0xF3)) = true := by simp; omega
      refine ⟨0x80, 0xBF, ?_, by omega, by omega⟩
      rw [if_neg (by omega), if_neg (by omega), if_pos hfour]
      simp

/-- The bytes of a character, whatever follows them, are read as that character. -/
theorem head_encodeChar (c : Char) :
    ∃ b bytes, encodeChar c = b :: bytes ∧ ∀ rest, head b (bytes ++ rest) = .char c (bytes.length + 1) := by
  have hvalid : c.toNat < 0xD800 ∨ 0xDFFF < c.toNat ∧ c.toNat < 0x110000 := c.valid
  have hself : Char.ofNat c.toNat = c := Char.ofNat_toNat c
  unfold encodeChar
  generalize c.toNat = n at hvalid hself
  subst hself
  -- a byte that follows the first one adds six bits
  have htail : ∀ m : Nat, (0x80 + m % 0x40).toUInt8.toNat = 0x80 + m % 0x40 := fun m => toNat_toUInt8 (by omega)
  dsimp only
  split
  · rename_i hone
    refine ⟨_, _, rfl, fun rest => ?_⟩
    have hbyte : n.toUInt8.toNat = n := toNat_toUInt8 (by omega)
    have hpromise : promise? n.toUInt8.toNat = some (0, 0, 0, n) := by rw [hbyte, promise?, if_pos hone]
    rw [head_of_promise hpromise, follow, List.length_nil]
  · split
    · refine ⟨_, _, rfl, fun rest => ?_⟩
      have hbyte : (0xC0 + n / 0x40).toUInt8.toNat = 0xC0 + n / 0x40 := toNat_toUInt8 (by omega)
      have hpromise := promise?_two (n / 0x40) (by omega) (by omega)
      have hvalue : n / 0x40 * 0x40 + (0x80 + n % 0x40 - 0x80) = n := by omega
      rw [← hbyte] at hpromise
      rw [head_of_promise hpromise, List.cons_append, follow_succ (by rw [htail]; omega) (by rw [htail]; omega), follow, htail,
        hvalue]
      rfl
    · split
      · refine ⟨_, _, rfl, fun rest => ?_⟩
        have hbyte : (0xE0 + n / 0x1000).toUInt8.toNat = 0xE0 + n / 0x1000 := toNat_toUInt8 (by omega)
        obtain ⟨lo, hi, hpromise, hlo, hhi⟩ :=
          promise?_three (n / 0x1000) (n / 0x40 % 0x40) (by omega) (by omega) (by omega) (by omega)
        have hvalue : (n / 0x1000 * 0x40 + (0x80 + n / 0x40 % 0x40 - 0x80)) * 0x40 + (0x80 + n % 0x40 - 0x80) = n := by omega
        rw [← hbyte] at hpromise
        rw [head_of_promise hpromise, List.cons_append, follow_succ (by rw [htail]; exact hlo) (by rw [htail]; exact hhi),
          List.cons_append, follow_succ (by rw [htail]; omega) (by rw [htail]; omega), follow, htail, htail, hvalue]
        rfl
      · refine ⟨_, _, rfl, fun rest => ?_⟩
        have hbyte : (0xF0 + n / 0x40000).toUInt8.toNat = 0xF0 + n / 0x40000 := toNat_toUInt8 (by omega)
        obtain ⟨lo, hi, hpromise, hlo, hhi⟩ :=
          promise?_four (n / 0x40000) (n / 0x1000 % 0x40) (by omega) (by omega) (by omega) (by omega)
        have hvalue : ((n / 0x40000 * 0x40 + (0x80 + n / 0x1000 % 0x40 - 0x80)) * 0x40 + (0x80 + n / 0x40 % 0x40 - 0x80)) * 0x40 +
            (0x80 + n % 0x40 - 0x80) = n := by omega
        rw [← hbyte] at hpromise
        rw [head_of_promise hpromise, List.cons_append, follow_succ (by rw [htail]; exact hlo) (by rw [htail]; exact hhi),
          List.cons_append, follow_succ (by rw [htail]; omega) (by rw [htail]; omega), List.cons_append,
          follow_succ (by rw [htail]; omega) (by rw [htail]; omega), follow, htail, htail, htail, hvalue]
        rfl

theorem headsFrom_append (bytes rest : List UInt8) : headsFrom bytes.length (bytes ++ rest) = headsFrom 0 rest := by
  induction bytes with
  | nil => rfl
  | cons b bytes ih => rw [List.length_cons, List.cons_append, headsFrom, ih]

/-- Decoding undoes encoding. -/
theorem decodeLossy_encode (s : Text) : decodeLossy (encode s) = s := by
  induction s with
  | nil => rfl
  | cons c s ih =>
    obtain ⟨b, bytes, hbytes, hhead⟩ := head_encodeChar c
    rw [encode, List.flatMap_cons, ← encode, hbytes, decodeLossy, List.cons_append, headsFrom, hhead]
    dsimp only
    rw [Nat.add_sub_cancel, headsFrom_append, List.map_cons, ← decodeLossy, ih]
    rfl

/-- Bytes write no more characters than they are. -/
theorem length_headsFrom_le (skip : Nat) (bytes : List UInt8) : (headsFrom skip bytes).length ≤ bytes.length := by
  induction bytes generalizing skip with
  | nil => simp [headsFrom]
  | cons b bytes ih =>
    cases skip with
    | succ skip =>
      rw [headsFrom, List.length_cons]
      exact Nat.le_succ_of_le (ih skip)
    | zero =>
      rw [headsFrom]
      split <;> exact Nat.succ_le_succ (ih _)

theorem length_decodeLossy_le (bytes : List UInt8) : (decodeLossy bytes).length ≤ bytes.length := by
  rw [decodeLossy, List.length_map]
  exact length_headsFrom_le 0 bytes

/-- A character of the first 128 is encoded by its own code. -/
theorem encode_of_ascii {s : Text} (h : ∀ c ∈ s, c.toNat < 128) : encode s = s.map fun c => c.toNat.toUInt8 := by
  induction s with
  | nil => rfl
  | cons c s ih =>
    rw [List.forall_mem_cons] at h
    rw [encode, List.flatMap_cons, ← encode, ih h.2, encodeChar, if_pos h.1]
    rfl

end Utf8

/-! ## Percent-encoding -/

namespace Percent

/-- A percent sign with two hexadecimal digits behind it stands in the text. -/
def HoldsEscape (s : Text) : Prop :=
  ∃ h l, (hexDigitValue? h).isSome = true ∧ (hexDigitValue? l).isSome = true ∧ ['%', h, l] <:+: s

theorem toNat_lt_of_hexDigit {c : Char} (h : (hexDigitValue? c).isSome = true) : c.toNat < 128 := by
  have hle : ∀ d : Char, c ≤ d → c.toNat ≤ d.toNat := fun d hd => UInt32.le_iff_toNat_le.1 (Char.le_def.1 hd)
  unfold hexDigitValue? at h
  split at h
  · rename_i hc
    have := hle '9' (by simpa using (Bool.and_eq_true_iff.1 hc).2)
    exact Nat.lt_of_le_of_lt this (by decide)
  · split at h
    · rename_i hc
      have := hle 'f' (by simpa using (Bool.and_eq_true_iff.1 hc).2)
      exact Nat.lt_of_le_of_lt this (by decide)
    · split at h
      · rename_i hc
        have := hle 'F' (by simpa using (Bool.and_eq_true_iff.1 hc).2)
        exact Nat.lt_of_le_of_lt this (by decide)
      · cases h

theorem hexDigitValue?_hexDigit {n : Nat} (h : n < 16) : hexDigitValue? (hexDigit n) = some n := by
  revert n
  decide

/-! ### Escapes -/

/-- An escape stands at the beginning of a text or behind its first character. -/
theorem holdsEscape_cons_iff {c : Char} {s : Text} : HoldsEscape (c :: s) ↔
    (c = '%' ∧ ∃ h l rest, s = h :: l :: rest ∧ (hexDigitValue? h).isSome = true ∧ (hexDigitValue? l).isSome = true) ∨
      HoldsEscape s := by
  constructor
  · rintro ⟨h, l, hh, hl, hinfix⟩
    rcases List.infix_cons_iff.1 hinfix with ⟨rest, hrest⟩ | hinfix
    · obtain ⟨rfl, rfl⟩ := List.cons.inj hrest
      exact .inl ⟨rfl, h, l, rest, rfl, hh, hl⟩
    · exact .inr ⟨h, l, hh, hl, hinfix⟩
  · rintro (⟨rfl, h, l, rest, rfl, hh, hl⟩ | ⟨h, l, hh, hl, hinfix⟩)
    · exact ⟨h, l, hh, hl, [], rest, rfl⟩
    · exact ⟨h, l, hh, hl, List.infix_cons hinfix⟩

/-- An escape stands on one side of a character that is neither a percent sign nor a digit. -/
theorem holdsEscape_append_cons_iff {c : Char} (hc : c ≠ '%') (hdigit : hexDigitValue? c = none) (u v : Text) :
    HoldsEscape (u ++ c :: v) ↔ HoldsEscape u ∨ HoldsEscape v := by
  have hside : ∀ h l, (hexDigitValue? h).isSome = true → (hexDigitValue? l).isSome = true →
      (['%', h, l] <:+: u ++ c :: v ↔ ['%', h, l] <:+: u ∨ ['%', h, l] <:+: v) := by
    intro h l hh hl
    refine Text.infix_append_cons_iff ?_ u v
    rintro (_ | ⟨_, _ | ⟨_, _ | ⟨_, hmem⟩⟩⟩)
    · exact hc rfl
    · rw [hdigit] at hh
      cases hh
    · rw [hdigit] at hl
      cases hl
    · cases hmem
  constructor
  · rintro ⟨h, l, hh, hl, hinfix⟩
    exact ((hside h l hh hl).1 hinfix).imp (⟨h, l, hh, hl, ·⟩) (⟨h, l, hh, hl, ·⟩)
  · rintro (⟨h, l, hh, hl, hinfix⟩ | ⟨h, l, hh, hl, hinfix⟩)
    · exact ⟨h, l, hh, hl, (hside h l hh hl).2 (.inl hinfix)⟩
    · exact ⟨h, l, hh, hl, (hside h l hh hl).2 (.inr hinfix)⟩

/-- A character beyond the first 128 belongs to no escape. -/
theorem holdsEscape_append_beyond_iff {c : Char} (hc : ¬c.toNat < 128) (u v : Text) :
    HoldsEscape (u ++ c :: v) ↔ HoldsEscape u ∨ HoldsEscape v := by
  refine holdsEscape_append_cons_iff ?_ ?_ u v
  · rintro rfl
    exact hc (by decide)
  · cases hdigit : hexDigitValue? c with
    | none => rfl
    | some value => exact absurd (toNat_lt_of_hexDigit (by rw [hdigit]; rfl)) hc

/-! ### Bytes of a run -/

theorem toNat_ofNat_byte (b : UInt8) : (Char.ofNat b.toNat).toNat = b.toNat := by
  have hvalid : b.toNat.isValidChar := .inl (Nat.lt_trans b.toNat_lt (by decide))
  rw [Char.ofNat, dif_pos hvalid]
  rfl

/-- A character that is no percent sign stands for itself. -/
theorem decodeBytes_cons {c : Char} (h : c ≠ '%') (s : Text) : decodeBytes (c :: s) = c.toNat.toUInt8 :: decodeBytes s := by
  rw [decodeBytes.eq_def]
  split
  · rename_i heq
    exact absurd (List.cons.inj heq).1 h
  · rename_i heq
    obtain ⟨rfl, rfl⟩ := List.cons.inj heq
    rfl
  · rename_i heq
    cases heq

/-- Without escapes every character stands for itself. -/
theorem decodeBytes_of_no_escape {s : Text} (h : ¬HoldsEscape s) : decodeBytes s = s.map fun c => c.toNat.toUInt8 := by
  fun_induction decodeBytes s with
  | case1 h' l s a b hl hh ih =>
    exact absurd (holdsEscape_cons_iff.2 (.inl ⟨rfl, h', l, s, rfl, by simp [hh], by simp [hl]⟩)) h
  | case2 h' l s hno ih =>
    rw [ih fun hescape => h (holdsEscape_cons_iff.2 (.inr hescape))]
    rfl
  | case3 c s hno ih =>
    rw [ih fun hescape => h (holdsEscape_cons_iff.2 (.inr hescape)), List.map_cons]
  | case4 => rfl

/-- There are no more bytes than characters, and fewer by two for an escape. -/
theorem length_decodeBytes_le (s : Text) :
    (decodeBytes s).length ≤ s.length ∧ (HoldsEscape s → (decodeBytes s).length + 2 ≤ s.length) := by
  fun_induction decodeBytes s with
  | case1 h l s a b hl hh ih =>
    simp only [List.length_cons]
    exact ⟨by omega, fun _ => by omega⟩
  | case2 h l s hno ih =>
    simp only [List.length_cons] at ih ⊢
    refine ⟨by omega, fun hescape => ?_⟩
    rcases holdsEscape_cons_iff.1 hescape with ⟨-, h', l', rest, heq, hh, hl⟩ | hescape
    · cases heq
      obtain ⟨a, ha⟩ := Option.isSome_iff_exists.1 hh
      obtain ⟨b, hb⟩ := Option.isSome_iff_exists.1 hl
      exact absurd hb (hno a b ha)
    · have := ih.2 hescape
      omega
  | case3 c s hno ih =>
    simp only [List.length_cons] at ih ⊢
    refine ⟨by omega, fun hescape => ?_⟩
    rcases holdsEscape_cons_iff.1 hescape with ⟨rfl, h, l, rest, rfl, -⟩ | hescape
    · exact absurd rfl (hno h l rest rfl)
    · have := ih.2 hescape
      omega
  | case4 => exact ⟨Nat.le_refl _, fun ⟨h, l, _, _, hinfix⟩ => absurd (List.infix_nil.1 hinfix) (by simp)⟩

/-- The bytes of an encoded byte. -/
theorem decodeBytes_encodeByte (b : UInt8) (s : Text) : decodeBytes (encodeByte b ++ s) = b :: decodeBytes s := by
  have hlt : b.toNat < 256 := b.toNat_lt
  unfold encodeByte
  split
  · rename_i hplain
    have hpercent : Char.ofNat b.toNat ≠ '%' := by
      intro heq
      simp [isPlain, heq] at hplain
    rw [List.singleton_append, decodeBytes_cons hpercent, toNat_ofNat_byte]
    simp
  · have hvalue : b.toNat / 16 * 16 + b.toNat % 16 = b.toNat := by omega
    rw [List.cons_append, List.cons_append, List.cons_append, List.nil_append, decodeBytes,
      hexDigitValue?_hexDigit (by omega), hexDigitValue?_hexDigit (by omega)]
    simp [hvalue]

theorem decodeBytes_encode (bytes : List UInt8) : decodeBytes (bytes.flatMap encodeByte) = bytes := by
  induction bytes with
  | nil => rfl
  | cons b bytes ih => rw [List.flatMap_cons, decodeBytes_encodeByte, ih]

/-- An encoded byte is written with characters of the first 128. -/
theorem ascii_encodeByte (b : UInt8) : ∀ c ∈ encodeByte b, c.toNat < 128 := by
  have hlt : b.toNat < 256 := b.toNat_lt
  have hdigit : ∀ n, n < 16 → (hexDigit n).toNat < 128 := by decide
  unfold encodeByte
  split
  · rename_i hplain
    have hascii : b.toNat < 128 := by simpa using (Bool.and_eq_true_iff.1 hplain).1
    rw [List.forall_mem_singleton, toNat_ofNat_byte]
    exact hascii
  · simp only [List.forall_mem_cons]
    exact ⟨by decide, hdigit _ (by omega), hdigit _ (by omega), by simp⟩

/-! ### Texts -/

/-- Characters of the first 128 are decoded as one run. -/
theorem decodeFrom_of_ascii {s : Text} (h : ∀ c ∈ s, c.toNat < 128) (run : Text) :
    decodeFrom run s = Utf8.decodeLossy (decodeBytes (run.reverse ++ s)) := by
  induction s generalizing run with
  | nil => rw [decodeFrom, List.append_nil]
  | cons c s ih =>
    rw [List.forall_mem_cons] at h
    rw [decodeFrom, if_pos h.1, ih h.2, List.reverse_cons, List.append_assoc, List.singleton_append]

/-- Decoding undoes encoding. -/
theorem decode_encode (s : Text) : decode (encode s) = s := by
  have hascii : ∀ c ∈ encode s, c.toNat < 128 := by
    intro c hc
    obtain ⟨b, -, hc⟩ := List.mem_flatMap.1 hc
    exact ascii_encodeByte b c hc
  rw [decode, decodeFrom_of_ascii hascii, List.reverse_nil, List.nil_append, encode, decodeBytes_encode, Utf8.decodeLossy_encode]

/-- A run without escapes stands for itself. -/
theorem decode_run {run : Text} (hascii : ∀ c ∈ run, c.toNat < 128) (h : ¬HoldsEscape run) :
    Utf8.decodeLossy (decodeBytes run) = run := by
  rw [decodeBytes_of_no_escape h, ← Utf8.encode_of_ascii hascii, Utf8.decodeLossy_encode]

theorem decodeFrom_of_no_escape {run s : Text} (hascii : ∀ c ∈ run, c.toNat < 128) (h : ¬HoldsEscape (run.reverse ++ s)) :
    decodeFrom run s = run.reverse ++ s := by
  induction s generalizing run with
  | nil =>
    rw [List.append_nil] at h ⊢
    exact decode_run (fun c hc => hascii c (List.mem_reverse.1 hc)) h
  | cons c s ih =>
    rw [decodeFrom]
    split
    · rename_i hc
      rw [ih (List.forall_mem_cons.2 ⟨hc, hascii⟩) (by simpa using h), List.reverse_cons, List.append_assoc, List.singleton_append]
    · rename_i hc
      rw [holdsEscape_append_beyond_iff hc, not_or] at h
      have hlater := @ih [] (fun _ hc => absurd hc List.not_mem_nil) h.2
      rw [decode_run (fun c hc => hascii c (List.mem_reverse.1 hc)) h.1, hlater]
      rfl

/-- What is decoded is no longer than the text, and shorter by two where an escape stands in it. -/
theorem length_decodeFrom_le (run s : Text) : (decodeFrom run s).length ≤ run.length + s.length ∧
    (HoldsEscape (run.reverse ++ s) → (decodeFrom run s).length + 2 ≤ run.length + s.length) := by
  have hrun : ∀ run : Text, (Utf8.decodeLossy (decodeBytes run.reverse)).length ≤ run.length ∧
      (HoldsEscape run.reverse → (Utf8.decodeLossy (decodeBytes run.reverse)).length + 2 ≤ run.length) := by
    intro run
    have hchars := Utf8.length_decodeLossy_le (decodeBytes run.reverse)
    have hbytes := length_decodeBytes_le run.reverse
    rw [List.length_reverse] at hbytes
    exact ⟨hchars.trans hbytes.1, fun hescape => (Nat.add_le_add_right hchars 2).trans (hbytes.2 hescape)⟩
  induction s generalizing run with
  | nil =>
    rw [decodeFrom, List.append_nil]
    exact hrun run
  | cons c s ih =>
    rw [decodeFrom]
    split
    · have hlater := ih (c :: run)
      simp only [List.reverse_cons, List.append_assoc, List.singleton_append, List.length_cons] at hlater ⊢
      exact ⟨by omega, fun hescape => by have := hlater.2 hescape; omega⟩
    · rename_i hc
      have hlater := ih []
      simp only [List.reverse_nil, List.nil_append, List.length_nil, List.length_append, List.length_cons] at hlater ⊢
      refine ⟨by have := (hrun run).1; omega, fun hescape => ?_⟩
      rcases (holdsEscape_append_beyond_iff hc _ _).1 hescape with hescape | hescape
      · have := (hrun run).2 hescape
        omega
      · have := hlater.2 hescape
        have := (hrun run).1
        omega

theorem decode_of_no_escape {s : Text} (h : ¬HoldsEscape s) : decode s = s := decodeFrom_of_no_escape (by simp) h

theorem length_decode_add_two_le {s : Text} (h : HoldsEscape s) : (decode s).length + 2 ≤ s.length := by
  simpa [decode] using (length_decodeFrom_le [] s).2 h

/-- Whether an escape stands in a text is seen from what is decoded. -/
theorem length_decode_add_two_le_iff {s : Text} : (decode s).length + 2 ≤ s.length ↔ HoldsEscape s := by
  refine ⟨fun hshort => ?_, length_decode_add_two_le⟩
  by_contra hno
  rw [decode_of_no_escape hno] at hshort
  omega

instance : DecidablePred HoldsEscape := fun _ => decidable_of_iff _ length_decode_add_two_le_iff

end Percent
end StepCatalog
