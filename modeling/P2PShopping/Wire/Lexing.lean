import P2PShopping.Wire.Lexer
import Std.Data.String.ToNat

/-! What the lexer makes of a text that `dump` wrote.

A string is taken over by sequences of bytes, `Copied`, and these are the encodings of
the code points (`code_bytes`, `encoded_copied`); whatever `dump_escaped` writes for a
code point is read back as it. Numerals are a grammar of their own, and `scan_number`
takes a numeral over as a whole as long as nothing follows with which it could go on. -/
namespace P2PShopping.Json

/-! ### Sequences of bytes -/

theorem following_eq (b : UInt8) :
    following b =
      if b.toNat ≤ 0x7f then some []
      else if 0xc2 ≤ b.toNat ∧ b.toNat ≤ 0xdf then some [(0x80, 0xbf)]
      else if b.toNat = 0xe0 then some [(0xa0, 0xbf), (0x80, 0xbf)]
      else if 0xe1 ≤ b.toNat ∧ b.toNat ≤ 0xec ∨ b.toNat = 0xee ∨ b.toNat = 0xef then
        some [(0x80, 0xbf), (0x80, 0xbf)]
      else if b.toNat = 0xed then some [(0x80, 0x9f), (0x80, 0xbf)]
      else if b.toNat = 0xf0 then some [(0x90, 0xbf), (0x80, 0xbf), (0x80, 0xbf)]
      else if 0xf1 ≤ b.toNat ∧ b.toNat ≤ 0xf3 then
        some [(0x80, 0xbf), (0x80, 0xbf), (0x80, 0xbf)]
      else if b.toNat = 0xf4 then some [(0x80, 0x8f), (0x80, 0xbf), (0x80, 0xbf)]
      else none := by
  simp only [following, UInt8.le_iff_toNat_le, ← UInt8.toNat_inj]
  rfl

/-- The byte lies in the range. -/
def InRange (range : UInt8 × UInt8) (b : UInt8) : Prop :=
  range.1.toNat ≤ b.toNat ∧ b.toNat ≤ range.2.toNat

theorem nextBytesInRange_run {ranges : List (UInt8 × UInt8)} {bytes : List UInt8}
    (h : List.Forall₂ InRange ranges bytes) (rest : List UInt8) :
    nextBytesInRange ranges (bytes ++ rest) = some (bytes, rest) := by
  induction h with
  | nil => rfl
  | @cons range b ranges bytes hb _ ih =>
    obtain ⟨low, high⟩ := range
    rw [List.cons_append, nextBytesInRange, ih]
    exact if_pos ⟨UInt8.le_iff_toNat_le.mpr hb.1, UInt8.le_iff_toNat_le.mpr hb.2⟩

theorem nextBytesInRange_some {ranges : List (UInt8 × UInt8)} {input bytes rest : List UInt8}
    (h : nextBytesInRange ranges input = some (bytes, rest)) :
    input = bytes ++ rest ∧ List.Forall₂ InRange ranges bytes := by
  induction ranges generalizing input bytes with
  | nil =>
    cases h
    exact ⟨rfl, .nil⟩
  | cons range ranges ih =>
    obtain ⟨low, high⟩ := range
    cases input with
    | nil => cases h
    | cons b input =>
      rw [nextBytesInRange, Option.ite_none_right_eq_some] at h
      obtain ⟨⟨hlow, hhigh⟩, h⟩ := h
      obtain ⟨⟨bytes', rest'⟩, hnext, heq⟩ := Option.map_eq_some_iff.mp h
      cases heq
      obtain ⟨rfl, hbytes⟩ := ih hnext
      exact ⟨rfl, .cons ⟨UInt8.le_iff_toNat_le.mp hlow, UInt8.le_iff_toNat_le.mp hhigh⟩ hbytes⟩

theorem scanChar_copied {lead : UInt8} {bytes : List UInt8} {ranges : List (UInt8 × UInt8)}
    (hquote : lead ≠ 0x22) (hbackslash : lead ≠ 0x5c) (hcontrol : 0x20 ≤ lead.toNat)
    (hranges : following lead = some ranges) (hbytes : List.Forall₂ InRange ranges bytes)
    (rest : List UInt8) :
    scanChar (lead :: (bytes ++ rest)) = some (some (Char.ofNat (codeOf lead bytes)), rest) := by
  have hplain : ¬ lead ≤ 0x1f := by
    rw [UInt8.le_iff_toNat_le]
    exact Nat.not_le.mpr hcontrol
  simp only [scanChar, if_neg hquote, if_neg hbackslash, if_neg hplain, hranges,
    nextBytesInRange_run hbytes, Option.bind_eq_bind, Option.bind_some]

theorem codeOf_eq (lead : UInt8) (bytes : List UInt8) :
    codeOf lead bytes = bytes.foldl (fun n b => n * 64 + (b.toNat - 0x80))
      (if lead.toNat < 0x80 then lead.toNat
      else if lead.toNat < 0xe0 then lead.toNat - 0xc0
      else if lead.toNat < 0xf0 then lead.toNat - 0xe0
      else lead.toNat - 0xf0) := by
  simp only [codeOf, UInt8.lt_iff_toNat_lt]
  rfl

theorem codeOf_one {lead : UInt8} (h : lead.toNat < 0x80) : codeOf lead [] = lead.toNat := by
  rw [codeOf_eq, List.foldl_nil, if_pos h]

theorem codeOf_two {lead : UInt8} (b₁ : UInt8) (h : 0xc0 ≤ lead.toNat ∧ lead.toNat < 0xe0) :
    codeOf lead [b₁] = (lead.toNat - 0xc0) * 64 + (b₁.toNat - 0x80) := by
  rw [codeOf_eq, if_neg (by omega), if_pos h.2]
  rfl

theorem codeOf_three {lead : UInt8} (b₁ b₂ : UInt8)
    (h : 0xe0 ≤ lead.toNat ∧ lead.toNat < 0xf0) :
    codeOf lead [b₁, b₂] =
      ((lead.toNat - 0xe0) * 64 + (b₁.toNat - 0x80)) * 64 + (b₂.toNat - 0x80) := by
  rw [codeOf_eq, if_neg (by omega), if_neg (by omega), if_pos h.2]
  rfl

theorem codeOf_four {lead : UInt8} (b₁ b₂ b₃ : UInt8) (h : 0xf0 ≤ lead.toNat) :
    codeOf lead [b₁, b₂, b₃] =
      (((lead.toNat - 0xf0) * 64 + (b₁.toNat - 0x80)) * 64 + (b₂.toNat - 0x80)) * 64 +
        (b₃.toNat - 0x80) := by
  rw [codeOf_eq, if_neg (by omega), if_neg (by omega), if_neg (by omega)]
  rfl

/-- The bytes that go on with a sequence. -/
def Continues (b : UInt8) : Prop := 0x80 ≤ b.toNat ∧ b.toNat ≤ 0xbf

/-- The sequences of bytes that `scan_string` copies. -/
inductive Copied : UInt8 → List UInt8 → Prop where
  | one {lead : UInt8} : lead.toNat < 0x80 → Copied lead []
  | two {lead b₁ : UInt8} : 0xc2 ≤ lead.toNat → lead.toNat ≤ 0xdf → Continues b₁ →
      Copied lead [b₁]
  | three {lead b₁ b₂ : UInt8} : 0xe0 ≤ lead.toNat → lead.toNat ≤ 0xef →
      Continues b₁ → Continues b₂ → (lead.toNat = 0xe0 → 0xa0 ≤ b₁.toNat) →
      (lead.toNat = 0xed → b₁.toNat ≤ 0x9f) → Copied lead [b₁, b₂]
  | four {lead b₁ b₂ b₃ : UInt8} : 0xf0 ≤ lead.toNat → lead.toNat ≤ 0xf4 →
      Continues b₁ → Continues b₂ → Continues b₃ → (lead.toNat = 0xf0 → 0x90 ≤ b₁.toNat) →
      (lead.toNat = 0xf4 → b₁.toNat ≤ 0x8f) → Copied lead [b₁, b₂, b₃]

theorem copied_iff {lead : UInt8} {bytes : List UInt8} :
    (∃ ranges, following lead = some ranges ∧ List.Forall₂ InRange ranges bytes) ↔
      Copied lead bytes := by
  constructor
  · intro ⟨ranges, hranges, hbytes⟩
    have hlead := lead.toNat_lt
    rw [following_eq] at hranges
    split_ifs at hranges with h₁ h₂ h₃ h₄ h₅ h₆ h₇ h₈ <;> cases hranges
    · cases hbytes
      exact .one (by omega)
    · obtain _ | @⟨_, b₁, _, _, hb₁, _ | _⟩ := hbytes
      exact .two h₂.1 h₂.2 hb₁
    · obtain _ | @⟨_, b₁, _, _, hb₁, _ | @⟨_, b₂, _, _, hb₂, _ | _⟩⟩ := hbytes
      simp [InRange] at hb₁
      exact .three (by omega) (by omega) ⟨by omega, hb₁.2⟩ hb₂ (by omega) (by omega)
    · obtain _ | @⟨_, b₁, _, _, hb₁, _ | @⟨_, b₂, _, _, hb₂, _ | _⟩⟩ := hbytes
      exact .three (by omega) (by omega) hb₁ hb₂ (by omega) (by omega)
    · obtain _ | @⟨_, b₁, _, _, hb₁, _ | @⟨_, b₂, _, _, hb₂, _ | _⟩⟩ := hbytes
      simp [InRange] at hb₁
      exact .three (by omega) (by omega) ⟨hb₁.1, by omega⟩ hb₂ (by omega) (by omega)
    · obtain _ | @⟨_, b₁, _, _, hb₁, _ | @⟨_, b₂, _, _, hb₂, _ | @⟨_, b₃, _, _, hb₃, _ | _⟩⟩⟩ :=
        hbytes
      simp [InRange] at hb₁
      exact .four (by omega) (by omega) ⟨by omega, hb₁.2⟩ hb₂ hb₃ (by omega) (by omega)
    · obtain _ | @⟨_, b₁, _, _, hb₁, _ | @⟨_, b₂, _, _, hb₂, _ | @⟨_, b₃, _, _, hb₃, _ | _⟩⟩⟩ :=
        hbytes
      exact .four (by omega) (by omega) hb₁ hb₂ hb₃ (by omega) (by omega)
    · obtain _ | @⟨_, b₁, _, _, hb₁, _ | @⟨_, b₂, _, _, hb₂, _ | @⟨_, b₃, _, _, hb₃, _ | _⟩⟩⟩ :=
        hbytes
      simp [InRange] at hb₁
      exact .four (by omega) (by omega) ⟨hb₁.1, by omega⟩ hb₂ hb₃ (by omega) (by omega)
  · intro h
    rw [following_eq]
    cases h with
    | one hlead =>
      rw [if_pos (by omega)]
      exact ⟨_, rfl, .nil⟩
    | two hlow hhigh hb₁ =>
      rw [if_neg (by omega), if_pos ⟨hlow, hhigh⟩]
      exact ⟨_, rfl, .cons hb₁ .nil⟩
    | three hlow hhigh hb₁ hb₂ hfirst hlast =>
      split_ifs with h₁ h₂ h₃ h₄ h₅ h₆ h₇ h₈ <;> try omega
      · exact ⟨_, rfl, .cons ⟨hfirst h₃, hb₁.2⟩ (.cons hb₂ .nil)⟩
      · exact ⟨_, rfl, .cons hb₁ (.cons hb₂ .nil)⟩
      · exact ⟨_, rfl, .cons ⟨hb₁.1, hlast h₅⟩ (.cons hb₂ .nil)⟩
    | four hlow hhigh hb₁ hb₂ hb₃ hfirst hlast =>
      split_ifs with h₁ h₂ h₃ h₄ h₅ h₆ h₇ h₈ <;> try omega
      · exact ⟨_, rfl, .cons ⟨hfirst h₆, hb₁.2⟩ (.cons hb₂ (.cons hb₃ .nil))⟩
      · exact ⟨_, rfl, .cons hb₁ (.cons hb₂ (.cons hb₃ .nil))⟩
      · exact ⟨_, rfl, .cons ⟨hb₁.1, hlast h₈⟩ (.cons hb₂ (.cons hb₃ .nil))⟩

theorem toNat_char {n : Nat} (h : n < 0xd800 ∨ 0xdfff < n ∧ n < 0x110000) :
    (Char.ofNat n).toNat = n := by
  rw [Char.ofNat, dif_pos h]
  rfl

theorem utf8EncodeChar_eq (c : Char) :
    String.utf8EncodeChar c =
      if c.toNat ≤ 0x7f then [UInt8.ofNat c.toNat]
      else if c.toNat ≤ 0x7ff then
        [UInt8.ofNat (c.toNat / 64 % 32 + 0xc0), UInt8.ofNat (c.toNat % 64 + 0x80)]
      else if c.toNat ≤ 0xffff then
        [UInt8.ofNat (c.toNat / 4096 % 16 + 0xe0), UInt8.ofNat (c.toNat / 64 % 64 + 0x80),
          UInt8.ofNat (c.toNat % 64 + 0x80)]
      else
        [UInt8.ofNat (c.toNat / 262144 % 8 + 0xf0), UInt8.ofNat (c.toNat / 4096 % 64 + 0x80),
          UInt8.ofNat (c.toNat / 64 % 64 + 0x80), UInt8.ofNat (c.toNat % 64 + 0x80)] := rfl

/-- What is copied is the encoding of the code point that is read. -/
theorem code_bytes {lead : UInt8} {bytes : List UInt8} (h : Copied lead bytes) :
    String.utf8EncodeChar (Char.ofNat (codeOf lead bytes)) = lead :: bytes := by
  have hbyte : ∀ {b : UInt8} {n : Nat}, b.toNat = n → UInt8.ofNat n = b := by
    intro b n hn
    rw [← hn, UInt8.ofNat_toNat]
  rw [utf8EncodeChar_eq]
  cases h with
  | one hlead =>
    rw [codeOf_one hlead, toNat_char (by omega), if_pos (by omega), UInt8.ofNat_toNat]
  | two hlow hhigh hb₁ =>
    obtain ⟨hlow₁, hhigh₁⟩ := hb₁
    rw [codeOf_two _ (by omega), toNat_char (by omega), if_neg (by omega), if_pos (by omega)]
    simp only [List.cons.injEq, and_true]
    exact ⟨hbyte (by omega), hbyte (by omega)⟩
  | three hlow hhigh hb₁ hb₂ hfirst hlast =>
    obtain ⟨hlow₁, hhigh₁⟩ := hb₁
    obtain ⟨hlow₂, hhigh₂⟩ := hb₂
    rw [codeOf_three _ _ (by omega), toNat_char (by omega), if_neg (by omega), if_neg (by omega),
      if_pos (by omega)]
    simp only [List.cons.injEq, and_true]
    exact ⟨hbyte (by omega), hbyte (by omega), hbyte (by omega)⟩
  | four hlow hhigh hb₁ hb₂ hb₃ hfirst hlast =>
    obtain ⟨hlow₁, hhigh₁⟩ := hb₁
    obtain ⟨hlow₂, hhigh₂⟩ := hb₂
    obtain ⟨hlow₃, hhigh₃⟩ := hb₃
    rw [codeOf_four _ _ _ (by omega), toNat_char (by omega), if_neg (by omega),
      if_neg (by omega), if_neg (by omega)]
    simp only [List.cons.injEq, and_true]
    exact ⟨hbyte (by omega), hbyte (by omega), hbyte (by omega), hbyte (by omega)⟩

/-- The bytes of a code point are ones that are copied. -/
theorem encoded_copied (c : Char) :
    ∃ lead bytes, String.utf8EncodeChar c = lead :: bytes ∧ Copied lead bytes ∧
      codeOf lead bytes = c.toNat := by
  have hvalid : c.toNat < 0xd800 ∨ 0xdfff < c.toNat ∧ c.toNat < 0x110000 := c.valid
  have hbyte : ∀ n, (UInt8.ofNat n).toNat = n % 256 := fun n => UInt8.toNat_ofNat'
  rw [utf8EncodeChar_eq]
  split_ifs with hone htwo hthree
  · have hlead := hbyte c.toNat
    refine ⟨_, _, rfl, .one (by omega), ?_⟩
    rw [codeOf_one (by omega)]
    omega
  · have hlead := hbyte (c.toNat / 64 % 32 + 0xc0)
    have hb₁ := hbyte (c.toNat % 64 + 0x80)
    refine ⟨_, _, rfl, .two (by omega) (by omega) ⟨by omega, by omega⟩, ?_⟩
    rw [codeOf_two _ (by omega)]
    omega
  · have hlead := hbyte (c.toNat / 4096 % 16 + 0xe0)
    have hb₁ := hbyte (c.toNat / 64 % 64 + 0x80)
    have hb₂ := hbyte (c.toNat % 64 + 0x80)
    refine ⟨_, _, rfl, .three (by omega) (by omega) ⟨by omega, by omega⟩ ⟨by omega, by omega⟩
      (by omega) (by omega), ?_⟩
    rw [codeOf_three _ _ (by omega)]
    omega
  · have hlead := hbyte (c.toNat / 262144 % 8 + 0xf0)
    have hb₁ := hbyte (c.toNat / 4096 % 64 + 0x80)
    have hb₂ := hbyte (c.toNat / 64 % 64 + 0x80)
    have hb₃ := hbyte (c.toNat % 64 + 0x80)
    refine ⟨_, _, rfl, .four (by omega) (by omega) ⟨by omega, by omega⟩ ⟨by omega, by omega⟩
      ⟨by omega, by omega⟩ (by omega) (by omega), ?_⟩
    rw [codeOf_four _ _ _ (by omega)]
    omega

/-! ### Reading a dumped string -/

theorem hexValue_hexDigit {d : UInt8} (h : d.toNat < 16) :
    hexValue (hexDigit d) = some d.toNat := by
  have hall : ∀ n < 16, hexValue (hexDigit (UInt8.ofNat n)) = some n := by decide
  simpa using hall d.toNat h

/-- A control character is written as `\u` and four hex digits. -/
theorem scanUnicode_control {b : UInt8} (h : b.toNat < 0x20) (rest : List UInt8) :
    scanUnicode (0x30 :: 0x30 :: hexDigit (b / 16) :: hexDigit (b % 16) :: rest) =
      some (Char.ofNat b.toNat, rest) := by
  have hhigh : (b / 16).toNat = b.toNat / 16 := UInt8.toNat_div b 16
  have hlow : (b % 16).toNat = b.toNat % 16 := UInt8.toNat_mod b 16
  have hzero : hexValue 0x30 = some 0 := rfl
  have hcodepoint : getCodepoint (0x30 :: 0x30 :: hexDigit (b / 16) :: hexDigit (b % 16) :: rest) =
      some (b.toNat, rest) := by
    simp only [getCodepoint, hzero, Option.bind_eq_bind, Option.bind_some,
      hexValue_hexDigit (show (b / 16).toNat < 16 by omega),
      hexValue_hexDigit (show (b % 16).toNat < 16 by omega), hhigh, hlow, Option.some.injEq,
      Prod.mk.injEq, and_true]
    omega
  simp only [scanUnicode, hcodepoint, Option.bind_eq_bind, Option.bind_some]
  rw [if_neg (by omega), if_neg (by omega)]

theorem scanChar_escape {b : UInt8} (h : b.toNat < 0x80) (rest : List UInt8) :
    scanChar (escape b ++ rest) = some (some (Char.ofNat b.toNat), rest) := by
  unfold escape
  split_ifs with h₁ h₂ h₃ h₄ h₅ hquote hbackslash hcontrol
  · subst b
    rfl
  · subst b
    rfl
  · subst b
    rfl
  · subst b
    rfl
  · subst b
    rfl
  · subst b
    rfl
  · subst b
    rfl
  · have hlt : b.toNat < 0x20 := by
      have := UInt8.le_iff_toNat_le.mp hcontrol
      exact Nat.lt_succ_of_le this
    have hunicode := scanUnicode_control hlt rest
    simp [scanChar, scanEscape, hunicode]
  · have hle : 0x20 ≤ b.toNat := by
      rw [UInt8.le_iff_toNat_le] at hcontrol
      exact Nat.lt_of_not_le hcontrol
    obtain ⟨ranges, hranges, hbytes⟩ := copied_iff.mpr (Copied.one h)
    have hchar := scanChar_copied hquote hbackslash hle hranges hbytes rest
    rwa [codeOf_one h] at hchar

/-- Beyond ASCII nothing is escaped. -/
theorem escape_of_le {b : UInt8} (h : 0x80 ≤ b.toNat) : escape b = [b] := by
  have hall : ∀ n < 256, 0x80 ≤ n → escape (UInt8.ofNat n) = [UInt8.ofNat n] := by decide +kernel
  simpa using hall b.toNat b.toNat_lt h

theorem flatMap_escape_of_le {bytes : List UInt8} (h : ∀ b ∈ bytes, 0x80 ≤ b.toNat) :
    bytes.flatMap escape = bytes := by
  induction bytes with
  | nil => rfl
  | cons b bytes ih =>
    obtain ⟨hb, hbytes⟩ := List.forall_mem_cons.mp h
    rw [List.flatMap_cons, escape_of_le hb, ih hbytes]
    rfl

theorem Copied.high {lead : UInt8} {bytes : List UInt8} (h : Copied lead bytes)
    (hlead : 0x80 ≤ lead.toNat) : ∀ b ∈ lead :: bytes, 0x80 ≤ b.toNat := by
  cases h with
  | one hlow => omega
  | two _ _ hb₁ => simp [hlead, hb₁.1]
  | three _ _ hb₁ hb₂ _ _ => simp [hlead, hb₁.1, hb₂.1]
  | four _ _ hb₁ hb₂ hb₃ _ _ => simp [hlead, hb₁.1, hb₂.1, hb₃.1]

/-- A code point is read back from what is written for it. -/
theorem scanChar_dumped (c : Char) (rest : List UInt8) :
    scanChar ((String.utf8EncodeChar c).flatMap escape ++ rest) = some (some c, rest) := by
  obtain ⟨lead, bytes, hencode, hcopied, hcode⟩ := encoded_copied c
  rw [hencode]
  rcases Nat.lt_or_ge lead.toNat 0x80 with hascii | hhigh
  · have hbytes : bytes = [] := by
      cases hcopied <;> first | rfl | omega
    subst hbytes
    rw [codeOf_one hascii] at hcode
    rw [List.flatMap_singleton, scanChar_escape hascii, hcode, Char.ofNat_toNat]
  · rw [flatMap_escape_of_le (hcopied.high hhigh)]
    obtain ⟨ranges, hranges, hinrange⟩ := copied_iff.mpr hcopied
    have hquote : lead ≠ 0x22 := by
      intro heq
      simp [heq] at hhigh
    have hbackslash : lead ≠ 0x5c := by
      intro heq
      simp [heq] at hhigh
    have hchar := scanChar_copied hquote hbackslash (by omega) hranges hinrange rest
    rwa [hcode, Char.ofNat_toNat] at hchar

theorem scanChars_dumped (chars : List Char) (rest : List UInt8) {fuel : Nat}
    (hfuel : chars.length < fuel) :
    scanChars fuel ((chars.flatMap String.utf8EncodeChar).flatMap escape ++ 0x22 :: rest) =
      some (chars, rest) := by
  induction chars generalizing fuel with
  | nil =>
    obtain ⟨fuel, rfl⟩ := Nat.exists_eq_succ_of_ne_zero (Nat.ne_of_gt hfuel)
    rfl
  | cons c chars ih =>
    obtain ⟨fuel, rfl⟩ := Nat.exists_eq_succ_of_ne_zero (Nat.ne_zero_of_lt hfuel)
    rw [List.flatMap_cons, List.flatMap_append, List.append_assoc, scanChars, scanChar_dumped]
    simp only
    rw [ih (by simpa using hfuel)]
    rfl


theorem bytes_eq_flatMap (s : String) :
    s.toByteArray.data.toList = s.toList.flatMap String.utf8EncodeChar := by
  rw [← String.utf8Encode_toList, List.utf8Encode, List.toList_data_toByteArray]

/-- `scan_string` reads back what `dump_escaped` writes. -/
theorem scanString_dumped (s : String) (rest : List UInt8) :
    ∃ bytes, dumpString s ++ rest = 0x22 :: bytes ∧ scanString bytes = some (s, rest) := by
  refine ⟨(s.toList.flatMap String.utf8EncodeChar).flatMap escape ++ 0x22 :: rest, ?_, ?_⟩
  · simp [dumpString, bytes_eq_flatMap]
  · have hlength : s.toList.length < ((s.toList.flatMap String.utf8EncodeChar).flatMap escape ++
        0x22 :: rest).length := by
      have hchars : ∀ chars : List Char, chars.length ≤
          ((chars.flatMap String.utf8EncodeChar).flatMap escape).length := by
        intro chars
        induction chars with
        | nil => exact Nat.zero_le _
        | cons c chars ih =>
          obtain ⟨lead, bytes, hencode, -, -⟩ := encoded_copied c
          have := escape_length lead
          simp only [List.flatMap_cons, hencode, List.flatMap_append, List.length_append,
            List.length_cons]
          omega
      have := hchars s.toList
      simp only [List.length_append, List.length_cons]
      omega
    rw [scanString, scanChars_dumped _ _ hlength, Option.map_some, String.ofList_toList]

/-! ### Numerals -/

def IsDigits (bytes : List UInt8) : Prop := bytes ≠ [] ∧ ∀ b ∈ bytes, isDigitByte b = true

/-- The digits before the point: one zero, or digits that do not begin with one. -/
inductive IsWhole : List UInt8 → Prop where
  | zero : IsWhole [0x30]
  | digits {b : UInt8} {rest : List UInt8} : 0x31 ≤ b ∧ b ≤ 0x39 →
      (∀ d ∈ rest, isDigitByte d = true) → IsWhole (b :: rest)

/-- What may stand between the digits before the point and the exponent. -/
inductive IsFraction : List UInt8 → Prop where
  | none : IsFraction []
  | digits {digits : List UInt8} : IsDigits digits → IsFraction (0x2e :: digits)

inductive IsExponent : List UInt8 → Prop where
  | none : IsExponent []
  | unsigned {e : UInt8} {digits : List UInt8} : e = 0x65 ∨ e = 0x45 → IsDigits digits →
      IsExponent (e :: digits)
  | signed {e sign : UInt8} {digits : List UInt8} : e = 0x65 ∨ e = 0x45 →
      sign = 0x2b ∨ sign = 0x2d → IsDigits digits → IsExponent (e :: sign :: digits)

/-- No byte at which a numeral could go on. -/
def EndsNumeral (rest : List UInt8) : Prop :=
  ∀ b ∈ rest.head?, isDigitByte b = false ∧ b ≠ 0x2e ∧ b ≠ 0x65 ∧ b ≠ 0x45

theorem takeWhile_digits {digits rest : List UInt8} (hdigits : ∀ d ∈ digits, isDigitByte d = true)
    (hrest : ∀ b ∈ rest.head?, isDigitByte b = false) :
    (digits ++ rest).takeWhile isDigitByte = digits ∧
      (digits ++ rest).dropWhile isDigitByte = rest := by
  rw [List.takeWhile_append_of_pos hdigits, List.dropWhile_append_of_pos hdigits]
  cases rest with
  | nil => simp
  | cons b rest => simp [hrest b rfl]

theorem scanDigitBytes_run {digits rest : List UInt8} (hdigits : IsDigits digits)
    (hrest : ∀ b ∈ rest.head?, isDigitByte b = false) :
    scanDigitBytes (digits ++ rest) = some (digits, rest) := by
  obtain ⟨htake, hdrop⟩ := takeWhile_digits hdigits.2 hrest
  simp only [scanDigitBytes, htake, hdrop, if_neg hdigits.1]

theorem scanExponentPart_run {exponent rest : List UInt8} (h : IsExponent exponent)
    (hrest : EndsNumeral rest) :
    scanExponentPart (exponent ++ rest) = some (!exponent.isEmpty, exponent, rest) := by
  have hdigit : ∀ b ∈ rest.head?, isDigitByte b = false := fun b hb => (hrest b hb).1
  cases h with
  | none =>
    cases rest with
    | nil => rfl
    | cons b rest =>
      obtain ⟨-, -, he, hE⟩ := hrest b rfl
      rw [List.nil_append, scanExponentPart, if_neg (by simp [he, hE])]
      rfl
  | @unsigned e digits he hdigits =>
    obtain ⟨d, digits, rfl⟩ := List.exists_cons_of_ne_nil hdigits.1
    have hd := hdigits.2 d (List.mem_cons_self ..)
    have hsign : ¬ (d = 0x2b ∨ d = 0x2d) := by
      rintro (rfl | rfl) <;> cases hd
    have hscan := scanDigitBytes_run hdigits hdigit
    rw [List.cons_append] at hscan
    simp only [List.cons_append, scanExponentPart, if_pos he, scanExponentBytes, if_neg hsign,
      hscan]
    rfl
  | @signed e sign digits he hsign hdigits =>
    simp only [List.cons_append, scanExponentPart, if_pos he, scanExponentBytes, if_pos hsign,
      scanDigitBytes_run hdigits hdigit]
    rfl

theorem IsExponent.no_digit {exponent rest : List UInt8} (h : IsExponent exponent)
    (hrest : EndsNumeral rest) :
    ∀ b ∈ (exponent ++ rest).head?, isDigitByte b = false ∧ b ≠ 0x2e := by
  intro b hb
  cases h with
  | none => exact ⟨(hrest b hb).1, (hrest b hb).2.1⟩
  | unsigned he _ =>
    cases hb
    rcases he with rfl | rfl <;> decide
  | signed he _ _ =>
    cases hb
    rcases he with rfl | rfl <;> decide

theorem scanFractionPart_run {fraction exponent rest : List UInt8} (hfraction : IsFraction fraction)
    (hexponent : IsExponent exponent) (hrest : EndsNumeral rest) :
    scanFractionPart (fraction ++ exponent ++ rest) =
      some (!(fraction ++ exponent).isEmpty, fraction ++ exponent, rest) := by
  have hstop := hexponent.no_digit hrest
  have hscan := scanExponentPart_run hexponent hrest
  cases hfraction with
  | none =>
    rw [List.nil_append]
    cases hbytes : exponent ++ rest with
    | nil =>
      rw [hbytes] at hscan
      exact hscan
    | cons b bytes =>
      rw [hbytes] at hscan hstop
      rw [scanFractionPart, if_neg (hstop b rfl).2]
      exact hscan
  | @digits digits hdigits =>
    have hfirst : ∀ b ∈ (exponent ++ rest).head?, isDigitByte b = false :=
      fun b hb => (hstop b hb).1
    simp only [List.cons_append, List.append_assoc, scanFractionPart, if_true,
      scanDigitBytes_run hdigits hfirst, hscan, Option.bind_eq_bind, Option.bind_some]
    rfl

theorem IsFraction.no_digit {fraction exponent rest : List UInt8} (h : IsFraction fraction)
    (hexponent : IsExponent exponent) (hrest : EndsNumeral rest) :
    ∀ b ∈ (fraction ++ exponent ++ rest).head?, isDigitByte b = false := by
  intro b hb
  cases h with
  | none => exact (hexponent.no_digit hrest b hb).1
  | digits _ =>
    cases hb
    rfl

/-- `scan_number` takes over a numeral as a whole; it is a float if it has a point or an
exponent. -/
theorem scanUnsigned_run {whole fraction exponent rest : List UInt8} (hwhole : IsWhole whole)
    (hfraction : IsFraction fraction) (hexponent : IsExponent exponent)
    (hrest : EndsNumeral rest) :
    scanUnsigned (whole ++ fraction ++ exponent ++ rest) =
      some (!(fraction ++ exponent).isEmpty, whole ++ fraction ++ exponent, rest) := by
  have hscan := scanFractionPart_run hfraction hexponent hrest
  simp only [List.append_assoc] at hscan ⊢
  cases hwhole with
  | zero =>
    rw [List.singleton_append, scanUnsigned, if_pos rfl, hscan]
    rfl
  | @digits b digits hb hdigits =>
    have hstop := hfraction.no_digit hexponent hrest
    rw [List.append_assoc] at hstop
    obtain ⟨htake, hdrop⟩ := takeWhile_digits hdigits hstop
    have hzero : b ≠ 0x30 := by
      rintro rfl
      exact absurd hb.1 (by decide)
    rw [List.cons_append, scanUnsigned, if_neg hzero, if_pos hb, htake, hdrop, hscan]
    rfl


/-! ### Reading a dumped integer -/

theorem toDigits_head {n : Nat} (h : 0 < n) :
    ∃ c rest, Nat.toDigits 10 n = c :: rest ∧ c ≠ '0' := by
  induction n using Nat.strong_induction_on with
  | _ n ih =>
    rcases Nat.lt_or_ge n 10 with hlt | hge
    · refine ⟨n.digitChar, [], Nat.toDigits_of_lt_base hlt, ?_⟩
      have hall : ∀ m < 10, 0 < m → m.digitChar ≠ '0' := by decide
      exact hall n hlt h
    · obtain ⟨c, rest, hdigits, hc⟩ := ih (n / 10) (by omega) (by omega)
      rw [Nat.toDigits_of_base_le (by decide) hge, hdigits]
      exact ⟨c, _, rfl, hc⟩

theorem toNat_digitByte {c : Char} (h : c.isDigit = true) :
    (UInt8.ofNat c.toNat).toNat = c.toNat ∧ 0x30 ≤ c.toNat ∧ c.toNat ≤ 0x39 := by
  have hrange : 48 ≤ c.toNat ∧ c.toNat ≤ 57 := by
    simpa [Char.isDigit, UInt32.le_iff_toNat_le] using h
  refine ⟨?_, hrange⟩
  rw [UInt8.toNat_ofNat']
  omega

theorem isDigitByte_iff {b : UInt8} : isDigitByte b = true ↔ 0x30 ≤ b.toNat ∧ b.toNat ≤ 0x39 := by
  simp [isDigitByte, UInt8.le_iff_toNat_le]

theorem isDigitByte_char {c : Char} (h : c.isDigit = true) :
    isDigitByte (UInt8.ofNat c.toNat) = true := by
  obtain ⟨hbyte, hrange⟩ := toNat_digitByte h
  rw [isDigitByte_iff, hbyte]
  exact hrange

theorem asciiBytes_repr (n : Nat) :
    asciiBytes n.repr = (Nat.toDigits 10 n).map fun c => UInt8.ofNat c.toNat := by
  rw [asciiBytes, Nat.toList_repr]

theorem isDigit_toDigits {n : Nat} {c : Char} (h : c ∈ Nat.toDigits 10 n) : c.isDigit = true :=
  Nat.isDigit_of_mem_toDigits (by decide) (by decide) h

theorem isWhole_repr (n : Nat) : IsWhole (asciiBytes n.repr) := by
  rw [asciiBytes_repr]
  rcases Nat.eq_zero_or_pos n with rfl | hpos
  · exact .zero
  · obtain ⟨c, rest, hdigits, hc⟩ := toDigits_head hpos
    have hdigit : ∀ d ∈ c :: rest, d.isDigit = true := by
      rw [← hdigits]
      exact fun d => isDigit_toDigits
    obtain ⟨hfirst, hrest⟩ := List.forall_mem_cons.mp hdigit
    obtain ⟨hbyte, hrange⟩ := toNat_digitByte hfirst
    have hne : c.toNat ≠ 0x30 := fun heq => hc (Char.toNat_inj.mp heq)
    rw [hdigits]
    refine .digits ⟨?_, ?_⟩ ?_
    · rw [UInt8.le_iff_toNat_le, hbyte]
      exact Nat.lt_of_le_of_ne hrange.1 (Ne.symm hne)
    · rw [UInt8.le_iff_toNat_le, hbyte]
      exact hrange.2
    · intro b hb
      obtain ⟨d, hd, rfl⟩ := List.mem_map.mp hb
      exact isDigitByte_char (hrest d hd)

theorem digitValue_repr (n : Nat) : digitValue (asciiBytes n.repr) = n := by
  have hchars : (asciiBytes n.repr).map (fun b => Char.ofNat b.toNat) = Nat.toDigits 10 n := by
    rw [asciiBytes_repr, List.map_map]
    conv_rhs => rw [← List.map_id (Nat.toDigits 10 n)]
    apply List.map_congr_left
    intro c hc
    simp only [Function.comp_apply, (toNat_digitByte (isDigit_toDigits hc)).1, Char.ofNat_toNat,
      id_eq]
  rw [digitValue, hchars, Nat.ofDigitChars_ten_toDigits]

end P2PShopping.Json
