import P2PShopping.Wire.SaxParser
import P2PShopping.Wire.Lexing

/-! One token after the other.

Each scanner takes at least a byte, and what it takes does not depend on what comes
later, unless it stopped at the end of the text: a numeral there may go on
(`scan_append`). So the tokens of a text are the first and the tokens of the rest
(`tokensFrom_scans`), and a text that parses can only be continued with blanks
(`Scans.extend`): cutting bytes off a dumped object leaves no text that parses. -/
namespace P2PShopping.Json

/-! ### Strings -/

theorem getCodepoint_append {bytes rest : List UInt8} {n : Nat}
    (h : getCodepoint bytes = some (n, rest)) :
    rest.length < bytes.length ∧ ∀ q, getCodepoint (bytes ++ q) = some (n, rest ++ q) := by
  match bytes with
  | b₁ :: b₂ :: b₃ :: b₄ :: bytes =>
    simp only [getCodepoint, Option.bind_eq_bind, Option.bind_eq_some_iff, Option.some.injEq,
      Prod.mk.injEq] at h
    obtain ⟨d₁, h₁, d₂, h₂, d₃, h₃, d₄, h₄, rfl, rfl⟩ := h
    refine ⟨by simp only [List.length_cons]; omega, fun q => ?_⟩
    simp [getCodepoint, h₁, h₂, h₃, h₄]
  | [] | [_] | [_, _] | [_, _, _] => cases h

theorem scanUnicode_append {bytes rest : List UInt8} {c : Char}
    (h : scanUnicode bytes = some (c, rest)) :
    rest.length < bytes.length ∧ ∀ q, scanUnicode (bytes ++ q) = some (c, rest ++ q) := by
  simp only [scanUnicode, Option.bind_eq_bind, Option.bind_eq_some_iff] at h
  obtain ⟨⟨codepoint₁, bytes₁⟩, hfirst, h⟩ := h
  obtain ⟨hshort₁, happend₁⟩ := getCodepoint_append hfirst
  simp only at h
  split_ifs at h with hhigh hlow
  · split at h
    case h_1 bytes₂ =>
      simp only [Option.bind_eq_some_iff] at h
      obtain ⟨⟨codepoint₂, bytes₃⟩, hsecond, h⟩ := h
      obtain ⟨hshort₂, happend₂⟩ := getCodepoint_append hsecond
      simp only [Option.ite_none_right_eq_some, Option.some.injEq, Prod.mk.injEq] at h
      obtain ⟨hrange, rfl, rfl⟩ := h
      simp only [List.length_cons] at hshort₁
      refine ⟨by omega, fun q => ?_⟩
      simp [scanUnicode, happend₁, hhigh, happend₂, hrange]
    case h_2 => cases h
  · cases h
    refine ⟨hshort₁, fun q => ?_⟩
    simp only [scanUnicode, happend₁, Option.bind_eq_bind, Option.bind_some, if_neg hhigh,
      if_neg hlow]

theorem scanEscape_append {bytes rest : List UInt8} {c : Char}
    (h : scanEscape bytes = some (c, rest)) :
    rest.length < bytes.length ∧ ∀ q, scanEscape (bytes ++ q) = some (c, rest ++ q) := by
  cases bytes with
  | nil => cases h
  | cons b bytes =>
    simp only [List.cons_append, scanEscape] at h ⊢
    split_ifs at h ⊢ <;> first
      | cases h
        exact ⟨Nat.lt_succ_self _, fun _ => rfl⟩
      | obtain ⟨hshort, happend⟩ := scanUnicode_append h
        exact ⟨Nat.lt_succ_of_lt hshort, happend⟩

theorem nextBytesInRange_append {ranges : List (UInt8 × UInt8)} {bytes taken rest : List UInt8}
    (h : nextBytesInRange ranges bytes = some (taken, rest)) :
    rest.length ≤ bytes.length ∧
      ∀ q, nextBytesInRange ranges (bytes ++ q) = some (taken, rest ++ q) := by
  obtain ⟨rfl, hrange⟩ := nextBytesInRange_some h
  refine ⟨by simp, fun q => ?_⟩
  rw [List.append_assoc]
  exact nextBytesInRange_run hrange _

theorem scanChar_append {bytes rest : List UInt8} {c : Option Char}
    (h : scanChar bytes = some (c, rest)) :
    rest.length < bytes.length ∧ ∀ q, scanChar (bytes ++ q) = some (c, rest ++ q) := by
  cases bytes with
  | nil => cases h
  | cons b bytes =>
    simp only [List.cons_append, scanChar] at h ⊢
    split_ifs at h ⊢ with hquote hbackslash hcontrol
    · cases h
      exact ⟨Nat.lt_succ_self _, fun _ => rfl⟩
    · obtain ⟨⟨c', rest'⟩, hescape, heq⟩ := Option.map_eq_some_iff.mp h
      cases heq
      obtain ⟨hshort, happend⟩ := scanEscape_append hescape
      refine ⟨Nat.lt_succ_of_lt hshort, fun q => ?_⟩
      rw [happend]
      rfl
    · simp only [Option.bind_eq_bind, Option.bind_eq_some_iff] at h
      obtain ⟨ranges, hranges, ⟨taken, rest'⟩, hnext, heq⟩ := h
      cases heq
      obtain ⟨hshort, happend⟩ := nextBytesInRange_append hnext
      refine ⟨Nat.lt_succ_of_le hshort, fun q => ?_⟩
      simp only [hranges, Option.bind_eq_bind, Option.bind_some, happend]

theorem scanChars_append {fuel : Nat} {bytes rest : List UInt8} {chars : List Char}
    (h : scanChars fuel bytes = some (chars, rest)) :
    rest.length < bytes.length ∧
      ∀ q fuel', fuel ≤ fuel' → scanChars fuel' (bytes ++ q) = some (chars, rest ++ q) := by
  induction fuel generalizing bytes chars with
  | zero => cases h
  | succ fuel ih =>
    rw [scanChars] at h
    split at h
    case h_1 => cases h
    case h_2 rest' hchar =>
      cases h
      obtain ⟨hshort, happend⟩ := scanChar_append hchar
      refine ⟨hshort, fun q fuel' hfuel => ?_⟩
      obtain ⟨fuel', rfl⟩ := Nat.exists_eq_succ_of_ne_zero (Nat.ne_zero_of_lt hfuel)
      rw [scanChars, happend]
    case h_3 c rest' hchar =>
      obtain ⟨⟨chars', rest''⟩, hchars, heq⟩ := Option.map_eq_some_iff.mp h
      cases heq
      obtain ⟨hshort, happend⟩ := scanChar_append hchar
      obtain ⟨hshort', happend'⟩ := ih hchars
      refine ⟨Nat.lt_trans hshort' hshort, fun q fuel' hfuel => ?_⟩
      obtain ⟨fuel', rfl⟩ := Nat.exists_eq_succ_of_ne_zero (Nat.ne_zero_of_lt hfuel)
      rw [scanChars, happend]
      simp only
      rw [happend' q fuel' (Nat.le_of_succ_le_succ hfuel)]
      rfl

theorem scanString_append {bytes rest : List UInt8} {s : String}
    (h : scanString bytes = some (s, rest)) :
    rest.length < bytes.length ∧ ∀ q, scanString (bytes ++ q) = some (s, rest ++ q) := by
  obtain ⟨⟨chars, rest'⟩, hchars, heq⟩ := Option.map_eq_some_iff.mp h
  cases heq
  obtain ⟨hshort, happend⟩ := scanChars_append hchars
  refine ⟨hshort, fun q => ?_⟩
  rw [scanString, happend q _ (by simp)]
  rfl

/-! ### Numerals -/

theorem dropWhile_length (bytes : List UInt8) :
    (bytes.dropWhile isDigitByte).length ≤ bytes.length :=
  (List.dropWhile_suffix _).length_le

theorem while_append {bytes : List UInt8} (h : bytes.dropWhile isDigitByte ≠ [])
    (q : List UInt8) :
    (bytes ++ q).takeWhile isDigitByte = bytes.takeWhile isDigitByte ∧
      (bytes ++ q).dropWhile isDigitByte = bytes.dropWhile isDigitByte ++ q := by
  induction bytes with
  | nil => exact absurd rfl h
  | cons b bytes ih =>
    cases hb : isDigitByte b with
    | true =>
      simp only [List.dropWhile_cons, hb, if_true] at h
      simpa [hb] using ih h
    | false => simp [hb]

theorem scanDigitBytes_append {bytes digits rest : List UInt8}
    (h : scanDigitBytes bytes = some (digits, rest)) :
    rest.length < bytes.length ∧
      (rest ≠ [] → ∀ q, scanDigitBytes (bytes ++ q) = some (digits, rest ++ q)) := by
  simp only [scanDigitBytes, Option.ite_none_left_eq_some, Option.some.injEq, Prod.mk.injEq] at h
  obtain ⟨hne, rfl, rfl⟩ := h
  constructor
  · have hsum := congrArg List.length
      (List.takeWhile_append_dropWhile (p := isDigitByte) (l := bytes))
    have hpos := List.length_pos_iff.mpr hne
    rw [List.length_append] at hsum
    omega
  · intro hrest q
    obtain ⟨htake, hdrop⟩ := while_append hrest q
    simp only [scanDigitBytes, htake, hdrop, if_neg hne]

theorem scanExponentBytes_append {bytes digits rest : List UInt8}
    (h : scanExponentBytes bytes = some (digits, rest)) :
    rest.length < bytes.length ∧
      (rest ≠ [] → ∀ q, scanExponentBytes (bytes ++ q) = some (digits, rest ++ q)) := by
  cases bytes with
  | nil => cases h
  | cons b bytes =>
    simp only [List.cons_append, scanExponentBytes] at h ⊢
    split_ifs at h ⊢
    · obtain ⟨⟨digits', rest'⟩, hdigits, heq⟩ := Option.map_eq_some_iff.mp h
      cases heq
      obtain ⟨hshort, happend⟩ := scanDigitBytes_append hdigits
      refine ⟨Nat.lt_succ_of_lt hshort, fun hrest q => ?_⟩
      rw [happend hrest]
      rfl
    · exact scanDigitBytes_append h

theorem scanExponentPart_append {bytes exponent rest : List UInt8} {isFloat : Bool}
    (h : scanExponentPart bytes = some (isFloat, exponent, rest)) :
    rest.length ≤ bytes.length ∧
      (rest ≠ [] → ∀ q, scanExponentPart (bytes ++ q) = some (isFloat, exponent, rest ++ q)) := by
  cases bytes with
  | nil =>
    cases h
    exact ⟨le_rfl, fun hrest => absurd rfl hrest⟩
  | cons b bytes =>
    simp only [List.cons_append, scanExponentPart] at h ⊢
    split_ifs at h ⊢
    · obtain ⟨⟨digits', rest'⟩, hdigits, heq⟩ := Option.map_eq_some_iff.mp h
      cases heq
      obtain ⟨hshort, happend⟩ := scanExponentBytes_append hdigits
      refine ⟨Nat.le_succ_of_le (Nat.le_of_lt hshort), fun hrest q => ?_⟩
      rw [happend hrest]
      rfl
    · cases h
      exact ⟨le_rfl, fun _ q => rfl⟩

theorem scanFractionPart_append {bytes fraction rest : List UInt8} {isFloat : Bool}
    (h : scanFractionPart bytes = some (isFloat, fraction, rest)) :
    rest.length ≤ bytes.length ∧
      (rest ≠ [] → ∀ q, scanFractionPart (bytes ++ q) = some (isFloat, fraction, rest ++ q)) := by
  cases bytes with
  | nil =>
    cases h
    exact ⟨le_rfl, fun hrest => absurd rfl hrest⟩
  | cons b bytes =>
    simp only [List.cons_append, scanFractionPart] at h ⊢
    split_ifs at h ⊢
    · simp only [Option.bind_eq_bind, Option.bind_eq_some_iff] at h
      obtain ⟨⟨digits, rest₁⟩, hdigits, ⟨hasExponent, exponent, rest₂⟩, hexponent, heq⟩ := h
      cases heq
      obtain ⟨hshort₁, happend₁⟩ := scanDigitBytes_append hdigits
      obtain ⟨hshort₂, happend₂⟩ := scanExponentPart_append hexponent
      refine ⟨Nat.le_succ_of_le (hshort₂.trans hshort₁.le), fun hrest q => ?_⟩
      have hrest₁ : rest₁ ≠ [] := by
        rintro rfl
        exact hrest (List.length_eq_zero_iff.mp (Nat.le_zero.mp hshort₂))
      simp only [happend₁ hrest₁, happend₂ hrest, Option.bind_eq_bind, Option.bind_some]
    · exact scanExponentPart_append h

theorem scanUnsigned_append {bytes digits rest : List UInt8} {isFloat : Bool}
    (h : scanUnsigned bytes = some (isFloat, digits, rest)) :
    rest.length < bytes.length ∧
      (rest ≠ [] → ∀ q, scanUnsigned (bytes ++ q) = some (isFloat, digits, rest ++ q)) := by
  cases bytes with
  | nil => cases h
  | cons b bytes =>
    simp only [List.cons_append, scanUnsigned] at h ⊢
    split_ifs at h ⊢
    · obtain ⟨⟨isFloat', fraction, rest'⟩, hfraction, heq⟩ := Option.map_eq_some_iff.mp h
      cases heq
      obtain ⟨hshort, happend⟩ := scanFractionPart_append hfraction
      refine ⟨Nat.lt_succ_of_le hshort, fun hrest q => ?_⟩
      rw [happend hrest]
      rfl
    · obtain ⟨⟨isFloat', fraction, rest'⟩, hfraction, heq⟩ := Option.map_eq_some_iff.mp h
      cases heq
      obtain ⟨hshort, happend⟩ := scanFractionPart_append hfraction
      have hdrop := dropWhile_length bytes
      refine ⟨Nat.lt_succ_of_le (hshort.trans hdrop), fun hrest q => ?_⟩
      have hdigits : bytes.dropWhile isDigitByte ≠ [] := by
        intro hnil
        rw [hnil] at hshort
        exact hrest (List.length_eq_zero_iff.mp (Nat.le_zero.mp hshort))
      obtain ⟨htake, hdrop⟩ := while_append hdigits q
      rw [htake, hdrop, happend hrest]
      rfl

/-! ### Tokens -/

variable {P : Type} {strtod : List UInt8 → Option P}

theorem scanNumber_append {negative : Bool} {bytes rest : List UInt8} {token : Token P}
    (h : scanNumber strtod negative bytes = (token, rest)) (hlast : token.last = false) :
    rest.length < bytes.length ∧
      (rest ≠ [] → ∀ q, scanNumber strtod negative (bytes ++ q) = (token, rest ++ q)) := by
  rw [scanNumber] at h
  split at h
  case h_1 =>
    cases h
    cases hlast
  case h_2 isFloat digits rest' hscan =>
    cases h
    obtain ⟨hshort, happend⟩ := scanUnsigned_append hscan
    refine ⟨hshort, fun hrest q => ?_⟩
    rw [scanNumber, happend hrest]

theorem scanLiteral_append {letters bytes rest : List UInt8} {literal token : Token P}
    (h : scanLiteral letters literal bytes = (token, rest)) (hlast : token.last = false) :
    rest.length ≤ bytes.length ∧
      ∀ q, scanLiteral letters literal (bytes ++ q) = (token, rest ++ q) := by
  rw [scanLiteral] at h
  split at h
  case isTrue hprefix =>
    cases h
    obtain ⟨bytes', rfl⟩ := List.isPrefixOf_iff_prefix.mp hprefix
    refine ⟨by simp, fun q => ?_⟩
    have hprefix' : letters.isPrefixOf (letters ++ bytes' ++ q) = true :=
      List.isPrefixOf_iff_prefix.mpr ⟨bytes' ++ q, by rw [List.append_assoc]⟩
    rw [scanLiteral, if_pos hprefix', List.append_assoc, List.drop_left, List.drop_left]
  case isFalse =>
    cases h
    cases hlast

theorem blank_append {bytes rest : List UInt8} {b : UInt8}
    (h : bytes.dropWhile isBlankByte = b :: rest) (q : List UInt8) :
    (bytes ++ q).dropWhile isBlankByte = b :: (rest ++ q) := by
  induction bytes with
  | nil => cases h
  | cons c bytes ih =>
    cases hc : isBlankByte c with
    | true =>
      simp only [List.dropWhile_cons, hc, if_true] at h
      simpa [hc] using ih h
    | false =>
      simp only [List.dropWhile_cons, hc] at h
      cases h
      simp [hc]

theorem scanToken_append {b : UInt8} {bytes rest : List UInt8} {token : Token P}
    (h : scanToken strtod b bytes = (token, rest)) (hlast : token.last = false) :
    rest.length ≤ bytes.length ∧
      (rest ≠ [] → ∀ q, scanToken strtod b (bytes ++ q) = (token, rest ++ q)) := by
  have hliteral : ∀ {letters : List UInt8} {literal : Token P},
      scanLiteral letters literal bytes = (token, rest) →
      rest.length ≤ bytes.length ∧
        (rest ≠ [] → ∀ q, scanLiteral letters literal (bytes ++ q) = (token, rest ++ q)) := by
    intro letters literal hscan
    obtain ⟨hshort, happend⟩ := scanLiteral_append hscan hlast
    exact ⟨hshort, fun _ => happend⟩
  unfold scanToken at h ⊢
  cases hstructural : structural b with
  | some t =>
    rw [hstructural] at h
    cases h
    exact ⟨le_rfl, fun _ _ => rfl⟩
  | none =>
    rw [hstructural] at h
    simp only at h ⊢
    split_ifs at h ⊢ with htrue hfalse hnull hstring hminus hdigit hend
    · exact hliteral h
    · exact hliteral h
    · exact hliteral h
    · cases hscan : scanString bytes with
      | none =>
        rw [hscan] at h
        cases h
        cases hlast
      | some r =>
        rw [hscan] at h
        cases h
        obtain ⟨hshort, happend⟩ := scanString_append hscan
        exact ⟨hshort.le, fun _ q => by rw [happend]⟩
    · obtain ⟨hshort, happend⟩ := scanNumber_append h hlast
      exact ⟨hshort.le, happend⟩
    · obtain ⟨hshort, happend⟩ := scanNumber_append h hlast
      exact ⟨Nat.le_of_lt_succ hshort, happend⟩
    · cases h
      cases hlast
    · cases h
      cases hlast

/-- **What a token takes does not depend on what comes after it**, unless it ends the
text. -/
theorem scan_append {bytes rest : List UInt8} {token : Token P}
    (h : scan strtod bytes = (token, rest)) (hlast : token.last = false) :
    rest.length < bytes.length ∧
      (rest ≠ [] → ∀ q, scan strtod (bytes ++ q) = (token, rest ++ q)) := by
  unfold scan at h
  split at h
  case h_1 =>
    cases h
    cases hlast
  case h_2 b bytes' hblank =>
    have hlength : bytes'.length < bytes.length := by
      have hsuffix := (List.dropWhile_suffix (p := isBlankByte) (l := bytes)).length_le
      rw [hblank, List.length_cons] at hsuffix
      exact hsuffix
    obtain ⟨hshort, happend⟩ := scanToken_append h hlast
    refine ⟨Nat.lt_of_le_of_lt hshort hlength, fun hrest q => ?_⟩
    rw [scan, blank_append hblank]
    exact happend hrest q

/-! ### Runs of tokens -/

variable (strtod) in
/-- The bytes start with these tokens, and this is left of them. -/
inductive Scans : List UInt8 → List (Token P) → List UInt8 → Prop where
  | nil {bytes : List UInt8} : Scans bytes [] bytes
  | cons {bytes middle rest : List UInt8} {token : Token P} {ts : List (Token P)} :
      scan strtod bytes = (token, middle) → token.last = false → Scans middle ts rest →
      Scans bytes (token :: ts) rest

namespace Scans
variable {bytes middle rest rest' : List UInt8} {token : Token P} {ts us : List (Token P)}

theorem single (h : scan strtod bytes = (token, rest)) (hlast : token.last = false) :
    Scans strtod bytes [token] rest := .cons h hlast .nil

theorem append (first : Scans strtod bytes ts middle) (second : Scans strtod middle us rest) :
    Scans strtod bytes (ts ++ us) rest := by
  induction first with
  | nil => exact second
  | cons hscan hlast _ ih => exact .cons hscan hlast (ih second)

theorem unique (h : Scans strtod bytes ts rest) (h' : Scans strtod bytes ts rest') :
    rest = rest' := by
  induction h with
  | nil =>
    cases h'
    rfl
  | cons hscan _ _ ih =>
    obtain _ | ⟨hscan', _, h'⟩ := h'
    rw [hscan] at hscan'
    cases hscan'
    exact ih h'

theorem length_le (h : Scans strtod bytes ts rest) : ts.length + rest.length ≤ bytes.length := by
  induction h with
  | nil => simp
  | cons hscan hlast _ ih =>
    have := (scan_append hscan hlast).1
    simp only [List.length_cons]
    omega

end Scans

theorem tokensFrom_scans {bytes rest : List UInt8} {ts : List (Token P)}
    (h : Scans strtod bytes ts rest) (fuel : Nat) :
    tokensFrom strtod (ts.length + fuel) bytes = ts ++ tokensFrom strtod fuel rest := by
  induction h with
  | nil => simp
  | @cons bytes middle rest token ts hscan hlast _ ih =>
    rw [List.length_cons, Nat.add_right_comm, tokensFrom, hscan]
    simp only [hlast, Bool.false_eq_true, if_false, ih, List.cons_append]

/-- The tokens of a text that has been scanned to its end. -/
theorem tokensFrom_of_scans {bytes rest : List UInt8} {ts : List (Token P)} {token : Token P}
    (h : Scans strtod bytes ts rest) (hend : (scan strtod rest).1 = token)
    (hlast : token.last = true) :
    tokensFrom strtod (bytes.length + 1) bytes = ts ++ [token] := by
  have hlength := h.length_le
  obtain ⟨fuel, hfuel⟩ : ∃ fuel, bytes.length + 1 = ts.length + (fuel + 1) :=
    ⟨bytes.length - ts.length, by omega⟩
  obtain ⟨first, rest', hscan⟩ : ∃ first rest', scan strtod rest = (first, rest') :=
    ⟨_, _, rfl⟩
  obtain rfl : first = token := by rw [← hend, hscan]
  rw [hfuel, tokensFrom_scans h, tokensFrom, hscan]
  simp only [hlast, if_true]

/-- And the other way round. -/
theorem scans_of_tokensFrom {fuel : Nat} {bytes : List UInt8} {ts us : List (Token P)}
    (h : tokensFrom strtod fuel bytes = ts ++ us) (hts : ∀ t ∈ ts, t.last = false) :
    ∃ rest, Scans strtod bytes ts rest ∧
      tokensFrom strtod (fuel - ts.length) rest = us := by
  induction ts generalizing fuel bytes with
  | nil => exact ⟨bytes, .nil, h⟩
  | cons t ts ih =>
    obtain ⟨ht, hrest⟩ := List.forall_mem_cons.mp hts
    cases fuel with
    | zero => cases h
    | succ fuel =>
      obtain ⟨first, middle, hscan⟩ : ∃ first middle, scan strtod bytes = (first, middle) :=
        ⟨_, _, rfl⟩
      rw [tokensFrom, hscan] at h
      simp only at h
      split at h
      case isTrue hfirst =>
        obtain ⟨rfl, -⟩ := List.cons.inj h
        rw [hfirst] at ht
        cases ht
      case isFalse hfirst =>
        obtain ⟨rfl, htail⟩ := List.cons.inj h
        obtain ⟨rest, hscans, hend⟩ := ih htail hrest
        refine ⟨rest, .cons hscan ht hscans, ?_⟩
        rwa [List.length_cons, Nat.add_sub_add_right]

/-! ### A closed object -/

variable (strtod) in
theorem numberToken_number (negative isFloat : Bool) (digits : List UInt8) :
    (∃ n, numberToken strtod negative isFloat digits = .valueInteger n) ∨
      ∃ x, numberToken strtod negative isFloat digits = .valueFloat x := by
  unfold numberToken
  simp only
  split_ifs
  · exact .inr ⟨_, rfl⟩
  · exact .inr ⟨_, rfl⟩
  · exact .inl ⟨_, rfl⟩
  · exact .inr ⟨_, rfl⟩
  · exact .inl ⟨_, rfl⟩
  · exact .inr ⟨_, rfl⟩

theorem scanNumber_ne_endObject (negative : Bool) (bytes : List UInt8) :
    (scanNumber strtod negative bytes).1 ≠ .endObject := by
  rw [scanNumber]
  split
  case h_1 => simp
  case h_2 isFloat digits rest _ =>
    obtain ⟨n, hn⟩ | ⟨x, hx⟩ := numberToken_number strtod negative isFloat digits
    · simp [hn]
    · simp [hx]

theorem scanLiteral_ne_endObject {letters bytes : List UInt8} {literal : Token P}
    (h : literal ≠ .endObject) : (scanLiteral letters literal bytes).1 ≠ .endObject := by
  rw [scanLiteral]
  split
  · exact h
  · simp

theorem structural_endObject {b : UInt8} (h : structural b = some (.endObject : Token P)) :
    b = 0x7d := by
  unfold structural at h
  split_ifs at h with h₁ h₂ h₃ h₄ <;> first | exact h₄ | cases h

theorem scanToken_endObject {b : UInt8} {bytes rest : List UInt8}
    (h : scanToken strtod b bytes = (.endObject, rest)) : b = 0x7d ∧ bytes = rest := by
  have hfst := congrArg Prod.fst h
  unfold scanToken at h hfst
  cases hstructural : (structural b : Option (Token P)) with
  | some t =>
    rw [hstructural] at h
    cases h
    exact ⟨structural_endObject hstructural, rfl⟩
  | none =>
    rw [hstructural] at hfst
    simp only at hfst
    split_ifs at hfst with htrue hfalse hnull hstring hminus hdigit hend
    · exact absurd hfst (scanLiteral_ne_endObject (by simp))
    · exact absurd hfst (scanLiteral_ne_endObject (by simp))
    · exact absurd hfst (scanLiteral_ne_endObject (by simp))
    · cases hstr : scanString bytes <;> rw [hstr] at hfst <;> cases hfst
    · exact (scanNumber_ne_endObject _ _ hfst).elim
    · exact (scanNumber_ne_endObject _ _ hfst).elim

/-- The bracket is a token by itself. -/
theorem scan_endObject {bytes rest : List UInt8}
    (h : scan strtod bytes = (.endObject, rest)) (q : List UInt8) :
    scan strtod (bytes ++ q) = (.endObject, rest ++ q) := by
  rw [scan] at h
  split at h
  case h_1 => cases h
  case h_2 b bytes' hblank =>
    obtain ⟨rfl, rfl⟩ := scanToken_endObject h
    rw [scan, blank_append hblank]
    rfl

/-- A text that ends with a closed object may go on; its tokens stay. -/
theorem Scans.extend {bytes rest : List UInt8} {ts : List (Token P)}
    (h : Scans strtod bytes (ts ++ [.endObject]) rest) (q : List UInt8) :
    Scans strtod (bytes ++ q) (ts ++ [.endObject]) (rest ++ q) := by
  induction ts generalizing bytes with
  | nil =>
    obtain _ | ⟨hscan, hlast, _ | _⟩ := h
    exact .single (scan_endObject hscan q) hlast
  | cons t ts ih =>
    obtain _ | ⟨hscan, hlast, hrest⟩ := h
    refine .cons ((scan_append hscan hlast).2 ?_ q) hlast (ih hrest)
    rintro rfl
    have := hrest.length_le
    simp at this

end P2PShopping.Json
