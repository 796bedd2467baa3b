import Mathlib.Algebra.Order.Ring.Unbundled.Rat
import Mathlib.Algebra.Order.Field.Rat
import Mathlib.Data.List.TakeWhile

/-! Numerals at the front of a text, in the "C" locale.

A number is read by taking the longest run of characters that may belong to one and
converting it. For a decimal that run is a `Field`: a sign, digits with at most one
point among them, and an exponent once there was a digit. A field is a numeral if
there are digits where a number needs them; the others are taken off the text just
the same, and then fail to convert. `scan_text` and `scan_append` say which field a
text starts with: the one whose text it starts with and that could not go on. -/
namespace Numerals

/-- `isspace`. -/
def isSpace (c : Char) : Bool := c ∈ [' ', '\t', '\n', '\x0b', '\x0c', '\r']

/-! ### Runs of characters -/

section Runs
variable {α : Type} {p : α → Bool}

/-- The next element, if there is one, is no `p`. -/
def Stops (p : α → Bool) (l : List α) : Prop := ∀ a ∈ l.head?, p a = false

theorem stops_dropWhile (l : List α) : Stops p (l.dropWhile p) := by
  intro a ha
  have hhead := List.head?_dropWhile_not p l
  rw [Option.mem_def.mp ha] at hhead
  simpa using hhead

/-- A run of `p`s and what stops it. -/
theorem takeWhile_run {run rest : List α} (hrun : ∀ a ∈ run, p a = true) (hrest : Stops p rest) :
    (run ++ rest).takeWhile p = run := by
  rw [List.takeWhile_append_of_pos hrun]
  cases rest with
  | nil => simp
  | cons a rest => simp [hrest a rfl]

theorem dropWhile_run {run rest : List α} (hrun : ∀ a ∈ run, p a = true) (hrest : Stops p rest) :
    (run ++ rest).dropWhile p = rest := by
  rw [List.dropWhile_append_of_pos hrun]
  cases rest with
  | nil => rfl
  | cons a rest => simp [hrest a rfl]

end Runs

/-! ### Signs and digits -/

inductive Sign where
  | plus
  | minus
deriving DecidableEq

def Sign.char : Sign → Char
  | .plus => '+'
  | .minus => '-'

def signText (sign : Option Sign) : List Char := (sign.map Sign.char).toList

def signed (sign : Option Sign) (n : Nat) : Int := if sign = some .minus then -n else n

def scanSign : List Char → Option Sign × List Char
  | '+' :: rest => (some .plus, rest)
  | '-' :: rest => (some .minus, rest)
  | rest => (none, rest)

abbrev Digits := {ds : List Char // ∀ c ∈ ds, c.isDigit = true}

def Digits.value (ds : Digits) : Nat := Nat.ofDigitChars 10 ds.1 0

def scanDigits (cs : List Char) : Digits × List Char :=
  (⟨cs.takeWhile Char.isDigit, fun _ hc => List.mem_takeWhile_imp hc⟩, cs.dropWhile Char.isDigit)

theorem scanSign_append (cs : List Char) : signText (scanSign cs).1 ++ (scanSign cs).2 = cs := by
  unfold scanSign
  split <;> rfl

theorem scanSign_text {sign : Option Sign} {rest : List Char}
    (h : Stops (fun c => c = '+' ∨ c = '-') rest) :
    scanSign (signText sign ++ rest) = (sign, rest) := by
  cases sign with
  | some sign => cases sign <;> rfl
  | none =>
    change scanSign rest = (none, rest)
    unfold scanSign
    split
    · simpa using h '+' rfl
    · simpa using h '-' rfl
    · rfl

theorem scanDigits_append (cs : List Char) : (scanDigits cs).1.1 ++ (scanDigits cs).2 = cs :=
  List.takeWhile_append_dropWhile

theorem scanDigits_stops (cs : List Char) : Stops Char.isDigit (scanDigits cs).2 :=
  stops_dropWhile cs

theorem scanDigits_text {ds : Digits} {rest : List Char} (h : Stops Char.isDigit rest) :
    scanDigits (ds.1 ++ rest) = (ds, rest) := by
  refine Prod.ext ?_ (dropWhile_run ds.2 h)
  exact Subtype.ext (takeWhile_run ds.2 h)

/-! ### `std::stoi` -/

inductive StoiError where
  | invalidArgument
  | outOfRange

/-- In base 10: blanks, a sign, digits; what follows them is not looked at. -/
def stoi (s : List Char) : Except StoiError Int :=
  let (sign, cs) := scanSign (s.dropWhile isSpace)
  let (digits, _) := scanDigits cs
  if digits.1 = [] then .error .invalidArgument
  else
    let n := signed sign digits.value
    if n < -2 ^ 31 ∨ 2 ^ 31 - 1 < n then .error .outOfRange else .ok n

/-! ### Decimals -/

structure Exponent where
  upper : Bool
  sign : Option Sign
  digits : Digits

structure Field where
  sign : Option Sign
  whole : Digits
  fraction : Option Digits
  exponent : Option Exponent

def fractionText (fraction : Option Digits) : List Char :=
  match fraction with
  | some ds => '.' :: ds.1
  | none => []

def exponentText (exponent : Option Exponent) : List Char :=
  match exponent with
  | some e => (if e.upper then 'E' else 'e') :: (signText e.sign ++ e.digits.1)
  | none => []

namespace Field

def text (f : Field) : List Char :=
  signText f.sign ++ (f.whole.1 ++ (fractionText f.fraction ++ exponentText f.exponent))

def fractionDigits (f : Field) : List Char :=
  match f.fraction with
  | some ds => ds.1
  | none => []

/-- The digits before the exponent. -/
def mantissa (f : Field) : List Char := f.whole.1 ++ f.fractionDigits

/-- What `strtod` accepts to its last character. -/
structure IsNumeral (f : Field) : Prop where
  mantissa : f.mantissa ≠ []
  exponent : ∀ e, f.exponent = some e → e.digits.1 ≠ []

instance (f : Field) : Decidable f.IsNumeral :=
  decidable_of_iff (f.mantissa ≠ [] ∧ ∀ e ∈ f.exponent, e.digits.1 ≠ [])
    ⟨fun h => ⟨h.1, h.2⟩, fun h => ⟨h.1, h.2⟩⟩

/-- Its exact value. -/
def value (f : Field) : Rat :=
  let scale : Int := match f.exponent with
    | some e => signed e.sign e.digits.value
    | none => 0
  signed f.sign (Nat.ofDigitChars 10 f.mantissa 0) * (10 : Rat) ^ (scale - f.fractionDigits.length)

/-- The next character does not belong to the field. -/
def Ends (f : Field) (rest : List Char) : Prop :=
  ∀ c ∈ rest.head?, c.isDigit = false ∧ (c = '.' → f.fraction.isSome ∨ f.exponent.isSome) ∧
    (c = 'e' ∨ c = 'E' → f.exponent.isSome)

end Field

def scanFraction : List Char → Option Digits × List Char
  | '.' :: rest =>
    let (digits, rest) := scanDigits rest
    (some digits, rest)
  | rest => (none, rest)

def scanExponent : List Char → Option Exponent × List Char
  | [] => (none, [])
  | c :: rest =>
    if c = 'e' ∨ c = 'E' then
      let (sign, rest) := scanSign rest
      let (digits, rest) := scanDigits rest
      (some ⟨c = 'E', sign, digits⟩, rest)
    else (none, c :: rest)

/-- The field a text starts with, and what follows it. -/
def scan (cs : List Char) : Field × List Char :=
  let (sign, cs) := scanSign cs
  let (whole, cs) := scanDigits cs
  let (fraction, cs) := scanFraction cs
  let (exponent, cs) :=
    if whole.1 = [] ∧ fraction.all (·.1 = []) then (none, cs) else scanExponent cs
  (⟨sign, whole, fraction, exponent⟩, cs)

/-! ### What a scan takes -/

section Scan
variable {cs rest : List Char}

theorem scanFraction_append (cs : List Char) :
    fractionText (scanFraction cs).1 ++ (scanFraction cs).2 = cs := by
  unfold scanFraction
  split
  · simp [fractionText, scanDigits_append]
  · rfl

theorem scanFraction_stops (h : Stops Char.isDigit cs) :
    Stops Char.isDigit (scanFraction cs).2 := by
  unfold scanFraction
  split
  · exact scanDigits_stops _
  · exact h

theorem scanFraction_point (h : (scanFraction cs).1 = none) :
    ∀ c ∈ (scanFraction cs).2.head?, c ≠ '.' := by
  unfold scanFraction at h ⊢
  split
  case h_1 => cases h
  case h_2 hother =>
    intro c hc hpoint
    subst hpoint
    obtain ⟨tail, rfl⟩ := List.head?_eq_some_iff.mp (Option.mem_def.mp hc)
    exact hother tail rfl

theorem scanExponent_append (cs : List Char) :
    exponentText (scanExponent cs).1 ++ (scanExponent cs).2 = cs := by
  cases cs with
  | nil => rfl
  | cons c rest =>
    simp only [scanExponent]
    split
    case isTrue hc =>
      have htail := scanSign_append rest
      rw [← scanDigits_append (scanSign rest).2, ← List.append_assoc] at htail
      rcases hc with rfl | rfl
      · simpa [exponentText] using htail
      · simpa [exponentText] using htail
    case isFalse => rfl

theorem scanExponent_stops (h : Stops Char.isDigit cs) :
    Stops Char.isDigit (scanExponent cs).2 := by
  cases cs with
  | nil => exact h
  | cons c rest =>
    simp only [scanExponent]
    split
    · exact scanDigits_stops _
    · exact h

theorem scanExponent_none (h : (scanExponent cs).1 = none) :
    (scanExponent cs).2 = cs ∧ ∀ c ∈ cs.head?, ¬ (c = 'e' ∨ c = 'E') := by
  cases cs with
  | nil => exact ⟨rfl, by simp⟩
  | cons c rest =>
    simp only [scanExponent] at h ⊢
    split
    case isTrue hc =>
      rw [if_pos hc] at h
      cases h
    case isFalse hc =>
      refine ⟨rfl, fun a ha => ?_⟩
      obtain rfl : c = a := by simpa using ha
      exact hc

/-- **The text of the field, and what follows it, is the text that was scanned.** -/
theorem scan_append (cs : List Char) : (scan cs).1.text ++ (scan cs).2 = cs := by
  have hsign := scanSign_append cs
  have hwhole := scanDigits_append (scanSign cs).2
  have hfraction := scanFraction_append (scanDigits (scanSign cs).2).2
  have hexponent := scanExponent_append (scanFraction (scanDigits (scanSign cs).2).2).2
  unfold scan Field.text
  simp only
  split
  case isTrue => simp [exponentText, hfraction, hwhole, hsign]
  case isFalse => simp [hexponent, hfraction, hwhole, hsign]

theorem mantissa_eq_nil {f : Field} :
    f.mantissa = [] ↔ f.whole.1 = [] ∧ f.fraction.all (·.1 = []) = true := by
  rw [Field.mantissa, List.append_eq_nil_iff, Field.fractionDigits]
  cases f.fraction <;> simp

/-- A scan that has found a digit goes on to the exponent. -/
theorem scan_of_mantissa {sign : Option Sign} {whole : Digits} {fraction : Option Digits}
    {cs₁ cs₂ cs₃ : List Char} (hsign : scanSign cs = (sign, cs₁))
    (hwhole : scanDigits cs₁ = (whole, cs₂)) (hfraction : scanFraction cs₂ = (fraction, cs₃))
    (h : ¬ (whole.1 = [] ∧ fraction.all (·.1 = []) = true)) :
    scan cs = (⟨sign, whole, fraction, (scanExponent cs₃).1⟩, (scanExponent cs₃).2) := by
  simp only [scan, hsign, hwhole, hfraction, if_neg h]

/-- **A numeral is taken off the text as far as it goes.** -/
theorem scan_ends (h : (scan cs).1.IsNumeral) : (scan cs).1.Ends (scan cs).2 := by
  cases hsign : scanSign cs with | mk sign cs₁ =>
  cases hwhole : scanDigits cs₁ with | mk whole cs₂ =>
  cases hfraction : scanFraction cs₂ with | mk fraction cs₃ =>
  have hsome : ¬ (whole.1 = [] ∧ fraction.all (·.1 = []) = true) := by
    intro hnil
    apply h.mantissa
    rw [mantissa_eq_nil]
    simpa only [scan, hsign, hwhole, hfraction, if_pos hnil] using hnil
  rw [scan_of_mantissa hsign hwhole hfraction hsome]
  have hdigits : Stops Char.isDigit cs₃ := by
    have hstops := scanDigits_stops cs₁
    rw [hwhole] at hstops
    simpa [hfraction] using scanFraction_stops hstops
  intro c hc
  refine ⟨scanExponent_stops hdigits c hc, fun hpoint => ?_, fun he => ?_⟩
  · by_contra hnone
    simp only [not_or, Bool.not_eq_true, Option.isSome_eq_false_iff, Option.isNone_iff_eq_none]
      at hnone
    rw [(scanExponent_none hnone.2).1] at hc
    have hfresh : (scanFraction cs₂).1 = none → _ := scanFraction_point
    rw [hfraction] at hfresh
    exact hfresh hnone.1 c hc hpoint
  · by_contra hnone
    simp only [Bool.not_eq_true, Option.isSome_eq_false_iff, Option.isNone_iff_eq_none] at hnone
    obtain ⟨hrest, hfresh⟩ := scanExponent_none hnone
    rw [hrest] at hc
    exact hfresh c hc he

/-! ### What a scan finds -/

/-- A digit is none of the other characters of a number. -/
theorem digit_plain {c : Char} (h : c.isDigit = true) :
    c ≠ '+' ∧ c ≠ '-' ∧ c ≠ '.' ∧ c ≠ 'e' ∧ c ≠ 'E' := by
  refine ⟨?_, ?_, ?_, ?_, ?_⟩ <;>
    · intro hc
      rw [hc] at h
      cases h

theorem head_digits {ds : Digits} {c : Char} (hds : ds.1 ≠ []) (hc : c ∈ (ds.1 ++ rest).head?) :
    c.isDigit = true := by
  obtain ⟨d, ds', hd⟩ := List.exists_cons_of_ne_nil hds
  rw [hd] at hc
  obtain rfl : d = c := by simpa using hc
  exact ds.2 d (by simp [hd])

/-- Where digits go on, an exponent has come to its end or begins. -/
theorem head_exponent {exponent : Option Exponent} {c : Char}
    (hc : c ∈ (exponentText exponent ++ rest).head?) :
    (c = 'e' ∨ c = 'E') ∨ (exponent = none ∧ c ∈ rest.head?) := by
  cases exponent with
  | none => exact .inr ⟨rfl, hc⟩
  | some e =>
    obtain ⟨upper, sign, digits⟩ := e
    left
    cases upper
    · exact .inl (Option.some.inj hc).symm
    · exact .inr (Option.some.inj hc).symm

theorem scanFraction_text {fraction : Option Digits} (hdigits : Stops Char.isDigit rest)
    (hpoint : fraction = none → ∀ c ∈ rest.head?, c ≠ '.') :
    scanFraction (fractionText fraction ++ rest) = (fraction, rest) := by
  cases fraction with
  | some ds => simp only [fractionText, List.cons_append, scanFraction, scanDigits_text hdigits]
  | none =>
    change scanFraction rest = (none, rest)
    unfold scanFraction
    split
    · exact absurd rfl (hpoint rfl '.' rfl)
    · rfl

theorem scanExponent_text {exponent : Option Exponent} (hdigits : Stops Char.isDigit rest)
    (hsome : ∀ e, exponent = some e → e.digits.1 ≠ [])
    (hnone : exponent = none → ∀ c ∈ rest.head?, ¬ (c = 'e' ∨ c = 'E')) :
    scanExponent (exponentText exponent ++ rest) = (exponent, rest) := by
  cases exponent with
  | none =>
    change scanExponent rest = (none, rest)
    cases rest with
    | nil => rfl
    | cons c rest => simp only [scanExponent, if_neg (hnone rfl c rfl)]
  | some e =>
    obtain ⟨upper, sign, digits⟩ := e
    have hsign : scanSign (signText sign ++ (digits.1 ++ rest)) = (sign, digits.1 ++ rest) := by
      apply scanSign_text
      intro c hc
      obtain ⟨hplus, hminus, -⟩ := digit_plain (head_digits (hsome _ rfl) hc)
      simp [hplus, hminus]
    cases upper <;>
      simp [exponentText, scanExponent, hsign, scanDigits_text hdigits]

/-- **A numeral that cannot go on is what the scan finds.** -/
theorem scan_text {f : Field} (hf : f.IsNumeral) (hrest : f.Ends rest) :
    scan (f.text ++ rest) = (f, rest) := by
  obtain ⟨sign, whole, fraction, exponent⟩ := f
  have hexponent : scanExponent (exponentText exponent ++ rest) = (exponent, rest) := by
    refine scanExponent_text (fun c hc => (hrest c hc).1) hf.exponent fun hnone c hc he => ?_
    have := (hrest c hc).2.2 he
    simp [hnone] at this
  have hdigits : Stops Char.isDigit (exponentText exponent ++ rest) := by
    intro c hc
    rcases head_exponent hc with (rfl | rfl) | ⟨-, hc⟩
    · rfl
    · rfl
    · exact (hrest c hc).1
  have hfraction : scanFraction (fractionText fraction ++ (exponentText exponent ++ rest)) =
      (fraction, exponentText exponent ++ rest) := by
    refine scanFraction_text hdigits fun hnone c hc hpoint => ?_
    subst hpoint
    rcases head_exponent hc with (he | he) | ⟨hnone', hc⟩
    · cases he
    · cases he
    · have := (hrest '.' hc).2.1 rfl
      simp [hnone, hnone'] at this
  have hwhole : scanDigits (whole.1 ++ (fractionText fraction ++ (exponentText exponent ++ rest))) =
      (whole, fractionText fraction ++ (exponentText exponent ++ rest)) := by
    apply scanDigits_text
    cases fraction with
    | none => exact hdigits
    | some ds =>
      intro c hc
      obtain rfl : '.' = c := Option.some.inj hc
      rfl
  have hmantissa : ¬ (whole.1 = [] ∧ fraction.all (·.1 = []) = true) := fun hnil =>
    hf.mantissa (mantissa_eq_nil.mpr hnil)
  have hsign : scanSign (signText sign ++
      (whole.1 ++ (fractionText fraction ++ (exponentText exponent ++ rest)))) =
      (sign, whole.1 ++ (fractionText fraction ++ (exponentText exponent ++ rest))) := by
    apply scanSign_text
    intro c hc
    by_cases hnil : whole.1 = []
    · cases fraction with
      | none => exact absurd ⟨hnil, rfl⟩ hmantissa
      | some ds =>
        rw [hnil] at hc
        obtain rfl : '.' = c := Option.some.inj hc
        rfl
    · obtain ⟨hplus, hminus, -⟩ := digit_plain (head_digits hnil hc)
      simp [hplus, hminus]
  have htext : (Field.mk sign whole fraction exponent).text ++ rest = signText sign ++
      (whole.1 ++ (fractionText fraction ++ (exponentText exponent ++ rest))) := by
    simp [Field.text]
  rw [htext, scan_of_mantissa hsign hwhole hfraction hmantissa, hexponent]

end Scan

/-! ### Numbers without blanks -/

theorem digit_solid {c : Char} (h : c.isDigit = true) : isSpace c = false := by
  by_contra hspace
  simp only [isSpace, List.mem_cons, List.not_mem_nil, or_false, decide_eq_true_eq,
    Bool.not_eq_false] at hspace
  rcases hspace with rfl | rfl | rfl | rfl | rfl | rfl <;> cases h

theorem signText_solid (sign : Option Sign) : ∀ c ∈ signText sign, isSpace c = false := by
  intro c hc
  cases sign with
  | none => cases hc
  | some sign =>
    obtain rfl : c = sign.char := List.mem_singleton.mp hc
    cases sign <;> rfl

theorem fractionText_solid (fraction : Option Digits) :
    ∀ c ∈ fractionText fraction, isSpace c = false := by
  intro c hc
  cases fraction with
  | none => cases hc
  | some ds =>
    rcases List.mem_cons.mp hc with rfl | hc
    · rfl
    · exact digit_solid (ds.2 c hc)

theorem exponentText_solid (exponent : Option Exponent) :
    ∀ c ∈ exponentText exponent, isSpace c = false := by
  intro c hc
  cases exponent with
  | none => cases hc
  | some e =>
    rcases List.mem_cons.mp hc with rfl | hc
    · cases e.upper <;> rfl
    · rcases List.mem_append.mp hc with hc | hc
      · exact signText_solid e.sign c hc
      · exact digit_solid (e.digits.2 c hc)

theorem text_solid (f : Field) : ∀ c ∈ f.text, isSpace c = false := by
  intro c hc
  simp only [Field.text, List.mem_append] at hc
  rcases hc with hc | hc | hc | hc
  · exact signText_solid f.sign c hc
  · exact digit_solid (f.whole.2 c hc)
  · exact fractionText_solid f.fraction c hc
  · exact exponentText_solid f.exponent c hc

theorem text_ne_nil {f : Field} (hf : f.IsNumeral) : f.text ≠ [] := by
  intro hnil
  simp only [Field.text, List.append_eq_nil_iff] at hnil
  obtain ⟨-, hwhole, hfraction, -⟩ := hnil
  apply hf.mantissa
  rw [mantissa_eq_nil]
  refine ⟨hwhole, ?_⟩
  cases hdigits : f.fraction with
  | none => rfl
  | some ds =>
    rw [hdigits] at hfraction
    cases hfraction

/-! ### Numbers at the front of a text -/

/-- The text starts with an integer that an `int` holds. -/
def StartsInt (cs : List Char) : Prop :=
  ∃ (sign : Option Sign) (digits : Digits) (rest : List Char),
    cs = signText sign ++ (digits.1 ++ rest) ∧ digits.1 ≠ [] ∧ Stops Char.isDigit rest ∧
      -2 ^ 31 ≤ signed sign digits.value ∧ signed sign digits.value ≤ 2 ^ 31 - 1

/-- The text starts with a decimal in range. -/
def StartsDecimal (inRange : Rat → Bool) (cs : List Char) : Prop :=
  ∃ (numeral : Field) (rest : List Char), cs = numeral.text ++ rest ∧ numeral.IsNumeral ∧
    numeral.Ends rest ∧ inRange numeral.value = true

end Numerals
