import P2PShopping.Library.InputStream

/-! A stream read by lines, and numbers read from their lines.

`>>` passes over blanks, line ends among them, and what follows the number in its line
is taken off by `ignore`, so a number that is there uses up one line, blank lines before
it not counted (`answerLine`). One that is not there leaves the stream failed, and
nothing more is read from it. -/
namespace InputStream
open Numerals

/-- The first line, without its end, and what follows. -/
def firstLine (cs : List Char) : List Char × List Char :=
  (cs.takeWhile (· ≠ '\n'), (cs.dropWhile (· ≠ '\n')).drop 1)

/-- The first line that is not blank. -/
def answerLine (cs : List Char) : List Char × List Char := firstLine (cs.dropWhile isSpace)

theorem firstLine_length (cs : List Char) : (firstLine cs).2.length ≤ cs.length := by
  have := (List.dropWhile_suffix (p := fun c => decide (c ≠ '\n')) (l := cs)).length_le
  simp only [firstLine, List.length_drop]
  omega

theorem firstLine_length_lt {cs : List Char} (h : cs ≠ []) :
    (firstLine cs).2.length < cs.length := by
  have hdrop := (List.dropWhile_suffix (p := fun c => decide (c ≠ '\n')) (l := cs)).length_le
  have hpos : 0 < cs.length := List.length_pos_iff.mpr h
  simp only [firstLine, List.length_drop]
  omega

theorem answerLine_length (cs : List Char) : (answerLine cs).2.length ≤ cs.length :=
  (firstLine_length _).trans (List.dropWhile_suffix (p := isSpace) (l := cs)).length_le

/-- What is in front of a line end stands in the line. -/
theorem firstLine_append {word : List Char} (hword : '\n' ∉ word) (rest : List Char) :
    firstLine (word ++ rest) = (word ++ (firstLine rest).1, (firstLine rest).2) := by
  have hrun := Stream.run_of_notMem hword
  simp only [firstLine, List.takeWhile_append_of_pos hrun, List.dropWhile_append_of_pos hrun]

/-- A line is followed by nothing, or by its end. -/
theorem firstLine_split (cs : List Char) :
    ∃ tail, cs = (firstLine cs).1 ++ tail ∧ (tail = [] ∨ ∃ rest, tail = '\n' :: rest) := by
  refine ⟨cs.dropWhile (· ≠ '\n'), List.takeWhile_append_dropWhile.symm, ?_⟩
  have hstops := stops_dropWhile (p := fun c => decide (c ≠ '\n')) cs
  cases hdrop : cs.dropWhile (· ≠ '\n') with
  | nil => exact .inl rfl
  | cons c rest =>
    rw [hdrop] at hstops
    obtain rfl : c = '\n' := by simpa using hstops c rfl
    exact .inr ⟨rest, rfl⟩

namespace Stream

theorem IsWord.no_newline {w : List Char} (h : IsWord w) : '\n' ∉ w := by
  intro hmem
  have := h.solid '\n' hmem
  simp [isSpace] at this

/-- A word stands in the line it begins. -/
theorem answerLine_word {blanks w rest : List Char} (hblanks : Blank blanks) (hw : IsWord w) :
    answerLine (blanks ++ (w ++ rest)) = (w ++ (firstLine rest).1, (firstLine rest).2) := by
  rw [answerLine, dropWhile_run hblanks (hw.stops rest), firstLine_append hw.no_newline]

/-! ### Streams that have come to an end -/

section Dead
variable {s : Stream}

theorem sentry_dead (h : s.good = false) : s.sentry = ({s with failbit := true}, false) := by
  simp [sentry, h]

theorem sentryRaw_dead (h : s.good = false) :
    s.sentryRaw = ({s with failbit := true}, false) := by
  simp [sentryRaw, h]

theorem getline_dead (h : s.good = false) (delimiter : Char) :
    (s.getline delimiter).1 = {s with failbit := true} := by
  simp only [Stream.getline, sentryRaw_dead h]

theorem ignore_dead (h : s.good = false) (delimiter : Char) :
    s.ignore delimiter = {s with failbit := true} := by
  simp only [Stream.ignore, sentryRaw_dead h]

theorem int_dead (h : s.good = false) : s.int.1 = {s with failbit := true} := by
  simp only [int, sentry_dead h]

theorem double_dead (h : s.good = false) (inRange : Rat → Bool) :
    (s.double inRange).1 = {s with failbit := true} := by
  simp only [double, sentry_dead h]

theorem good_failed (s : Stream) : good {s with failbit := true} = false := by
  simp [good]

end Dead

/-! ### Streams at a text -/

/-- The stream is good and `rest` is what is left of it, or it has come to its end. -/
def At (s : Stream) (rest : List Char) : Prop :=
  s = {rest} ∨ (s.good = false ∧ rest = [])

theorem at_start (rest : List Char) : At {rest} rest := .inl rfl

/-- After an extraction that stops at the end of the text or before it. -/
theorem at_rest (rest : List Char) : At {rest, eofbit := rest.isEmpty} rest := by
  cases rest with
  | nil => exact .inr ⟨rfl, rfl⟩
  | cons c rest => exact .inl rfl

theorem At.getline {s : Stream} {rest : List Char} (h : At s rest) :
    At (s.getline '\n').1 (firstLine rest).2 := by
  rcases h with rfl | ⟨hdead, rfl⟩
  · simp only [Stream.getline, sentryRaw, good_mk, if_true, firstLine]
    cases rest.dropWhile (· ≠ '\n') with
    | nil => exact .inr ⟨by simp [good], rfl⟩
    | cons c tail => exact .inl rfl
  · rw [getline_dead hdead]
    exact .inr ⟨good_failed s, rfl⟩

/-- A line is read from a text that is not at its end. -/
theorem getline_line {rest : List Char} (h : rest ≠ []) :
    (Stream.getline {rest} '\n').1.failbit = false ∧
      (Stream.getline {rest} '\n').2 = some (firstLine rest).1 := by
  simp only [Stream.getline, sentryRaw, good_mk, if_true, firstLine]
  cases hdrop : rest.dropWhile (· ≠ '\n') with
  | nil =>
    refine ⟨?_, rfl⟩
    have hsplit := List.takeWhile_append_dropWhile (p := (· ≠ '\n')) (l := rest)
    rw [hdrop, List.append_nil] at hsplit
    change (rest.takeWhile (· ≠ '\n')).isEmpty = false
    rw [hsplit]
    simpa using h
  | cons c tail => exact ⟨rfl, rfl⟩

theorem At.ignore {s : Stream} {rest : List Char} (h : At s rest) :
    At (s.ignore '\n') (firstLine rest).2 := by
  rcases h with rfl | ⟨hdead, rfl⟩
  · simp only [Stream.ignore, sentryRaw, good_mk, if_true, firstLine]
    cases rest.dropWhile (· ≠ '\n') with
    | nil => exact .inr ⟨by simp [good], rfl⟩
    | cons c tail => exact .inl rfl
  · rw [ignore_dead hdead]
    exact .inr ⟨good_failed s, rfl⟩

/-! ### Numbers -/

section Int
variable {sign : Option Sign} {digits : Digits}

theorem isWord_int (hdigits : digits.1 ≠ []) : IsWord (signText sign ++ digits.1) := by
  refine ⟨by simp [hdigits], fun c hc => ?_⟩
  rcases List.mem_append.mp hc with hc | hc
  · exact signText_solid sign c hc
  · exact digit_solid (digits.2 c hc)

theorem int_run {blanks rest : List Char} (hblanks : Blank blanks) (hdigits : digits.1 ≠ [])
    (hrest : Stops Char.isDigit rest) (hlow : -2 ^ 31 ≤ signed sign digits.value)
    (hhigh : signed sign digits.value ≤ 2 ^ 31 - 1) :
    int {rest := blanks ++ ((signText sign ++ digits.1) ++ rest)} =
      ({rest, eofbit := rest.isEmpty}, some (signed sign digits.value)) := by
  have hword : IsWord (signText sign ++ digits.1) := isWord_int hdigits
  have hne : (signText sign ++ digits.1) ++ rest ≠ [] := by simp [hdigits]
  have hsign : scanSign ((signText sign ++ digits.1) ++ rest) = (sign, digits.1 ++ rest) := by
    rw [List.append_assoc]
    apply scanSign_text
    intro c hc
    obtain ⟨hplus, hminus, -⟩ := digit_plain (head_digits hdigits hc)
    simp [hplus, hminus]
  simp only [int, sentry_blank hblanks hne (hword.stops rest), hsign, scanDigits_text hrest,
    if_neg hdigits, if_neg (Int.not_lt.mpr hlow), if_neg (Int.not_lt.mpr hhigh)]

theorem int_good {s : Stream} (h : s.int.1.good = true) :
    ∃ blanks rest, ∃ (sign : Option Sign) (digits : Digits),
      s = {rest := blanks ++ ((signText sign ++ digits.1) ++ rest)} ∧ Blank blanks ∧
        digits.1 ≠ [] ∧ Stops Char.isDigit rest ∧ -2 ^ 31 ≤ signed sign digits.value ∧
        signed sign digits.value ≤ 2 ^ 31 - 1 := by
  cases hsentry : s.sentry with | mk t ok =>
  cases ok with
  | false => simp [int, hsentry, sentry_false hsentry] at h
  | true =>
    obtain ⟨blanks, text, rfl, rfl, hblanks, -, -⟩ := sentry_true hsentry
    have hsign := scanSign_append text
    have hdigits := scanDigits_append (scanSign text).2
    have hstops := scanDigits_stops (scanSign text).2
    simp only [int, hsentry] at h
    split at h
    case isTrue => simp [good] at h
    case isFalse hne =>
      split at h
      case isTrue => simp [good] at h
      case isFalse hlow =>
        split at h
        case isTrue => simp [good] at h
        case isFalse hhigh =>
          refine ⟨blanks, (scanDigits (scanSign text).2).2, (scanSign text).1,
            (scanDigits (scanSign text).2).1, ?_, hblanks, hne, hstops, Int.not_lt.mp hlow,
            Int.not_lt.mp hhigh⟩
          rw [List.append_assoc, hdigits, hsign]

end Int

theorem double_good {s : Stream} {inRange : Rat → Bool} (h : (s.double inRange).1.good = true) :
    ∃ numeral, (s.double inRange).2 = .read numeral := by
  unfold double at h ⊢
  split at h
  case h_1 t hsentry => simp [sentry_false hsentry] at h
  case h_2 t hsentry =>
    simp only at h ⊢
    split at h
    case isFalse => simp [good] at h
    case isTrue hnumeral =>
      split at h
      case isFalse => simp [good] at h
      case isTrue hrange =>
        rw [if_pos hnumeral, if_pos hrange]
        exact ⟨_, rfl⟩

/-! ### The line of a number -/

/-- What starts the line starts the text. -/
theorem head_firstLine {rest : List Char} {c : Char} (hc : c ∈ (firstLine rest).1.head?) :
    c ∈ rest.head? := by
  cases rest with
  | nil => cases hc
  | cons d rest =>
    simp only [firstLine, List.takeWhile_cons] at hc
    split at hc
    · exact hc
    · cases hc

/-- What starts the text starts the line, or is a line end. -/
theorem head_line {junk tail : List Char} {c : Char}
    (htail : tail = [] ∨ ∃ rest, tail = '\n' :: rest) (hc : c ∈ (junk ++ tail).head?) :
    c ∈ junk.head? ∨ c = '\n' := by
  cases junk with
  | cons d junk => exact .inl hc
  | nil =>
    rcases htail with rfl | ⟨rest, rfl⟩
    · cases hc
    · exact .inr (Option.some.inj hc).symm

theorem answerLine_split (rest : List Char) :
    ∃ blanks tail, rest = blanks ++ ((answerLine rest).1 ++ tail) ∧ Blank blanks ∧
      (tail = [] ∨ ∃ rest, tail = '\n' :: rest) := by
  obtain ⟨tail, hline, htail⟩ := firstLine_split (rest.dropWhile isSpace)
  refine ⟨rest.takeWhile isSpace, tail, ?_, fun c hc => List.mem_takeWhile_imp hc, htail⟩
  rw [answerLine, ← hline, List.takeWhile_append_dropWhile]

section Answer
variable {s : Stream} {rest : List Char} (h : At s rest)
include h

/-- **An integer that is there uses up its line**, -/
theorem At.int_line (hint : StartsInt (answerLine rest).1) :
    At (s.int.1.ignore '\n') (answerLine rest).2 := by
  obtain ⟨blanks, tail, hsplit, hblanks, htail⟩ := answerLine_split rest
  obtain ⟨sign, digits, junk, hline, hdigits, hjunk, hlow, hhigh⟩ := hint
  have hrest : rest = blanks ++ ((signText sign ++ digits.1) ++ (junk ++ tail)) := by
    rw [hline] at hsplit
    simpa using hsplit
  have hstops : Stops Char.isDigit (junk ++ tail) := by
    intro c hc
    rcases head_line htail hc with hc | rfl
    · exact hjunk c hc
    · rfl
  rcases h with rfl | ⟨-, hnil⟩
  · rw [hrest, int_run hblanks hdigits hstops hlow hhigh,
      answerLine_word hblanks (isWord_int hdigits)]
    exact (at_rest _).ignore
  · simp [hrest, hdigits] at hnil

/-- and one that is not there ends the stream. -/
theorem At.int_dead (hint : ¬ StartsInt (answerLine rest).1) : s.int.1.good = false := by
  rcases h with rfl | ⟨hdead, -⟩
  · by_contra hgood
    obtain ⟨blanks, tail, sign, digits, hsplit, hblanks, hdigits, hstops, hlow, hhigh⟩ :=
      int_good (by simpa using hgood)
    obtain rfl : rest = _ := congrArg Stream.rest hsplit
    apply hint
    rw [answerLine_word hblanks (isWord_int hdigits)]
    exact ⟨sign, digits, (firstLine tail).1, by simp, hdigits,
      fun c hc => hstops c (head_firstLine hc), hlow, hhigh⟩
  · rw [Stream.int_dead hdead, good_failed]

variable {inRange : Rat → Bool}

/-- A decimal in range uses up its line, -/
theorem At.double_line (hdecimal : StartsDecimal inRange (answerLine rest).1) :
    At ((s.double inRange).1.ignore '\n') (answerLine rest).2 := by
  obtain ⟨blanks, tail, hsplit, hblanks, htail⟩ := answerLine_split rest
  obtain ⟨numeral, junk, hline, hnumeral, hends, hrange⟩ := hdecimal
  have hrest : rest = blanks ++ (numeral.text ++ (junk ++ tail)) := by
    rw [hline] at hsplit
    simpa using hsplit
  have hends : numeral.Ends (junk ++ tail) := by
    intro c hc
    rcases head_line htail hc with hc | rfl
    · exact hends c hc
    · exact ⟨rfl, by simp, by simp⟩
  rcases h with rfl | ⟨-, hnil⟩
  · rw [hrest, double_run hblanks hnumeral hends, if_pos hrange,
      answerLine_word hblanks (isWord_decimal hnumeral)]
    exact (at_rest _).ignore
  · have hne := (isWord_decimal hnumeral).nonempty
    simp [hrest, hne] at hnil

/-- and any other text ends the stream. -/
theorem At.double_dead (hdecimal : ¬ StartsDecimal inRange (answerLine rest).1) :
    (s.double inRange).1.good = false := by
  rcases h with rfl | ⟨hdead, -⟩
  · by_contra hgood
    obtain ⟨numeral, hread⟩ := double_good (by simpa using hgood)
    obtain ⟨hrange, blanks, tail, hsplit, hblanks, hnumeral, hends⟩ := double_read hread
    obtain rfl : rest = _ := congrArg Stream.rest hsplit
    apply hdecimal
    rw [answerLine_word hblanks (isWord_decimal hnumeral)]
    exact ⟨numeral, (firstLine tail).1, rfl, hnumeral, fun c hc => hends c (head_firstLine hc),
      hrange⟩
  · rw [Stream.double_dead hdead, good_failed]

end Answer

end Stream

end InputStream
