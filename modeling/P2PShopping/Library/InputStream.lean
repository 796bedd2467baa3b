import P2PShopping.Library.Numerals

/-! `std::istream`, in the "C" locale.

A stream is what is left of its text and two flags. An extraction first builds a
sentry: on a stream that is not good it only sets `failbit`, and the variable it
would have written keeps what it holds. What an extraction does to the flags decides
what the next one does, so every function returns the stream it leaves; `none` in the
place of a value is a variable that was not written. -/
namespace InputStream
open Numerals

structure Stream where
  rest : List Char
  eofbit : Bool := false
  failbit : Bool := false

namespace Stream

def good (s : Stream) : Bool := !s.eofbit && !s.failbit

/-- The sentry of the formatted extractions, which skips blanks. -/
def sentry (s : Stream) : Stream × Bool :=
  if s.good then
    match s.rest.dropWhile isSpace with
    | [] => ({rest := [], eofbit := true, failbit := true}, false)
    | rest => ({s with rest}, true)
  else ({s with failbit := true}, false)

/-- The sentry of the unformatted ones. -/
def sentryRaw (s : Stream) : Stream × Bool :=
  if s.good then (s, true) else ({s with failbit := true}, false)

/-- `>>` on a `std::string`. -/
def word (s : Stream) : Stream × Option (List Char) :=
  match s.sentry with
  | (s, false) => (s, none)
  | (s, true) =>
    let rest := s.rest.dropWhile (!isSpace ·)
    ({s with rest, eofbit := rest.isEmpty}, some (s.rest.takeWhile (!isSpace ·)))

/-- `get()`; `none` is the end of the file. -/
def get (s : Stream) : Stream × Option Char :=
  match s.sentryRaw with
  | (s, false) => (s, none)
  | (s, true) =>
    match s.rest with
    | [] => ({s with eofbit := true, failbit := true}, none)
    | c :: rest => ({s with rest}, some c)

def peek (s : Stream) : Stream × Option Char :=
  match s.sentryRaw with
  | (s, false) => (s, none)
  | (s, true) =>
    match s.rest with
    | [] => ({s with eofbit := true}, none)
    | c :: _ => (s, some c)

/-- `std::getline`: the delimiter is taken off and not stored. -/
def getline (s : Stream) (delimiter : Char) : Stream × Option (List Char) :=
  match s.sentryRaw with
  | (s, false) => (s, none)
  | (s, true) =>
    let line := s.rest.takeWhile (· ≠ delimiter)
    match s.rest.dropWhile (· ≠ delimiter) with
    | [] => ({rest := [], eofbit := true, failbit := line.isEmpty}, some line)
    | _ :: rest => ({s with rest}, some line)

/-- `ignore` without a limit. -/
def ignore (s : Stream) (delimiter : Char) : Stream :=
  match s.sentryRaw with
  | (s, false) => s
  | (s, true) =>
    match s.rest.dropWhile (· ≠ delimiter) with
    | [] => {s with rest := [], eofbit := true}
    | _ :: rest => {s with rest}

/-- `>>` on an `int`: a number out of range is stored as the nearest one, what is no
number as 0, and both are failures. -/
def int (s : Stream) : Stream × Option Int :=
  match s.sentry with
  | (s, false) => (s, none)
  | (s, true) =>
    let (sign, cs) := scanSign s.rest
    let (digits, rest) := scanDigits cs
    let s := {s with rest, eofbit := rest.isEmpty}
    let n := signed sign digits.value
    if digits.1 = [] then ({s with failbit := true}, some 0)
    else if n < -2 ^ 31 then ({s with failbit := true}, some (-2 ^ 31))
    else if 2 ^ 31 - 1 < n then ({s with failbit := true}, some (2 ^ 31 - 1))
    else (s, some n)

/-- What `>>` on a `double` does with its variable. -/
inductive Extracted where
  | untouched
  /-- The field is no numeral, and 0 is stored. -/
  | failed
  /-- The nearest finite number is stored. -/
  | outOfRange (numeral : Field)
  | read (numeral : Field)

/-- `>>` on a `double`; `inRange` are the decimals that do not overflow. -/
def double (s : Stream) (inRange : Rat → Bool) : Stream × Extracted :=
  match s.sentry with
  | (s, false) => (s, .untouched)
  | (s, true) =>
    let (field, rest) := scan s.rest
    let s := {s with rest, eofbit := rest.isEmpty}
    if field.IsNumeral then
      if inRange field.value then (s, .read field)
      else ({s with failbit := true}, .outOfRange field)
    else ({s with failbit := true}, .failed)

/-! ### Good streams

A stream that is good after an extraction was good before it, and the extraction has
found what it looks for. The lemmas come in pairs: what such an extraction has found,
and that it finds it. -/

theorem good_iff {s : Stream} : s.good = true ↔ s = {rest := s.rest} := by
  obtain ⟨rest, eofbit, failbit⟩ := s
  cases eofbit <;> cases failbit <;> simp [good]

@[simp] theorem good_mk (rest : List Char) : good {rest} = true := rfl

/-- Blanks, and nothing else. -/
def Blank (cs : List Char) : Prop := ∀ c ∈ cs, isSpace c = true

theorem blank_nil : Blank [] := fun _ hc => by cases hc

/-- What `>>` reads into a string. -/
structure IsWord (w : List Char) : Prop where
  nonempty : w ≠ []
  solid : ∀ c ∈ w, isSpace c = false

instance (w : List Char) : Decidable (IsWord w) :=
  decidable_of_iff (w ≠ [] ∧ w.all (!isSpace ·) = true)
    ⟨fun h => ⟨h.1, by simpa using h.2⟩, fun h => ⟨h.1, by simpa using h.2⟩⟩

theorem IsWord.stops {w : List Char} (h : IsWord w) (rest : List Char) :
    Stops isSpace (w ++ rest) := by
  obtain ⟨c, cs, rfl⟩ := List.exists_cons_of_ne_nil h.nonempty
  intro a ha
  obtain rfl : c = a := Option.some.inj ha
  exact h.solid c (List.mem_cons_self ..)

/-- The sentry on a good stream with something after the blanks. -/
theorem sentry_blank {blanks rest : List Char} (hblanks : Blank blanks) (hne : rest ≠ [])
    (hstops : Stops isSpace rest) : sentry {rest := blanks ++ rest} = ({rest}, true) := by
  have hdrop := dropWhile_run hblanks hstops
  obtain ⟨c, cs, rfl⟩ := List.exists_cons_of_ne_nil hne
  simp only [sentry, good_mk, if_true, hdrop]

theorem sentry_true {s t : Stream} (h : s.sentry = (t, true)) :
    ∃ blanks rest, s = {rest := blanks ++ rest} ∧ t = {rest} ∧ Blank blanks ∧ rest ≠ [] ∧
      Stops isSpace rest := by
  unfold sentry at h
  split at h
  case isFalse => cases h
  case isTrue hgood =>
    have hsplit := List.takeWhile_append_dropWhile (p := isSpace) (l := s.rest)
    have hstops := stops_dropWhile (p := isSpace) s.rest
    split at h
    case h_1 => cases h
    case h_2 rest hne =>
      refine ⟨s.rest.takeWhile isSpace, s.rest.dropWhile isSpace, ?_, ?_, ?_, hne, hstops⟩
      · rw [hsplit]
        exact good_iff.mp hgood
      · rw [good_iff.mp hgood] at h
        exact (congrArg Prod.fst h).symm
      · exact fun c hc => List.mem_takeWhile_imp hc

theorem sentry_false {s t : Stream} (h : s.sentry = (t, false)) : t.good = false := by
  unfold sentry at h
  split at h
  case isTrue =>
    split at h
    · cases h
      rfl
    · cases h
  case isFalse =>
    cases h
    simp [good]

/-! #### Words -/

theorem word_run {blanks w rest : List Char} (hblanks : Blank blanks) (hw : IsWord w)
    (hrest : Stops (!isSpace ·) rest) :
    word {rest := blanks ++ (w ++ rest)} = ({rest, eofbit := rest.isEmpty}, some w) := by
  have hsolid : ∀ c ∈ w, (!isSpace c) = true := fun c hc => by simp [hw.solid c hc]
  have hne : w ++ rest ≠ [] := by simp [hw.nonempty]
  simp only [word, sentry_blank hblanks hne (hw.stops rest), takeWhile_run hsolid hrest,
    dropWhile_run hsolid hrest]

theorem word_good {s : Stream} (h : s.word.1.good = true) :
    ∃ blanks w rest, s = {rest := blanks ++ (w ++ rest)} ∧ Blank blanks ∧ IsWord w ∧
      Stops (!isSpace ·) rest ∧ rest ≠ [] ∧ s.word = ({rest}, some w) := by
  cases hsentry : s.sentry with | mk t ok =>
  cases ok with
  | false => simp [word, hsentry, sentry_false hsentry] at h
  | true =>
    obtain ⟨blanks, text, rfl, rfl, hblanks, hne, hstops⟩ := sentry_true hsentry
    have hsplit := List.takeWhile_append_dropWhile (p := (!isSpace ·)) (l := text)
    have hmore : text.dropWhile (!isSpace ·) ≠ [] := by
      intro hnil
      simp [word, hsentry, good, hnil] at h
    refine ⟨blanks, text.takeWhile (!isSpace ·), text.dropWhile (!isSpace ·), by rw [hsplit],
      hblanks, ⟨?_, ?_⟩, stops_dropWhile _, hmore, ?_⟩
    · obtain ⟨c, cs, rfl⟩ := List.exists_cons_of_ne_nil hne
      simp [hstops c rfl]
    · intro c hc
      simpa using List.mem_takeWhile_imp hc
    · have hempty : (text.dropWhile (!isSpace ·)).isEmpty = false := by simpa using hmore
      simp only [word, hsentry, hempty]

/-! #### Characters and lines -/

@[simp] theorem get_cons (c : Char) (rest : List Char) :
    get {rest := c :: rest} = ({rest}, some c) := rfl

@[simp] theorem peek_cons (c : Char) (rest : List Char) :
    peek {rest := c :: rest} = ({rest := c :: rest}, some c) := rfl

theorem get_good {s : Stream} (h : s.get.1.good = true) :
    ∃ c rest, s = {rest := c :: rest} := by
  by_cases hgood : s.good = true
  · rw [good_iff.mp hgood] at h ⊢
    cases hrest : s.rest with
    | nil => simp [get, sentryRaw, hrest, good] at h
    | cons c rest => exact ⟨c, rest, rfl⟩
  · simp [get, sentryRaw, hgood] at h
    simp [good] at h

theorem peek_good {s : Stream} (h : s.peek.1.good = true) :
    ∃ c rest, s = {rest := c :: rest} := by
  by_cases hgood : s.good = true
  · rw [good_iff.mp hgood] at h ⊢
    cases hrest : s.rest with
    | nil => simp [peek, sentryRaw, hrest, good] at h
    | cons c rest => exact ⟨c, rest, rfl⟩
  · simp [peek, sentryRaw, hgood] at h
    simp [good] at h

theorem run_of_notMem {line : List Char} {delimiter : Char} (h : delimiter ∉ line) :
    ∀ c ∈ line, decide (c ≠ delimiter) = true := by
  intro c hc
  simpa using fun hsame : c = delimiter => h (hsame ▸ hc)

theorem getline_run {line rest : List Char} {delimiter : Char} (hline : delimiter ∉ line) :
    getline {rest := line ++ delimiter :: rest} delimiter = ({rest}, some line) := by
  have hrun := run_of_notMem hline
  have hstops : Stops (fun c => decide (c ≠ delimiter)) (delimiter :: rest) := by
    intro c hc
    obtain rfl : delimiter = c := Option.some.inj hc
    simp
  simp only [getline, sentryRaw, good_mk, if_true, takeWhile_run hrun hstops,
    dropWhile_run hrun hstops]

theorem getline_good {s : Stream} {delimiter : Char} (h : (s.getline delimiter).1.good = true) :
    ∃ line rest, s = {rest := line ++ delimiter :: rest} ∧ delimiter ∉ line := by
  by_cases hgood : s.good = true
  · rw [good_iff.mp hgood] at h ⊢
    have hsplit := List.takeWhile_append_dropWhile (p := (· ≠ delimiter)) (l := s.rest)
    have hstops := stops_dropWhile (p := fun c => decide (c ≠ delimiter)) s.rest
    cases hdrop : s.rest.dropWhile (· ≠ delimiter) with
    | nil =>
      simp only [getline, sentryRaw, good_mk, if_true, hdrop] at h
      cases h
    | cons c rest =>
      rw [hdrop] at hsplit hstops
      obtain rfl : c = delimiter := by simpa using hstops c rfl
      refine ⟨s.rest.takeWhile (· ≠ c), rest, by rw [hsplit], fun hmem => ?_⟩
      simpa using List.mem_takeWhile_imp hmem
  · simp [getline, sentryRaw, hgood] at h
    simp [good] at h

/-! #### Numbers -/

section Double
variable {inRange : Rat → Bool} {numeral : Field}

theorem isWord_decimal (h : numeral.IsNumeral) : IsWord numeral.text :=
  ⟨text_ne_nil h, text_solid numeral⟩

/-- A numeral is taken off the text whether or not it is in range. -/
theorem double_run {blanks rest : List Char} (hblanks : Blank blanks)
    (hnumeral : numeral.IsNumeral) (hrest : numeral.Ends rest) :
    double {rest := blanks ++ (numeral.text ++ rest)} inRange =
      if inRange numeral.value then ({rest, eofbit := rest.isEmpty}, .read numeral)
      else ({rest, eofbit := rest.isEmpty, failbit := true}, .outOfRange numeral) := by
  have hword := isWord_decimal hnumeral
  have hne : numeral.text ++ rest ≠ [] := by simp [hword.nonempty]
  simp only [double, sentry_blank hblanks hne (hword.stops rest), scan_text hnumeral hrest,
    if_pos hnumeral]

theorem double_read {s : Stream} (h : (s.double inRange).2 = .read numeral) :
    inRange numeral.value = true ∧ ∃ blanks rest, s = {rest := blanks ++ (numeral.text ++ rest)} ∧
      Blank blanks ∧ numeral.IsNumeral ∧ numeral.Ends rest := by
  cases hsentry : s.sentry with | mk t ok =>
  cases ok with
  | false => simp [double, hsentry] at h
  | true =>
    obtain ⟨blanks, text, rfl, rfl, hblanks, -, -⟩ := sentry_true hsentry
    simp only [double, hsentry] at h
    split at h
    case isFalse => cases h
    case isTrue hnumeral =>
      split at h
      case isFalse => cases h
      case isTrue hrange =>
        cases h
        exact ⟨hrange, blanks, (scan text).2, by rw [scan_append], hblanks, hnumeral,
          scan_ends hnumeral⟩

end Double

end Stream

end InputStream
