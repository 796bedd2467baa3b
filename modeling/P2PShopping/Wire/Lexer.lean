import P2PShopping.Wire.Dump
import Mathlib.Algebra.Group.Nat.Defs

/-! The lexer of `json::parse`.

It works on bytes and knows nothing of the parser, so a text is a list of tokens. The
bytes of a string are taken over one code point at a time, in the ranges that
`scan_string` allows, and decoded at once; `code_bytes` says that nothing is lost by
that. What `strtod` makes of a numeral is left open, as the dump leaves its digits
open. -/
namespace P2PShopping.Json

/-- Signed and unsigned integers are one token, as they are one kind of value. A float
is `none` when it is not finite. -/
inductive Token (P : Type) where
  | beginArray
  | endArray
  | beginObject
  | endObject
  | nameSeparator
  | valueSeparator
  | literalTrue
  | literalFalse
  | literalNull
  | valueString (s : String)
  | valueInteger (n : Int)
  | valueFloat (x : Option P)
  | parseError
  | endOfInput

variable {P : Type}

/-- Nothing is scanned after it. -/
def Token.last : Token P → Bool
  | .parseError | .endOfInput => true
  | _ => false

/-! ### Strings -/

def hexValue (b : UInt8) : Option Nat :=
  if 0x30 ≤ b ∧ b ≤ 0x39 then some (b.toNat - 0x30)
  else if 0x41 ≤ b ∧ b ≤ 0x46 then some (b.toNat - 0x37)
  else if 0x61 ≤ b ∧ b ≤ 0x66 then some (b.toNat - 0x57)
  else none

/-- `get_codepoint`: the four hex digits after `\u`. -/
def getCodepoint : List UInt8 → Option (Nat × List UInt8)
  | b₁ :: b₂ :: b₃ :: b₄ :: rest => do
    let d₁ ← hexValue b₁
    let d₂ ← hexValue b₂
    let d₃ ← hexValue b₃
    let d₄ ← hexValue b₄
    some (d₁ * 4096 + d₂ * 256 + d₃ * 16 + d₄, rest)
  | _ => none

/-- What `\u` stands for: a code point, or a high and a low surrogate. -/
def scanUnicode (bytes : List UInt8) : Option (Char × List UInt8) := do
  let (codepoint₁, bytes) ← getCodepoint bytes
  if 0xd800 ≤ codepoint₁ ∧ codepoint₁ ≤ 0xdbff then
    match bytes with
    | 0x5c :: 0x75 :: bytes => do
      let (codepoint₂, bytes) ← getCodepoint bytes
      if 0xdc00 ≤ codepoint₂ ∧ codepoint₂ ≤ 0xdfff then
        some (Char.ofNat (codepoint₁ * 1024 + codepoint₂ - 0x35fdc00), bytes)
      else none
    | _ => none
  else if 0xdc00 ≤ codepoint₁ ∧ codepoint₁ ≤ 0xdfff then none
  else some (Char.ofNat codepoint₁, bytes)

/-- After a backslash. -/
def scanEscape : List UInt8 → Option (Char × List UInt8)
  | [] => none
  | b :: rest =>
    if b = 0x22 then some ('"', rest)
    else if b = 0x5c then some ('\\', rest)
    else if b = 0x2f then some ('/', rest)
    else if b = 0x62 then some ('\x08', rest)
    else if b = 0x66 then some ('\x0c', rest)
    else if b = 0x6e then some ('\n', rest)
    else if b = 0x72 then some ('\r', rest)
    else if b = 0x74 then some ('\t', rest)
    else if b = 0x75 then scanUnicode rest
    else none

/-- The ranges of the bytes that must follow a byte which is copied; the others are
ill-formed. -/
def following (b : UInt8) : Option (List (UInt8 × UInt8)) :=
  if b ≤ 0x7f then some []
  else if 0xc2 ≤ b ∧ b ≤ 0xdf then some [(0x80, 0xbf)]
  else if b = 0xe0 then some [(0xa0, 0xbf), (0x80, 0xbf)]
  else if 0xe1 ≤ b ∧ b ≤ 0xec ∨ b = 0xee ∨ b = 0xef then some [(0x80, 0xbf), (0x80, 0xbf)]
  else if b = 0xed then some [(0x80, 0x9f), (0x80, 0xbf)]
  else if b = 0xf0 then some [(0x90, 0xbf), (0x80, 0xbf), (0x80, 0xbf)]
  else if 0xf1 ≤ b ∧ b ≤ 0xf3 then some [(0x80, 0xbf), (0x80, 0xbf), (0x80, 0xbf)]
  else if b = 0xf4 then some [(0x80, 0x8f), (0x80, 0xbf), (0x80, 0xbf)]
  else none

/-- `next_byte_in_range`: these bytes and what comes after them. -/
def nextBytesInRange : List (UInt8 × UInt8) → List UInt8 → Option (List UInt8 × List UInt8)
  | [], rest => some ([], rest)
  | _ :: _, [] => none
  | (low, high) :: ranges, b :: rest =>
    if low ≤ b ∧ b ≤ high then
      (nextBytesInRange ranges rest).map fun r => (b :: r.1, r.2)
    else none

/-- The code point of a well-formed sequence. -/
def codeOf (lead : UInt8) (bytes : List UInt8) : Nat :=
  bytes.foldl (fun n b => n * 64 + (b.toNat - 0x80))
    (if lead < 0x80 then lead.toNat
    else if lead < 0xe0 then lead.toNat - 0xc0
    else if lead < 0xf0 then lead.toNat - 0xe0
    else lead.toNat - 0xf0)

/-- The next code point of a string; no code point is the closing quote. -/
def scanChar : List UInt8 → Option (Option Char × List UInt8)
  | [] => none
  | b :: rest =>
    if b = 0x22 then some (none, rest)
    else if b = 0x5c then (scanEscape rest).map fun r => (some r.1, r.2)
    else if b ≤ 0x1f then none
    else do
      let ranges ← following b
      let (bytes, rest) ← nextBytesInRange ranges rest
      some (some (Char.ofNat (codeOf b bytes)), rest)

/-- `scan_string`, after the opening quote. Every round reads a byte at least. -/
def scanChars : Nat → List UInt8 → Option (List Char × List UInt8)
  | 0, _ => none
  | fuel + 1, bytes =>
    match scanChar bytes with
    | none => none
    | some (none, rest) => some ([], rest)
    | some (some c, rest) => (scanChars fuel rest).map fun r => (c :: r.1, r.2)

def scanString (bytes : List UInt8) : Option (String × List UInt8) :=
  (scanChars bytes.length bytes).map fun r => (String.ofList r.1, r.2)

/-! ### Numbers

The labels of `scan_number`, where the cycle at a label is the run of its digits. Each
gives the bytes it adds to the buffer. -/

def isDigitByte (b : UInt8) : Bool := 0x30 ≤ b && b ≤ 0x39

/-- `scan_number_sign`: at least one digit, and then `scan_number_any2`. -/
def scanDigitBytes (bytes : List UInt8) : Option (List UInt8 × List UInt8) :=
  let digits := bytes.takeWhile isDigitByte
  if digits = [] then none else some (digits, bytes.dropWhile isDigitByte)

/-- `scan_number_exponent`, after the `e`. -/
def scanExponentBytes : List UInt8 → Option (List UInt8 × List UInt8)
  | [] => none
  | b :: rest =>
    if b = 0x2b ∨ b = 0x2d then (scanDigitBytes rest).map fun r => (b :: r.1, r.2)
    else scanDigitBytes (b :: rest)

/-- What may follow the digits before or after the point: an exponent. The flag says that
there is one. -/
def scanExponentPart : List UInt8 → Option (Bool × List UInt8 × List UInt8)
  | [] => some (false, [], [])
  | b :: rest =>
    if b = 0x65 ∨ b = 0x45 then (scanExponentBytes rest).map fun r => (true, b :: r.1, r.2)
    else some (false, [], b :: rest)

/-- `scan_number_zero` and what follows the cycle at `scan_number_any1`. -/
def scanFractionPart : List UInt8 → Option (Bool × List UInt8 × List UInt8)
  | [] => some (false, [], [])
  | b :: rest =>
    if b = 0x2e then do
      let (digits, rest) ← scanDigitBytes rest
      let (_, exponent, rest) ← scanExponentPart rest
      some (true, b :: digits ++ exponent, rest)
    else scanExponentPart (b :: rest)

/-- `scan_number` after the sign: whether the number is a float, its bytes and the rest. -/
def scanUnsigned : List UInt8 → Option (Bool × List UInt8 × List UInt8)
  | [] => none
  | b :: rest =>
    if b = 0x30 then (scanFractionPart rest).map fun r => (r.1, b :: r.2.1, r.2.2)
    else if 0x31 ≤ b ∧ b ≤ 0x39 then
      (scanFractionPart (rest.dropWhile isDigitByte)).map fun r =>
        (r.1, b :: rest.takeWhile isDigitByte ++ r.2.1, r.2.2)
    else none

def digitValue (digits : List UInt8) : Nat :=
  Nat.ofDigitChars 10 (digits.map fun b => Char.ofNat b.toNat) 0

variable (strtod : List UInt8 → Option P)

/-- `scan_number_done`: an integer that no 64 bits hold is converted to a float. -/
def numberToken (negative isFloat : Bool) (digits : List UInt8) : Token P :=
  let buffer := if negative then 0x2d :: digits else digits
  if isFloat then .valueFloat (strtod buffer)
  else if negative then
    if digitValue digits ≤ 2 ^ 63 then .valueInteger (-digitValue digits)
    else .valueFloat (strtod buffer)
  else if digitValue digits < 2 ^ 64 then .valueInteger (digitValue digits)
  else .valueFloat (strtod buffer)

def scanNumber (negative : Bool) (bytes : List UInt8) : Token P × List UInt8 :=
  match scanUnsigned bytes with
  | none => (.parseError, [])
  | some (isFloat, digits, rest) => (numberToken strtod negative isFloat digits, rest)

/-! ### Tokens -/

def isBlankByte (b : UInt8) : Bool := b = 0x20 || b = 0x09 || b = 0x0a || b = 0x0d

/-- `scan_literal`, after the first letter. -/
def scanLiteral (letters : List UInt8) (token : Token P) (bytes : List UInt8) :
    Token P × List UInt8 :=
  if letters.isPrefixOf bytes then (token, bytes.drop letters.length) else (.parseError, [])

/-- The structural characters. -/
def structural (b : UInt8) : Option (Token P) :=
  if b = 0x5b then some .beginArray
  else if b = 0x5d then some .endArray
  else if b = 0x7b then some .beginObject
  else if b = 0x7d then some .endObject
  else if b = 0x3a then some .nameSeparator
  else if b = 0x2c then some .valueSeparator
  else none

/-- The switch of `scan`. -/
def scanToken (b : UInt8) (rest : List UInt8) : Token P × List UInt8 :=
  match structural b with
  | some token => (token, rest)
  | none =>
    if b = 0x74 then scanLiteral [0x72, 0x75, 0x65] .literalTrue rest
    else if b = 0x66 then scanLiteral [0x61, 0x6c, 0x73, 0x65] .literalFalse rest
    else if b = 0x6e then scanLiteral [0x75, 0x6c, 0x6c] .literalNull rest
    else if b = 0x22 then
      match scanString rest with
      | none => (.parseError, [])
      | some (s, rest) => (.valueString s, rest)
    else if b = 0x2d then scanNumber strtod true rest
    else if isDigitByte b then scanNumber strtod false (b :: rest)
    else if b = 0 then (.endOfInput, rest)
    else (.parseError, [])

/-- `scan`: the next token and what follows it. -/
def scan (bytes : List UInt8) : Token P × List UInt8 :=
  match bytes.dropWhile isBlankByte with
  | [] => (.endOfInput, [])
  | b :: rest => scanToken strtod b rest

/-- `skip_bom`; nothing is left of a text with half of one. -/
def skipBom (bytes : List UInt8) : Option (List UInt8) :=
  match bytes with
  | 0xef :: rest =>
    match rest with
    | 0xbb :: 0xbf :: rest => some rest
    | _ => none
  | bytes => some bytes

/-- The tokens up to the first that ends the text or is none. -/
def tokensFrom : Nat → List UInt8 → List (Token P)
  | 0, _ => []
  | fuel + 1, bytes =>
    let (token, rest) := scan strtod bytes
    if token.last then [token] else token :: tokensFrom fuel rest

/-- Every token but the last takes a byte at least. -/
def tokens (text : List UInt8) : List (Token P) :=
  match skipBom text with
  | none => [.parseError]
  | some bytes => tokensFrom strtod (bytes.length + 1) bytes

end P2PShopping.Json
