import P2PShopping.Wire.Messages
import Mathlib.Data.List.Sort

/-! `json::dump()`, without indentation.

The text of a value in bytes: the members of an object in the order of their keys, as
`std::map` keeps them, and in a string a backslash before what needs one, while
everything from 0x80 on is copied. The shortest decimal for a `double` is left open
(`dumpFloat`): what the program relies on is that no byte of a text is NUL and that a
text is at least as long as the strings in it, and that holds for any decimals. -/
namespace P2PShopping.Json

variable {P : Type}

def hexDigit (n : UInt8) : UInt8 := if n < 10 then 0x30 + n else 0x57 + n

/-- `dump_escaped` on one byte of a valid text. -/
def escape (b : UInt8) : List UInt8 :=
  if b = 0x08 then [0x5c, 0x62]
  else if b = 0x09 then [0x5c, 0x74]
  else if b = 0x0a then [0x5c, 0x6e]
  else if b = 0x0c then [0x5c, 0x66]
  else if b = 0x0d then [0x5c, 0x72]
  else if b = 0x22 then [0x5c, 0x22]
  else if b = 0x5c then [0x5c, 0x5c]
  else if b ≤ 0x1f then [0x5c, 0x75, 0x30, 0x30, hexDigit (b / 16), hexDigit (b % 16)]
  else [b]

def dumpString (s : String) : List UInt8 :=
  [0x22] ++ s.toByteArray.data.toList.flatMap escape ++ [0x22]

/-- A numeral or a literal, whose characters are all ASCII. -/
def asciiBytes (s : String) : List UInt8 := s.toList.map fun c => UInt8.ofNat c.toNat

/-- The parts with a comma between any two. -/
def commaSeparated (parts : List (List UInt8)) : List UInt8 := [0x2c].intercalate parts

variable (dumpFloat : P → List UInt8)

mutual

def dump : Json P → List UInt8
  | .null => asciiBytes "null"
  | .bool b => asciiBytes (if b then "true" else "false")
  | .int n => asciiBytes (toString n)
  | .float x => dumpFloat x
  | .str s => dumpString s
  | .arr elements => [0x5b] ++ commaSeparated (dumpElements elements) ++ [0x5d]
  | .obj members =>
    [0x7b] ++ commaSeparated (((dumpMembers members).insertionSort fun a b => a.1 ≤ b.1).map
      fun m => dumpString m.1 ++ [0x3a] ++ m.2) ++ [0x7d]

def dumpElements : List (Json P) → List (List UInt8)
  | [] => []
  | j :: rest => dump j :: dumpElements rest

def dumpMembers : List (String × Json P) → List (String × List UInt8)
  | [] => []
  | (key, j) :: rest => (key, dump j) :: dumpMembers rest

end

/-! ### No NUL -/

theorem escape_no_nul (b : UInt8) : 0 ∉ escape b := by
  have hall : ∀ n < 256, 0 ∉ escape (UInt8.ofNat n) := by decide +kernel
  simpa using hall b.toNat b.toNat_lt

theorem dumpString_no_nul (s : String) : 0 ∉ dumpString s := by
  simp [dumpString, escape_no_nul]

theorem digits_no_nul (n : Nat) : 0 ∉ asciiBytes n.repr := by
  intro hmem
  obtain ⟨c, hc, hzero⟩ := List.mem_map.mp hmem
  have hdigit : c.isDigit = true := by
    rw [Nat.toList_repr] at hc
    exact Nat.isDigit_of_mem_toDigits (by decide) (by decide) hc
  have hrange : 48 ≤ c.toNat ∧ c.toNat ≤ 57 := by
    simpa [Char.isDigit, UInt32.le_iff_toNat_le] using hdigit
  have hmod : c.toNat % 256 = 0 := by simpa using congrArg UInt8.toNat hzero
  omega

theorem int_no_nul (n : Int) : 0 ∉ asciiBytes (toString n) := by
  rw [Int.toString_eq_repr, Int.repr_eq_if]
  split
  · exact digits_no_nul _
  · have hminus : asciiBytes ("-" ++ (-n).toNat.repr) = 0x2d :: asciiBytes (-n).toNat.repr := by
      simp [asciiBytes]
    rw [hminus, List.mem_cons]
    simp [digits_no_nul]

theorem commaSeparated_no_nul {parts : List (List UInt8)} (h : ∀ part ∈ parts, 0 ∉ part) :
    0 ∉ commaSeparated parts := by
  unfold commaSeparated
  induction parts with
  | nil => simp
  | cons part rest ih =>
    obtain ⟨hpart, hrest⟩ := List.forall_mem_cons.mp h
    cases rest with
    | nil => simpa using hpart
    | cons next rest =>
      rw [List.intercalate_cons_cons]
      simp [hpart, ih hrest]

section NoNul
variable {dumpFloat : P → List UInt8}

mutual

theorem dump_no_nul (hfloat : ∀ x, 0 ∉ dumpFloat x) : ∀ j : Json P, 0 ∉ dump dumpFloat j
  | .null => by simp [dump, asciiBytes]
  | .bool b => by cases b <;> simp [dump, asciiBytes]
  | .int n => by simpa [dump] using int_no_nul n
  | .float x => by simpa [dump] using hfloat x
  | .str s => by simpa [dump] using dumpString_no_nul s
  | .arr elements => by
    have hparts := commaSeparated_no_nul (dumpElements_no_nul hfloat elements)
    simp [dump, hparts]
  | .obj members => by
    have hparts : 0 ∉ commaSeparated
        (((dumpMembers dumpFloat members).insertionSort fun a b => a.1 ≤ b.1).map
          fun m => dumpString m.1 ++ [0x3a] ++ m.2) := by
      apply commaSeparated_no_nul
      intro part hpart
      obtain ⟨m, hm, rfl⟩ := List.mem_map.mp hpart
      have hmember := dumpMembers_no_nul hfloat members m ((List.mem_insertionSort _).mp hm)
      simp [dumpString_no_nul, hmember]
    simp only [dump, List.mem_append, hparts]
    simp

theorem dumpElements_no_nul (hfloat : ∀ x, 0 ∉ dumpFloat x) : ∀ elements : List (Json P),
    ∀ part ∈ dumpElements dumpFloat elements, 0 ∉ part
  | [] => by simp [dumpElements]
  | j :: rest => by
    rw [dumpElements]
    exact List.forall_mem_cons.mpr ⟨dump_no_nul hfloat j, dumpElements_no_nul hfloat rest⟩

theorem dumpMembers_no_nul (hfloat : ∀ x, 0 ∉ dumpFloat x) :
    ∀ members : List (String × Json P),
    ∀ m ∈ dumpMembers dumpFloat members, 0 ∉ m.2
  | [] => by simp [dumpMembers]
  | (key, j) :: rest => by
    rw [dumpMembers]
    exact List.forall_mem_cons.mpr ⟨dump_no_nul hfloat j, dumpMembers_no_nul hfloat rest⟩

end

end NoNul

/-! ### No shorter than a string in it -/

theorem escape_length (b : UInt8) : 1 ≤ (escape b).length := by
  unfold escape
  split_ifs <;> simp

theorem dumpString_length (s : String) : s.utf8ByteSize ≤ (dumpString s).length := by
  have hbytes : ∀ bytes : List UInt8, bytes.length ≤ (bytes.flatMap escape).length := by
    intro bytes
    induction bytes with
    | nil => simp
    | cons b bytes ih =>
      have := escape_length b
      simp only [List.flatMap_cons, List.length_append, List.length_cons]
      omega
  have hsize : s.utf8ByteSize = s.toByteArray.data.toList.length := rfl
  have := hbytes s.toByteArray.data.toList
  simp only [dumpString, List.length_append]
  omega

theorem commaSeparated_length {parts : List (List UInt8)} {part : List UInt8} (h : part ∈ parts) :
    part.length ≤ (commaSeparated parts).length := by
  unfold commaSeparated
  induction parts with
  | nil => cases h
  | cons first rest ih =>
    cases rest with
    | nil =>
      obtain rfl := List.mem_singleton.mp h
      simp
    | cons next rest =>
      rw [List.intercalate_cons_cons]
      simp only [List.length_append]
      rcases List.mem_cons.mp h with rfl | hrest
      · omega
      · have := ih hrest
        omega

theorem mem_dumpMembers (dumpFloat : P → List UInt8) {members : List (String × Json P)}
    {key : String} {j : Json P} (h : (key, j) ∈ members) :
    (key, dump dumpFloat j) ∈ dumpMembers dumpFloat members := by
  induction members with
  | nil => cases h
  | cons m rest ih =>
    rw [dumpMembers]
    rcases List.mem_cons.mp h with rfl | hrest
    · exact List.mem_cons_self ..
    · exact List.mem_cons_of_mem _ (ih hrest)

/-- A string among the members of an object. -/
theorem dump_obj_length (dumpFloat : P → List UInt8) {members : List (String × Json P)}
    {key s : String} (h : (key, .str s) ∈ members) :
    s.utf8ByteSize ≤ (dump dumpFloat (.obj members)).length := by
  have hmember : (key, dumpString s) ∈
      (dumpMembers dumpFloat members).insertionSort fun a b => a.1 ≤ b.1 := by
    rw [List.mem_insertionSort]
    simpa [dump] using mem_dumpMembers dumpFloat h
  have hpart := commaSeparated_length (List.mem_map_of_mem
    (f := fun m : String × List UInt8 => dumpString m.1 ++ [0x3a] ++ m.2) hmember)
  have hstring := dumpString_length s
  simp only [List.length_append] at hpart
  simp only [dump, List.length_append]
  omega

end P2PShopping.Json
