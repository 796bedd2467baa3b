import P2PShopping.Wire.Scanning

/-! `json::parse` after `json::dump`.

The text of a value scans as the tokens of that value with its members in order, and
parses to it with its members in order (`parse_dump`). A dumped object is complete
with its last byte only: no shorter text parses (`parse_prefix`). -/
namespace P2PShopping.Json
open OrderedMaps

variable {P : Type}

/-- What `dump_float` and `strtod` have to do with each other: the text is a numeral with
a point or an exponent, and it is read back. -/
structure FloatFormat (dumpFloat : P → List UInt8) (strtod : List UInt8 → Option P) : Prop where
  numeral : ∀ x, ∃ (negative : Bool) (whole fraction exponent : List UInt8),
    dumpFloat x = (if negative then [0x2d] else []) ++ (whole ++ fraction ++ exponent) ∧
      IsWhole whole ∧ IsFraction fraction ∧ IsExponent exponent ∧ fraction ++ exponent ≠ []
  reads : ∀ x, strtod (dumpFloat x) = some x

mutual

/-- The integers fit 64 bits, and no object has a key twice. -/
def Representable : Json P → Prop
  | .int n => -2 ^ 63 ≤ n ∧ n < 2 ^ 64
  | .arr elements => RepresentableElements elements
  | .obj members => (members.map Prod.fst).Nodup ∧ RepresentableMembers members
  | _ => True

def RepresentableElements : List (Json P) → Prop
  | [] => True
  | j :: elements => Representable j ∧ RepresentableElements elements

def RepresentableMembers : List (String × Json P) → Prop
  | [] => True
  | (_, j) :: members => Representable j ∧ RepresentableMembers members

end

/-! ### Scanning a dump -/

section Dump
variable {dumpFloat : P → List UInt8} {strtod : List UInt8 → Option P}

/-- The first byte is no blank. -/
theorem scan_cons {b : UInt8} (h : isBlankByte b = false) (rest : List UInt8) :
    scan strtod (b :: rest) = scanToken strtod b rest := by
  rw [scan, List.dropWhile_cons, h]
  rfl

theorem scan_string (s : String) (rest : List UInt8) :
    scan strtod (dumpString s ++ rest) = (.valueString s, rest) := by
  obtain ⟨bytes, hbytes, hscan⟩ := scanString_dumped s rest
  have hquote : scanToken strtod 0x22 bytes = (.valueString s, rest) := by
    unfold scanToken
    rw [hscan]
    rfl
  rw [hbytes, scan_cons rfl, hquote]

theorem scanToken_digit {b : UInt8} (h : isDigitByte b = true) (rest : List UInt8) :
    scanToken strtod b rest = scanNumber strtod false (b :: rest) := by
  have hrange := isDigitByte_iff.mp h
  have hdigit : b ∈ ([0x30, 0x31, 0x32, 0x33, 0x34, 0x35, 0x36, 0x37, 0x38, 0x39] :
      List UInt8) := by
    have hall : ∀ n < 256, 0x30 ≤ n ∧ n ≤ 0x39 → UInt8.ofNat n ∈ ([0x30, 0x31, 0x32, 0x33,
        0x34, 0x35, 0x36, 0x37, 0x38, 0x39] : List UInt8) := by decide +kernel
    simpa using hall b.toNat b.toNat_lt hrange
  simp only [List.mem_cons, List.not_mem_nil, or_false] at hdigit
  rcases hdigit with rfl | rfl | rfl | rfl | rfl | rfl | rfl | rfl | rfl | rfl <;> rfl

theorem not_blank_of_digit {b : UInt8} (h : isDigitByte b = true) : isBlankByte b = false := by
  have hrange := isDigitByte_iff.mp h
  have hall : ∀ n < 256, 0x30 ≤ n ∧ n ≤ 0x39 → isBlankByte (UInt8.ofNat n) = false := by
    decide +kernel
  simpa using hall b.toNat b.toNat_lt hrange

theorem IsWhole.head {whole : List UInt8} (h : IsWhole whole) :
    ∃ b rest, whole = b :: rest ∧ isDigitByte b = true := by
  cases h with
  | zero => exact ⟨_, _, rfl, rfl⟩
  | @digits b rest hb _ =>
    refine ⟨b, rest, rfl, isDigitByte_iff.mpr ⟨?_, UInt8.le_iff_toNat_le.mp hb.2⟩⟩
    exact Nat.le_of_succ_le (UInt8.le_iff_toNat_le.mp hb.1)

theorem IsWhole.all_digits {whole : List UInt8} (h : IsWhole whole) :
    ∀ b ∈ whole, isDigitByte b = true := by
  obtain ⟨b, rest, heq, hb⟩ := h.head
  cases h with
  | zero => exact List.forall_mem_singleton.mpr rfl
  | digits _ hrest =>
    obtain ⟨rfl, rfl⟩ := List.cons.inj heq
    exact List.forall_mem_cons.mpr ⟨hb, hrest⟩

variable (strtod) in
/-- A numeral with its sign is one token. -/
theorem scan_numeral (negative : Bool) {whole fraction exponent rest : List UInt8}
    (hwhole : IsWhole whole) (hfraction : IsFraction fraction) (hexponent : IsExponent exponent)
    (hrest : EndsNumeral rest) :
    scan strtod ((if negative then [0x2d] else []) ++ (whole ++ fraction ++ exponent) ++ rest) =
      (numberToken strtod negative (!(fraction ++ exponent).isEmpty)
        (whole ++ fraction ++ exponent), rest) := by
  have hscan : scanNumber strtod negative (whole ++ fraction ++ exponent ++ rest) =
      (numberToken strtod negative (!(fraction ++ exponent).isEmpty)
        (whole ++ fraction ++ exponent), rest) := by
    rw [scanNumber, scanUnsigned_run hwhole hfraction hexponent hrest]
  cases negative with
  | true =>
    rw [if_pos rfl, List.append_assoc, List.singleton_append, scan_cons rfl]
    exact hscan
  | false =>
    obtain ⟨b, bytes, rfl, hb⟩ := hwhole.head
    rw [if_neg Bool.false_ne_true, List.nil_append]
    simp only [List.cons_append] at hscan ⊢
    rw [scan_cons (not_blank_of_digit hb), scanToken_digit hb, hscan]

theorem asciiBytes_int (n : Int) :
    asciiBytes (toString n) =
      (if decide (n < 0) then [0x2d] else []) ++ asciiBytes n.natAbs.repr := by
  rw [Int.toString_eq_repr, Int.repr_eq_if]
  by_cases hneg : n < 0
  · rw [if_neg (by omega), decide_eq_true hneg, if_pos rfl, show (-n).toNat = n.natAbs by omega]
    simp [asciiBytes]
  · rw [if_pos (by omega), decide_eq_false hneg, if_neg Bool.false_ne_true,
      show n.toNat = n.natAbs by omega, List.nil_append]

theorem scan_int {n : Int} (h : -2 ^ 63 ≤ n ∧ n < 2 ^ 64) {rest : List UInt8}
    (hrest : EndsNumeral rest) :
    scan strtod (asciiBytes (toString n) ++ rest) = (.valueInteger n, rest) := by
  have hscan := scan_numeral strtod (decide (n < 0)) (isWhole_repr n.natAbs) .none
    .none hrest
  simp only [List.append_nil] at hscan
  rw [asciiBytes_int, hscan]
  congr 1
  unfold numberToken
  simp only [List.isEmpty_nil, Bool.not_true, Bool.false_eq_true, if_false, digitValue_repr,
    decide_eq_true_eq]
  split_ifs <;> (congr 1; omega)

theorem scan_float (hformat : FloatFormat dumpFloat strtod) (x : P) {rest : List UInt8}
    (hrest : EndsNumeral rest) :
    scan strtod (dumpFloat x ++ rest) = (.valueFloat (some x), rest) := by
  obtain ⟨negative, whole, fraction, exponent, htext, hwhole, hfraction, hexponent, hne⟩ :=
    hformat.numeral x
  have hfloat : (!(fraction ++ exponent).isEmpty) = true := by
    simpa using hne
  have hread := hformat.reads x
  rw [htext] at hread ⊢
  rw [scan_numeral strtod negative hwhole hfraction hexponent hrest, hfloat]
  cases negative <;> simpa [numberToken] using hread

/-- The text of a value, before anything that ends a numeral, scans as the tokens of a
value that is built to the same. -/
def ScansBack (dumpFloat : P → List UInt8) (strtod : List UInt8 → Option P) (j : Json P) : Prop :=
  ∀ rest, EndsNumeral rest →
    ∃ j', Scans strtod (dump dumpFloat j ++ rest) (tokensOf j') rest ∧ normal j' = normal j

theorem endsNumeral_cons {b : UInt8} {rest : List UInt8}
    (h : isDigitByte b = false ∧ b ≠ 0x2e ∧ b ≠ 0x65 ∧ b ≠ 0x45) : EndsNumeral (b :: rest) := by
  intro c hc
  cases hc
  exact h

theorem commaSeparated_cons (part : List UInt8) (parts : List (List UInt8)) :
    commaSeparated (part :: parts) = part ++ parts.flatMap (0x2c :: ·) := by
  induction parts generalizing part with
  | nil => simp [commaSeparated]
  | cons next parts ih =>
    rw [commaSeparated, List.intercalate_cons_cons, ← commaSeparated, ih, List.flatMap_cons,
      List.append_assoc]
    rfl

theorem scans_elements {elements : List (Json P)}
    (h : ∀ j ∈ elements, ScansBack dumpFloat strtod j) (rest : List UInt8) :
    ∃ elements', Scans strtod
        ((dumpElements dumpFloat elements).flatMap (0x2c :: ·) ++ 0x5d :: rest)
        (tokensOfElements elements') rest ∧
      normalElements elements' = normalElements elements := by
  induction elements with
  | nil => exact ⟨[], .single rfl rfl, rfl⟩
  | cons j elements ih =>
    obtain ⟨hj, hrest⟩ := List.forall_mem_cons.mp h
    obtain ⟨elements', hscans, hnormal⟩ := ih hrest
    have hends : EndsNumeral
        ((dumpElements dumpFloat elements).flatMap (0x2c :: ·) ++ 0x5d :: rest) := by
      cases elements with
      | nil => exact endsNumeral_cons (by decide)
      | cons => exact endsNumeral_cons (by decide)
    obtain ⟨j', hfirst, hnormal'⟩ := hj _ hends
    refine ⟨j' :: elements', ?_, ?_⟩
    · rw [dumpElements, List.flatMap_cons, List.append_assoc, List.cons_append, tokensOfElements,
        List.cons_append]
      exact .cons (scan_cons rfl _) rfl (hfirst.append hscans)
    · rw [normalElements, normalElements, hnormal', hnormal]

/-- A member as it is written. -/
def memberText (dumpFloat : P → List UInt8) (m : String × Json P) : List UInt8 :=
  dumpString m.1 ++ [0x3a] ++ dump dumpFloat m.2

theorem scans_member (key : String) {bytes rest : List UInt8} {ts : List (Token P)}
    (h : Scans strtod bytes ts rest) :
    Scans strtod (dumpString key ++ [0x3a] ++ bytes) (.valueString key :: .nameSeparator :: ts)
      rest := by
  rw [List.append_assoc]
  exact .cons (scan_string key _) rfl (.cons (scan_cons rfl _) rfl h)

theorem scans_members {members : List (String × Json P)}
    (h : ∀ m ∈ members, ScansBack dumpFloat strtod m.2) (rest : List UInt8) :
    ∃ members', Scans strtod
        ((members.map (memberText dumpFloat)).flatMap (0x2c :: ·) ++ 0x7d :: rest)
        (tokensOfMembers members') rest ∧
      normalMembers members' = normalMembers members := by
  induction members with
  | nil => exact ⟨[], .single rfl rfl, rfl⟩
  | cons m members ih =>
    obtain ⟨key, j⟩ := m
    obtain ⟨hj, hrest⟩ := List.forall_mem_cons.mp h
    obtain ⟨members', hscans, hnormal⟩ := ih hrest
    have hends : EndsNumeral
        ((members.map (memberText dumpFloat)).flatMap (0x2c :: ·) ++ 0x7d :: rest) := by
      cases members with
      | nil => exact endsNumeral_cons (by decide)
      | cons => exact endsNumeral_cons (by decide)
    obtain ⟨j', hfirst, hnormal'⟩ := hj _ hends
    refine ⟨(key, j') :: members', ?_, ?_⟩
    · rw [List.map_cons, List.flatMap_cons, List.append_assoc, List.cons_append, memberText,
        List.append_assoc, tokensOfMembers, List.cons_append, List.cons_append, List.cons_append]
      exact .cons (scan_cons rfl _) rfl (scans_member key (hfirst.append hscans))
    · rw [normalMembers, normalMembers, hnormal', hnormal]

/-- The members in the order of their keys. -/
def inOrder (members : List (String × Json P)) : List (String × Json P) :=
  members.insertionSort fun a b => a.1 ≤ b.1

theorem dumpMembers_eq_map (members : List (String × Json P)) :
    dumpMembers dumpFloat members = members.map fun m => (m.1, dump dumpFloat m.2) := by
  induction members with
  | nil => rfl
  | cons m members ih => rw [dumpMembers, ih, List.map_cons]

theorem normalMembers_eq_map (members : List (String × Json P)) :
    normalMembers members = members.map fun m => (m.1, normal m.2) := by
  induction members with
  | nil => rfl
  | cons m members ih => rw [normalMembers, ih, List.map_cons]

theorem dump_obj (members : List (String × Json P)) :
    dump dumpFloat (.obj members) =
      [0x7b] ++ commaSeparated ((inOrder members).map (memberText dumpFloat)) ++ [0x7d] := by
  have hsort : ((inOrder members).map fun m => (m.1, dump dumpFloat m.2)) =
      (members.map fun m => (m.1, dump dumpFloat m.2)).insertionSort fun a b => a.1 ≤ b.1 :=
    List.map_insertionSort _ _ _ _ fun _ _ _ _ => Iff.rfl
  rw [dump, dumpMembers_eq_map, ← hsort, List.map_map]
  rfl

/-- The order in which different keys were written leaves no trace. -/
theorem normal_inOrder {members : List (String × Json P)} (h : (members.map Prod.fst).Nodup) :
    putAll [] (normalMembers (inOrder members)) = putAll [] (normalMembers members) := by
  have hperm := List.perm_insertionSort (fun a b : String × Json P => a.1 ≤ b.1) members
  rw [normalMembers_eq_map, normalMembers_eq_map]
  refine putAll_perm (hperm.map _) ?_
  rw [List.map_map]
  exact (hperm.map Prod.fst).nodup_iff.mpr h

theorem scansBack_arr {elements : List (Json P)}
    (h : ∀ j ∈ elements, ScansBack dumpFloat strtod j) :
    ScansBack dumpFloat strtod (.arr elements) := by
  intro rest hrest
  cases elements with
  | nil => exact ⟨.arr [], .cons (scan_cons rfl _) rfl (.single (scan_cons rfl _) rfl), rfl⟩
  | cons j elements =>
    obtain ⟨hj, helements⟩ := List.forall_mem_cons.mp h
    obtain ⟨elements', hscans, hnormal⟩ := scans_elements helements rest
    have hends : EndsNumeral
        ((dumpElements dumpFloat elements).flatMap (0x2c :: ·) ++ 0x5d :: rest) := by
      cases elements with
      | nil => exact endsNumeral_cons (by decide)
      | cons => exact endsNumeral_cons (by decide)
    obtain ⟨j', hfirst, hnormal'⟩ := hj _ hends
    refine ⟨.arr (j' :: elements'), ?_, ?_⟩
    · have htext : dump dumpFloat (.arr (j :: elements)) ++ rest = 0x5b :: (dump dumpFloat j ++
          ((dumpElements dumpFloat elements).flatMap (0x2c :: ·) ++ 0x5d :: rest)) := by
        simp [dump, dumpElements, commaSeparated_cons]
      rw [htext, tokensOf]
      exact .cons (scan_cons rfl _) rfl (hfirst.append hscans)
    · simp only [normal, normalElements, hnormal', hnormal]

theorem scansBack_obj {members : List (String × Json P)} (hkeys : (members.map Prod.fst).Nodup)
    (h : ∀ m ∈ members, ScansBack dumpFloat strtod m.2) :
    ScansBack dumpFloat strtod (.obj members) := by
  intro rest hrest
  have hordered : ∀ m ∈ inOrder members, ScansBack dumpFloat strtod m.2 :=
    fun m hm => h m ((List.mem_insertionSort _).mp hm)
  have hnormal := normal_inOrder hkeys
  rw [dump_obj]
  generalize inOrder members = written at hordered hnormal
  cases written with
  | nil =>
    refine ⟨.obj [], .cons (scan_cons rfl _) rfl (.single (scan_cons rfl _) rfl), ?_⟩
    simp only [normal]
    exact congrArg _ hnormal
  | cons m written =>
    obtain ⟨key, j⟩ := m
    obtain ⟨hj, hwritten⟩ := List.forall_mem_cons.mp hordered
    obtain ⟨members', hscans, hnormal'⟩ := scans_members hwritten rest
    have hends : EndsNumeral
        ((written.map (memberText dumpFloat)).flatMap (0x2c :: ·) ++ 0x7d :: rest) := by
      cases written with
      | nil => exact endsNumeral_cons (by decide)
      | cons => exact endsNumeral_cons (by decide)
    obtain ⟨j', hfirst, hnormal''⟩ := hj _ hends
    refine ⟨.obj ((key, j') :: members'), ?_, ?_⟩
    · rw [List.map_cons, commaSeparated_cons, tokensOf, List.cons_append, List.cons_append,
        List.cons_append, memberText]
      simp only [List.append_assoc, List.singleton_append]
      refine .cons (scan_cons rfl _) rfl ?_
      have hmember := scans_member key (hfirst.append hscans)
      rwa [List.append_assoc, List.singleton_append] at hmember
    · rw [normalMembers] at hnormal
      simp only [normal, normalMembers, hnormal', hnormal'', hnormal]

mutual

theorem scansBack (hformat : FloatFormat dumpFloat strtod) :
    ∀ j : Json P, Representable j → ScansBack dumpFloat strtod j
  | .null, _ => fun _ _ => ⟨.null, .single rfl rfl, rfl⟩
  | .bool true, _ => fun _ _ => ⟨.bool true, .single rfl rfl, rfl⟩
  | .bool false, _ => fun _ _ => ⟨.bool false, .single rfl rfl, rfl⟩
  | .int n, h => fun _ hrest => ⟨.int n, .single (scan_int h hrest) rfl, rfl⟩
  | .float x, _ => fun _ hrest => ⟨.float x, .single (scan_float hformat x hrest) rfl, rfl⟩
  | .str s, _ => fun rest _ => ⟨.str s, .single (scan_string s rest) rfl, rfl⟩
  | .arr elements, h => scansBack_arr (scansBack_elements hformat elements h)
  | .obj members, h => scansBack_obj h.1 (scansBack_members hformat members h.2)

theorem scansBack_elements (hformat : FloatFormat dumpFloat strtod) :
    ∀ elements : List (Json P), RepresentableElements elements →
      ∀ j ∈ elements, ScansBack dumpFloat strtod j
  | [], _ => fun _ hj => absurd hj List.not_mem_nil
  | j :: elements, h => List.forall_mem_cons.mpr
      ⟨scansBack hformat j h.1, scansBack_elements hformat elements h.2⟩

theorem scansBack_members (hformat : FloatFormat dumpFloat strtod) :
    ∀ members : List (String × Json P), RepresentableMembers members →
      ∀ m ∈ members, ScansBack dumpFloat strtod m.2
  | [], _ => fun _ hm => absurd hm List.not_mem_nil
  | (_, j) :: members, h => List.forall_mem_cons.mpr
      ⟨scansBack hformat j h.1, scansBack_members hformat members h.2⟩

end

/-! ### The round trip -/

/-- A text that starts with a token has no byte order mark. -/
theorem skipBom_of_scans {bytes rest : List UInt8} {j : Json P}
    (h : Scans strtod bytes (tokensOf j) rest) : skipBom bytes = some bytes := by
  unfold skipBom
  split
  case h_1 bytes' =>
    obtain ⟨t, ts, hts⟩ := List.exists_cons_of_length_pos (tokensOf_pos j)
    rw [hts] at h
    obtain _ | ⟨hscan, hlast, _⟩ := h
    cases hscan
    cases hlast
  case h_2 => rfl

theorem tokens_of_scans {bytes rest : List UInt8} {j : Json P}
    (h : Scans strtod bytes (tokensOf j) rest) (hend : (scan strtod rest).1 = .endOfInput) :
    tokens strtod bytes = tokensOf j ++ [.endOfInput] := by
  rw [tokens, skipBom_of_scans h]
  exact tokensFrom_of_scans h hend rfl

/-- **A dump parses to the value with its members in order.** -/
theorem parse_dump (hformat : FloatFormat dumpFloat strtod) {j : Json P} (h : Representable j) :
    parse strtod (dump dumpFloat j) = .ok (normal j) := by
  obtain ⟨j', hscans, hnormal⟩ := scansBack hformat j h [] (fun _ hb => by cases hb)
  rw [List.append_nil] at hscans
  exact parse_eq_ok_iff.mpr ⟨j', [], tokens_of_scans hscans rfl, hnormal.symm⟩

/-! ### No text within a text -/

theorem tokensOf_inj {j j' : Json P} {ts us : List (Token P)}
    (h : tokensOf j ++ ts = tokensOf j' ++ us) : tokensOf j = tokensOf j' := by
  have hparse : evaluateState ts [] (normal j) = evaluateState us [] (normal j') := by
    rw [← parseValue_tokensOf, ← parseValue_tokensOf, h]
  simp only [evaluateState, Except.ok.injEq, Prod.mk.injEq] at hparse
  rw [hparse.2] at h
  exact List.append_cancel_right h

mutual

theorem tokensOf_not_last : ∀ (j : Json P), ∀ t ∈ tokensOf j, t.last = false
  | .null | .int _ | .float _ | .str _ | .arr [] | .obj [] => by simp [tokensOf, Token.last]
  | .bool b => by cases b <;> simp [tokensOf, Token.last]
  | .arr (j :: elements) => by
    have hj := tokensOf_not_last j
    have helements := tokensOfElements_not_last elements
    simp only [tokensOf, List.cons_append, List.forall_mem_cons, List.forall_mem_append]
    exact ⟨rfl, hj, helements⟩
  | .obj ((_, j) :: members) => by
    have hj := tokensOf_not_last j
    have hmembers := tokensOfMembers_not_last members
    simp only [tokensOf, List.cons_append, List.forall_mem_cons, List.forall_mem_append]
    exact ⟨rfl, rfl, rfl, hj, hmembers⟩

theorem tokensOfElements_not_last :
    ∀ (elements : List (Json P)), ∀ t ∈ tokensOfElements elements, t.last = false
  | [] => by simp [tokensOfElements, Token.last]
  | j :: elements => by
    have hj := tokensOf_not_last j
    have helements := tokensOfElements_not_last elements
    simp only [tokensOfElements, List.cons_append, List.forall_mem_cons, List.forall_mem_append]
    exact ⟨rfl, hj, helements⟩

theorem tokensOfMembers_not_last :
    ∀ (members : List (String × Json P)), ∀ t ∈ tokensOfMembers members, t.last = false
  | [] => by simp [tokensOfMembers, Token.last]
  | (_, j) :: members => by
    have hj := tokensOf_not_last j
    have hmembers := tokensOfMembers_not_last members
    simp only [tokensOfMembers, List.cons_append, List.forall_mem_cons, List.forall_mem_append]
    exact ⟨rfl, rfl, rfl, hj, hmembers⟩

end

theorem tokensOfMembers_end (members : List (String × Json P)) :
    ∃ ts, tokensOfMembers members = ts ++ [.endObject] := by
  induction members with
  | nil => exact ⟨[], rfl⟩
  | cons m members ih =>
    obtain ⟨ts, hts⟩ := ih
    rw [tokensOfMembers, hts]
    exact ⟨_ ++ ts, (List.append_assoc _ ts _).symm⟩

theorem tokensOf_obj_end (members : List (String × Json P)) :
    ∃ ts, tokensOf (.obj members) = ts ++ [.endObject] := by
  match members with
  | [] => exact ⟨[.beginObject], rfl⟩
  | (key, j) :: members =>
    obtain ⟨ts, hts⟩ := tokensOfMembers_end members
    rw [tokensOf, hts]
    exact ⟨_ ++ ts, (List.append_assoc _ ts _).symm⟩

/-- The tokens of two values cannot both stand at the front of a text. -/
theorem Scans.tokensOf_unique {bytes rest rest' : List UInt8} {j j' : Json P}
    (h : Scans strtod bytes (tokensOf j) rest) (h' : Scans strtod bytes (tokensOf j') rest') :
    rest = rest' := by
  have htokens := tokensFrom_scans h (tokensOf j').length
  have htokens' := tokensFrom_scans h' (tokensOf j).length
  rw [Nat.add_comm, htokens'] at htokens
  rw [tokensOf_inj htokens] at h'
  exact h.unique h'

theorem scans_of_parse {text : List UInt8} {v : Json P} (hparse : parse strtod text = .ok v)
    (hbom : skipBom text = some text) :
    ∃ j rest, Scans strtod text (tokensOf j) rest ∧ v = normal j := by
  obtain ⟨j, us, htokens, hv⟩ := parse_eq_ok_iff.mp hparse
  rw [tokens, hbom] at htokens
  obtain ⟨rest, hscans, -⟩ := scans_of_tokensFrom htokens (tokensOf_not_last j)
  exact ⟨j, rest, hscans, hv⟩

/-- A text that begins with a brace is an object. -/
theorem obj_of_scans {bytes rest : List UInt8} {j : Json P}
    (h : Scans strtod (0x7b :: bytes) (tokensOf j) rest) : ∃ members, j = .obj members := by
  obtain ⟨t, ts, hts⟩ := List.exists_cons_of_length_pos (tokensOf_pos j)
  have hfirst : t = .beginObject := by
    rw [hts] at h
    obtain _ | ⟨hscan, _, _⟩ := h
    exact (congrArg Prod.fst hscan).symm
  subst hfirst
  match j with
  | .obj members => exact ⟨members, rfl⟩
  | .bool true | .bool false | .null | .int _ | .float _ | .str _ | .arr [] | .arr (_ :: _) =>
    cases hts

/-- **No text that is cut off a dumped object parses.** -/
theorem parse_prefix (hformat : FloatFormat dumpFloat strtod) {members : List (String × Json P)}
    (h : Representable (.obj members)) {text q : List UInt8} {v : Json P}
    (htext : text ++ q = dump dumpFloat (.obj members)) (hparse : parse strtod text = .ok v) :
    q = [] := by
  obtain ⟨j', hdump, -⟩ := scansBack hformat _ h [] (fun _ hb => by cases hb)
  rw [List.append_nil, ← htext] at hdump
  rw [dump_obj, List.append_assoc, List.singleton_append] at htext
  cases text with
  | nil =>
    obtain ⟨j, us, htokens, -⟩ := parse_eq_ok_iff.mp hparse
    obtain ⟨t, ts, hts⟩ := List.exists_cons_of_length_pos (tokensOf_pos j)
    have hlast := tokensOf_not_last j t (hts ▸ List.mem_cons_self ..)
    rw [hts, List.cons_append] at htokens
    have hfirst : Token.endOfInput = t := (List.cons.inj htokens).1
    rw [← hfirst] at hlast
    cases hlast
  | cons b text =>
    obtain ⟨rfl, -⟩ := List.cons.inj htext
    obtain ⟨j, rest, hscans, -⟩ := scans_of_parse hparse rfl
    obtain ⟨members', rfl⟩ := obj_of_scans hscans
    obtain ⟨ts, hts⟩ := tokensOf_obj_end members'
    have hextended := (hts ▸ hscans).extend q
    rw [← hts] at hextended
    exact (List.append_eq_nil_iff.mp (hextended.tokensOf_unique hdump)).2

end Dump

end P2PShopping.Json
