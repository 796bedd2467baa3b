import P2PShopping.Wire.RoundTrip

/-! The values that `json::parse` returns.

They are representable and in order, so that dumping and parsing again changes nothing
(`parse_dump_parse`), and the text of a value says what is in it and nothing else
(`dump_eq_iff`). -/
namespace P2PShopping.Json
open OrderedMaps

variable {P : Type} {dumpFloat : P → List UInt8} {strtod : List UInt8 → Option P}

/-! ### Whole numbers, for worked texts -/

/-- As `dump_float` writes them. -/
def dumpWhole (n : Int) : List UInt8 := asciiBytes (toString n) ++ [0x2e, 0x30]

/-- `strtod` on these. -/
def strtodWhole : List UInt8 → Option Int
  | 0x2d :: digits => some (-digitValue (digits.takeWhile isDigitByte))
  | digits => some (digitValue (digits.takeWhile isDigitByte))

theorem whole_format : FloatFormat dumpWhole strtodWhole := by
  have htext : ∀ n : Int, dumpWhole n = (if decide (n < 0) then [0x2d] else []) ++
      (asciiBytes n.natAbs.repr ++ [0x2e, 0x30] ++ []) := by
    intro n
    rw [dumpWhole, asciiBytes_int, List.append_nil, List.append_assoc]
  have hfraction : IsFraction [0x2e, 0x30] :=
    .digits ⟨by simp, by simp [isDigitByte]⟩
  constructor
  · intro n
    exact ⟨decide (n < 0), _, _, [], htext n, isWhole_repr _, hfraction, .none, by simp⟩
  · intro n
    have hdigits : ((asciiBytes n.natAbs.repr ++ [0x2e, 0x30]).takeWhile isDigitByte) =
        asciiBytes n.natAbs.repr :=
      (takeWhile_digits (isWhole_repr _).all_digits (by simp [isDigitByte])).1
    rw [htext, List.append_nil]
    by_cases hneg : n < 0
    · rw [decide_eq_true hneg, if_pos rfl, List.singleton_append, strtodWhole, hdigits,
        digitValue_repr]
      congr 1
      omega
    · rw [decide_eq_false hneg, if_neg Bool.false_ne_true, List.nil_append]
      unfold strtodWhole
      split
      case h_1 digits heq =>
        obtain ⟨b, rest, hwhole, hb⟩ := (isWhole_repr n.natAbs).head
        rw [hwhole] at heq
        obtain ⟨rfl, -⟩ := List.cons.inj heq
        cases hb
      case h_2 =>
        rw [hdigits, digitValue_repr]
        congr 1
        omega

/-! ### What a parse returns -/

/-- The integers that `scan_number` returns fit 64 bits. -/
def Token.Fits : Token P → Prop
  | .valueInteger n => -2 ^ 63 ≤ n ∧ n < 2 ^ 64
  | _ => True

theorem numberToken_fits (negative isFloat : Bool) (digits : List UInt8) :
    (numberToken strtod negative isFloat digits).Fits := by
  unfold numberToken
  simp only
  split_ifs with h₁ h₂ h₃ h₄
  · trivial
  · trivial
  · simp only [Token.Fits]
    omega
  · trivial
  · simp only [Token.Fits]
    omega
  · trivial

theorem scanNumber_fits (negative : Bool) (bytes : List UInt8) :
    (scanNumber strtod negative bytes).1.Fits := by
  rw [scanNumber]
  split
  · trivial
  · exact numberToken_fits ..

theorem scanLiteral_fits {letters bytes : List UInt8} {literal : Token P} (h : literal.Fits) :
    (scanLiteral letters literal bytes).1.Fits := by
  rw [scanLiteral]
  split
  · exact h
  · trivial

variable (strtod) in
theorem scan_fits (bytes : List UInt8) : (scan strtod bytes).1.Fits := by
  rw [scan]
  split
  case h_1 => trivial
  case h_2 b rest _ =>
    unfold scanToken
    split
    case h_1 token hstructural =>
      unfold structural at hstructural
      split_ifs at hstructural <;> cases hstructural <;> trivial
    case h_2 =>
      split_ifs
      · exact scanLiteral_fits trivial
      · exact scanLiteral_fits trivial
      · exact scanLiteral_fits trivial
      · split <;> trivial
      · exact scanNumber_fits ..
      · exact scanNumber_fits ..
      · trivial
      · trivial

theorem tokensFrom_fits (fuel : Nat) (bytes : List UInt8) :
    ∀ t ∈ tokensFrom strtod fuel bytes, t.Fits := by
  induction fuel generalizing bytes with
  | zero => simp [tokensFrom]
  | succ fuel ih =>
    have hfirst := scan_fits strtod bytes
    simp only [tokensFrom]
    split
    · exact List.forall_mem_singleton.mpr hfirst
    · exact List.forall_mem_cons.mpr ⟨hfirst, ih _⟩

theorem representableMembers_iff {members : List (String × Json P)} :
    RepresentableMembers members ↔ ∀ m ∈ members, Representable m.2 := by
  induction members with
  | nil => simp [RepresentableMembers]
  | cons m members ih => rw [RepresentableMembers, ih, List.forall_mem_cons]

mutual

theorem representable_normal : ∀ {j : Json P}, (∀ t ∈ tokensOf j, t.Fits) → Representable (normal j)
  | .null, _ | .bool _, _ | .float _, _ | .str _, _ | .arr [], _ => trivial
  | .int _, h => h _ (List.mem_cons_self ..)
  | .obj [], _ => ⟨List.nodup_nil, trivial⟩
  | .arr (j :: elements), h => by
    simp only [tokensOf, List.cons_append, List.forall_mem_cons, List.forall_mem_append] at h
    exact ⟨representable_normal h.2.1, representableElements_normal h.2.2⟩
  | .obj ((key, j) :: members), h => by
    simp only [tokensOf, List.cons_append, List.forall_mem_cons, List.forall_mem_append] at h
    have hj := representable_normal h.2.2.2.1
    have hmembers := representableMembers_normal h.2.2.2.2
    refine ⟨(sorted_nil.putAll _).nodup, representableMembers_iff.mpr fun m hm => ?_⟩
    rcases mem_putAll hm with hm | hm
    · cases hm
    · rcases List.mem_cons.mp hm with rfl | hm
      · exact hj
      · exact representableMembers_iff.mp hmembers m hm

theorem representableElements_normal : ∀ {elements : List (Json P)},
    (∀ t ∈ tokensOfElements elements, t.Fits) → RepresentableElements (normalElements elements)
  | [], _ => trivial
  | j :: elements, h => by
    simp only [tokensOfElements, List.cons_append, List.forall_mem_cons,
      List.forall_mem_append] at h
    exact ⟨representable_normal h.2.1, representableElements_normal h.2.2⟩

theorem representableMembers_normal : ∀ {members : List (String × Json P)},
    (∀ t ∈ tokensOfMembers members, t.Fits) → RepresentableMembers (normalMembers members)
  | [], _ => trivial
  | (_, j) :: members, h => by
    simp only [tokensOfMembers, List.cons_append, List.forall_mem_cons,
      List.forall_mem_append] at h
    exact ⟨representable_normal h.2.2.2.1, representableMembers_normal h.2.2.2.2⟩

end

mutual

theorem normal_normal : ∀ j : Json P, normal (normal j) = normal j
  | .null | .bool _ | .int _ | .float _ | .str _ => rfl
  | .arr elements => by
    simp only [normal, normalElements_normalElements elements]
  | .obj members => by
    have hmembers := normal_of_mem_normalMembers members
    have hfixed : normalMembers (putAll [] (normalMembers members)) =
        putAll [] (normalMembers members) := by
      rw [normalMembers_eq_map]
      refine (List.map_congr_left fun m hm => ?_).trans (List.map_id _)
      rcases mem_putAll hm with hm | hm
      · cases hm
      · rw [hmembers m hm]
        rfl
    simp only [normal]
    rw [hfixed, putAll_of_sorted (sorted_nil.putAll _)]

theorem normalElements_normalElements : ∀ elements : List (Json P),
    normalElements (normalElements elements) = normalElements elements
  | [] => rfl
  | j :: elements => by
    rw [normalElements, normalElements, normal_normal j, normalElements_normalElements elements]

theorem normal_of_mem_normalMembers : ∀ members : List (String × Json P),
    ∀ m ∈ normalMembers members, normal m.2 = m.2
  | [] => fun _ hm => absurd hm List.not_mem_nil
  | (_, j) :: members => List.forall_mem_cons.mpr
      ⟨normal_normal j, normal_of_mem_normalMembers members⟩

end

/-- Of the members that are written, the last with a key counts. -/
theorem lookup_normal (members : List (String × Json P)) (key : String) :
    (putAll [] (normalMembers members)).lookup key =
      (members.reverse.lookup key).map normal := by
  rw [lookup_putAll, List.append_nil, normalMembers_eq_map, ← List.map_reverse]
  induction members.reverse with
  | nil => rfl
  | cons m rest ih =>
    obtain ⟨k, j⟩ := m
    rw [List.map_cons, lookup_cons_eq, lookup_cons_eq, ih]
    split_ifs <;> rfl

/-- **What a parse has returned is dumped to a text that parses to it again.** -/
theorem parse_dump_parse (hformat : FloatFormat dumpFloat strtod) {text : List UInt8} {v : Json P}
    (h : parse strtod text = .ok v) : parse strtod (dump dumpFloat v) = .ok v := by
  obtain ⟨j, us, htokens, rfl⟩ := parse_eq_ok_iff.mp h
  have hfits : ∀ t ∈ tokensOf j, t.Fits := by
    have hall : ∀ t ∈ tokens strtod text, t.Fits := by
      rw [tokens]
      split
      · simp [Token.Fits]
      · exact tokensFrom_fits _ _
    rw [htokens] at hall
    exact fun t ht => hall t (List.mem_append_left _ ht)
  rw [parse_dump hformat (representable_normal hfits), normal_normal]

/-- A text with blanks, an escape, a float and a key that comes twice. -/
def repeatedText : List UInt8 :=
  asciiBytes "\x7b\"rq\": 1, \"at\": [2.0, \"\\u0041\"], \"rq\": -3\x7d"

def repeated : Json Int := .obj [("at", .arr [.float 2, .str "A"]), ("rq", .int (-3))]

theorem parse_repeatedText : parse strtodWhole repeatedText = .ok repeated := by rfl

theorem parse_dump_parse_repeated : parse strtodWhole (dump dumpWhole repeated) = .ok repeated :=
  parse_dump_parse whole_format parse_repeatedText

/-- **An object that is dumped and parsed has what it had under each key**, in the order
of the keys. -/
theorem object_round_trip (hformat : FloatFormat dumpFloat strtod)
    {members : List (String × Json P)} (h : Representable (.obj members)) :
    ∃ members', parse strtod (dump dumpFloat (.obj members)) = .ok (.obj members') ∧
      Sorted members' ∧ ∀ key, members'.lookup key = (members.lookup key).map normal := by
  refine ⟨_, parse_dump hformat h, sorted_nil.putAll _, fun key => ?_⟩
  rw [lookup_normal, lookup_perm members.reverse_perm
    ((members.reverse_perm.map Prod.fst).nodup_iff.mpr h.1)]

/-- The members of a FOUND. -/
def foundMembers : List (String × Json Int) :=
  [("command", .str "FOUND"), ("rq", .int 7), ("item_name", .str "lamp"), ("price", .float 8)]

theorem representable_found : Representable (.obj foundMembers) := by
  refine ⟨by decide, ?_⟩
  simp [RepresentableMembers, Representable, foundMembers]

theorem object_round_trip_found :
    ∃ members', parse strtodWhole (dump dumpWhole (.obj foundMembers)) = .ok (.obj members') ∧
      Sorted members' ∧
      ∀ key, members'.lookup key = (foundMembers.lookup key).map normal :=
  object_round_trip whole_format representable_found

/-! ### The text of a value -/

/-- `dump` writes the members as an `std::map` has them. -/
theorem inOrder_eq {members : List (String × Json P)} (h : (members.map Prod.fst).Nodup) :
    inOrder members = putAll [] members := by
  have hperm := List.perm_insertionSort (fun a b : String × Json P => a.1 ≤ b.1) members
  have hnodup : ((inOrder members).map Prod.fst).Nodup := (hperm.map Prod.fst).nodup_iff.mpr h
  have hsorted : Sorted (inOrder members) := by
    have hle : (inOrder members).Pairwise fun a b => a.1 ≤ b.1 :=
      List.pairwise_insertionSort _ _
    have hne : (inOrder members).Pairwise fun a b => a.1 ≠ b.1 := List.pairwise_map.mp hnodup
    refine List.pairwise_map.mpr ((hle.and hne).imp fun hab => lt_of_le_of_ne hab.1 hab.2)
  rw [← putAll_of_sorted hsorted]
  exact putAll_perm hperm hnodup

theorem normalMembers_putAll (members : List (String × Json P)) :
    putAll [] (normalMembers members) = normalMembers (putAll [] members) := by
  rw [normalMembers_eq_map, normalMembers_eq_map]
  exact putAll_map normal [] members

mutual

theorem dump_normal : ∀ {j : Json P}, Representable j → dump dumpFloat (normal j) = dump dumpFloat j
  | .null, _ | .bool _, _ | .int _, _ | .float _, _ | .str _, _ => rfl
  | .arr elements, h => by
    rw [normal, dump, dump, dumpElements_normal h]
  | .obj members, h => by
    have hsorted := (sorted_nil.putAll (normalMembers members))
    have htext : (normalMembers (putAll [] members)).map (memberText dumpFloat) =
        (putAll [] members).map (memberText dumpFloat) := by
      rw [normalMembers_eq_map, List.map_map]
      refine List.map_congr_left fun m hm => ?_
      have hmem : m ∈ members := (mem_putAll hm).resolve_left List.not_mem_nil
      rw [Function.comp_apply, memberText, memberText, dumpMember_normal h.2 m hmem]
    rw [normal, dump_obj, dump_obj, inOrder_eq hsorted.nodup, putAll_of_sorted hsorted,
      inOrder_eq h.1, normalMembers_putAll, htext]

theorem dumpElements_normal : ∀ {elements : List (Json P)}, RepresentableElements elements →
    dumpElements dumpFloat (normalElements elements) = dumpElements dumpFloat elements
  | [], _ => rfl
  | _ :: _, h => by
    rw [normalElements, dumpElements, dumpElements, dump_normal h.1, dumpElements_normal h.2]

theorem dumpMember_normal : ∀ {members : List (String × Json P)}, RepresentableMembers members →
    ∀ m ∈ members, dump dumpFloat (normal m.2) = dump dumpFloat m.2
  | [], _ => fun _ hm => absurd hm List.not_mem_nil
  | (_, _) :: _, h => List.forall_mem_cons.mpr
      ⟨dump_normal h.1, dumpMember_normal h.2⟩

end

/-- **Two values have the same text iff they differ in the order of members only.** -/
theorem dump_eq_iff (hformat : FloatFormat dumpFloat strtod) {j j' : Json P}
    (h : Representable j) (h' : Representable j') :
    dump dumpFloat j = dump dumpFloat j' ↔ normal j = normal j' := by
  constructor
  · intro htext
    have hparse := parse_dump hformat h
    rw [htext, parse_dump hformat h'] at hparse
    exact (Except.ok.inj hparse).symm
  · intro hnormal
    rw [← dump_normal h, hnormal, dump_normal h']

theorem dump_eq_iff_found :
    dump dumpWhole (.obj foundMembers) = dump dumpWhole (.obj foundMembers.reverse) ↔
      normal (.obj foundMembers) = normal (.obj foundMembers.reverse) := by
  refine dump_eq_iff whole_format representable_found ⟨by decide, ?_⟩
  simp [RepresentableMembers, Representable, foundMembers]

end P2PShopping.Json
