import P2PShopping.Library.OrderedMaps
import P2PShopping.Wire.Lexer
import Mathlib.Data.String.Basic

/-! `json::parse` on the tokens of a text.

`sax_parse_internal` keeps a stack of flags, one for each array or object it is in, and
`json_sax_dom_parser` a stack of the containers themselves; here they are one stack of
frames. A text is a derivation of the grammar read off from left to right: `tokensOf`
is the grammar, with the members of an object in any order and repeated at will, and
`normal` what an `std::map` makes of them. -/
namespace P2PShopping.Json
open OrderedMaps

variable {P : Type}

/-! ### The parser -/

/-- `parse_error` 101 and `out_of_range` 406. -/
inductive ParseFault where
  | syntaxError
  | numberOverflow
deriving DecidableEq

/-- A container that is not closed yet. An object waits for the value of a key. -/
inductive Frame (P : Type) where
  | array (elements : List (Json P))
  | object (members : List (String × Json P)) (key : String)

mutual

/-- `sax_parse_internal` where a value has to come. -/
def parseValue : List (Token P) → List (Frame P) → Except ParseFault (Json P × List (Token P))
  | .beginObject :: .endObject :: rest, states => evaluateState rest states (.obj [])
  | .beginObject :: .valueString key :: .nameSeparator :: rest, states =>
    parseValue rest (.object [] key :: states)
  | .beginArray :: .endArray :: rest, states => evaluateState rest states (.arr [])
  | .beginArray :: rest, states => parseValue rest (.array [] :: states)
  | .valueFloat none :: _, _ => .error .numberOverflow
  | .valueFloat (some x) :: rest, states => evaluateState rest states (.float x)
  | .literalFalse :: rest, states => evaluateState rest states (.bool false)
  | .literalNull :: rest, states => evaluateState rest states .null
  | .literalTrue :: rest, states => evaluateState rest states (.bool true)
  | .valueInteger n :: rest, states => evaluateState rest states (.int n)
  | .valueString s :: rest, states => evaluateState rest states (.str s)
  | _, _ => .error .syntaxError

/-- The evaluation of the state, after the value `j`. -/
def evaluateState : List (Token P) → List (Frame P) → Json P →
    Except ParseFault (Json P × List (Token P))
  | rest, [], j => .ok (j, rest)
  | .valueSeparator :: rest, .array elements :: states, j =>
    parseValue rest (.array (elements ++ [j]) :: states)
  | .endArray :: rest, .array elements :: states, j =>
    evaluateState rest states (.arr (elements ++ [j]))
  | .valueSeparator :: .valueString next :: .nameSeparator :: rest, .object members key :: states,
      j => parseValue rest (.object (put members key j) next :: states)
  | .endObject :: rest, .object members key :: states, j =>
    evaluateState rest states (.obj (put members key j))
  | _, _, _ => .error .syntaxError

end

/-- `parser::parse` in strict mode: nothing may be left of the text. -/
def parseTokens (tokens : List (Token P)) : Except ParseFault (Json P) :=
  match parseValue tokens [] with
  | .ok (j, .endOfInput :: _) => .ok j
  | .ok _ => .error .syntaxError
  | .error fault => .error fault

def parse (strtod : List UInt8 → Option P) (text : List UInt8) : Except ParseFault (Json P) :=
  parseTokens (tokens strtod text)

/-! ### The grammar -/

mutual

/-- The tokens of a value, its members as they are written. -/
def tokensOf : Json P → List (Token P)
  | .null => [.literalNull]
  | .bool b => [if b then .literalTrue else .literalFalse]
  | .int n => [.valueInteger n]
  | .float x => [.valueFloat (some x)]
  | .str s => [.valueString s]
  | .arr [] => [.beginArray, .endArray]
  | .arr (j :: elements) => .beginArray :: tokensOf j ++ tokensOfElements elements
  | .obj [] => [.beginObject, .endObject]
  | .obj ((key, j) :: members) =>
    .beginObject :: .valueString key :: .nameSeparator :: tokensOf j ++ tokensOfMembers members

/-- What follows an element. -/
def tokensOfElements : List (Json P) → List (Token P)
  | [] => [.endArray]
  | j :: elements => .valueSeparator :: tokensOf j ++ tokensOfElements elements

/-- What follows a member. -/
def tokensOfMembers : List (String × Json P) → List (Token P)
  | [] => [.endObject]
  | (key, j) :: members =>
    .valueSeparator :: .valueString key :: .nameSeparator :: tokensOf j ++ tokensOfMembers members

end

mutual

/-- The value that is built from one as it is written. -/
def normal : Json P → Json P
  | .arr elements => .arr (normalElements elements)
  | .obj members => .obj (putAll [] (normalMembers members))
  | j => j

def normalElements : List (Json P) → List (Json P)
  | [] => []
  | j :: elements => normal j :: normalElements elements

def normalMembers : List (String × Json P) → List (String × Json P)
  | [] => []
  | (key, j) :: members => (key, normal j) :: normalMembers members

end

/-! ### What is derived is parsed -/

/-- No value begins with a closing bracket. -/
theorem parseValue_beginArray (j : Json P) (rest : List (Token P)) (states : List (Frame P)) :
    parseValue (.beginArray :: (tokensOf j ++ rest)) states =
      parseValue (tokensOf j ++ rest) (.array [] :: states) := by
  match j with
  | .null => rfl
  | .bool true => rfl
  | .bool false => rfl
  | .int n => rfl
  | .float x => rfl
  | .str s => rfl
  | .arr [] => rfl
  | .arr (_ :: _) => rfl
  | .obj [] => rfl
  | .obj (_ :: _) => rfl

mutual

theorem parseValue_tokensOf (j : Json P) (rest : List (Token P)) (states : List (Frame P)) :
    parseValue (tokensOf j ++ rest) states = evaluateState rest states (normal j) := by
  match j with
  | .null => rfl
  | .bool true => rfl
  | .bool false => rfl
  | .int n => rfl
  | .float x => rfl
  | .str s => rfl
  | .arr [] => rfl
  | .arr (j :: elements) =>
    rw [tokensOf, List.cons_append, List.cons_append, List.append_assoc, parseValue_beginArray,
      parseValue_tokensOf, evaluateState_elements]
    rfl
  | .obj [] => rfl
  | .obj ((key, j) :: members) =>
    simp only [tokensOf, List.cons_append, List.append_assoc, parseValue]
    rw [parseValue_tokensOf, evaluateState_members]
    rfl

theorem evaluateState_elements (elements : List (Json P)) (rest : List (Token P))
    (states : List (Frame P)) (done : List (Json P)) (j : Json P) :
    evaluateState (tokensOfElements elements ++ rest) (.array done :: states) j =
      evaluateState rest states (.arr (done ++ j :: normalElements elements)) := by
  match elements with
  | [] => rfl
  | next :: elements =>
    simp only [tokensOfElements, List.cons_append, List.append_assoc, evaluateState]
    rw [parseValue_tokensOf, evaluateState_elements, normalElements, List.append_assoc]
    rfl

theorem evaluateState_members (members : List (String × Json P)) (rest : List (Token P))
    (states : List (Frame P)) (done : List (String × Json P)) (key : String) (j : Json P) :
    evaluateState (tokensOfMembers members ++ rest) (.object done key :: states) j =
      evaluateState rest states (.obj (putAll (put done key j) (normalMembers members))) := by
  match members with
  | [] => rfl
  | (next, value) :: members =>
    simp only [tokensOfMembers, List.cons_append, List.append_assoc, evaluateState]
    rw [parseValue_tokensOf, evaluateState_members]
    rfl

end

/-! ### What is parsed is derived -/

/-- What `n` tokens can show of the parser: a value has come first, -/
def ValueFirst (P : Type) (n : Nat) : Prop :=
  ∀ (ts : List (Token P)) (states : List (Frame P)) r, ts.length ≤ n →
    parseValue ts states = .ok r →
    ∃ j rest, ts = tokensOf j ++ rest ∧ evaluateState rest states (normal j) = .ok r

/-- an array is closed, -/
def ElementsFirst (P : Type) (n : Nat) : Prop :=
  ∀ (ts : List (Token P)) (states : List (Frame P)) done j r, ts.length ≤ n →
    evaluateState ts (.array done :: states) j = .ok r →
    ∃ elements rest, ts = tokensOfElements elements ++ rest ∧
      evaluateState rest states (.arr (done ++ j :: normalElements elements)) = .ok r

/-- and an object is. -/
def MembersFirst (P : Type) (n : Nat) : Prop :=
  ∀ (ts : List (Token P)) (states : List (Frame P)) done key j r, ts.length ≤ n →
    evaluateState ts (.object done key :: states) j = .ok r →
    ∃ members rest, ts = tokensOfMembers members ++ rest ∧
      evaluateState rest states (.obj (putAll (put done key j) (normalMembers members))) = .ok r

theorem tokensOf_pos (j : Json P) : 0 < (tokensOf j).length := by
  match j with
  | .null | .bool _ | .int _ | .float _ | .str _ | .arr [] | .arr (_ :: _) | .obj []
  | .obj (_ :: _) => simp [tokensOf]

theorem evaluate_array {ts : List (Token P)} {states : List (Frame P)} {done : List (Json P)}
    {j : Json P} {r : Json P × List (Token P)}
    (h : evaluateState ts (.array done :: states) j = .ok r) :
    (∃ rest, ts = .endArray :: rest ∧ evaluateState rest states (.arr (done ++ [j])) = .ok r) ∨
    (∃ rest, ts = .valueSeparator :: rest ∧
      parseValue rest (.array (done ++ [j]) :: states) = .ok r) := by
  unfold evaluateState at h
  split at h
  case h_1 => simp_all
  case h_2 heq =>
    cases heq
    exact .inr ⟨_, rfl, h⟩
  case h_3 heq =>
    cases heq
    exact .inl ⟨_, rfl, h⟩
  case h_4 heq => cases heq
  case h_5 heq => cases heq
  case h_6 => cases h

theorem evaluate_object {ts : List (Token P)} {states : List (Frame P)}
    {done : List (String × Json P)} {key : String} {j : Json P} {r : Json P × List (Token P)}
    (h : evaluateState ts (.object done key :: states) j = .ok r) :
    (∃ rest, ts = .endObject :: rest ∧
      evaluateState rest states (.obj (put done key j)) = .ok r) ∨
    (∃ next rest, ts = .valueSeparator :: .valueString next :: .nameSeparator :: rest ∧
      parseValue rest (.object (put done key j) next :: states) = .ok r) := by
  unfold evaluateState at h
  split at h
  case h_1 heq => cases heq
  case h_2 heq => cases heq
  case h_3 heq => cases heq
  case h_4 heq =>
    cases heq
    exact .inr ⟨_, _, rfl, h⟩
  case h_5 heq =>
    cases heq
    exact .inl ⟨_, rfl, h⟩
  case h_6 => cases h

theorem elementsFirst_step {n : Nat} (hvalue : ValueFirst P n) (helements : ElementsFirst P n) :
    ElementsFirst P (n + 1) := by
  intro ts states done j r hlen h
  obtain ⟨rest, rfl, h⟩ | ⟨ts, rfl, h⟩ := evaluate_array h
  · exact ⟨[], rest, rfl, h⟩
  · simp only [List.length_cons] at hlen
    obtain ⟨next, rest, rfl, hnext⟩ := hvalue ts _ r (by omega) h
    rw [List.length_append] at hlen
    obtain ⟨elements, rest, rfl, hdone⟩ := helements rest _ _ _ r (by omega) hnext
    refine ⟨next :: elements, rest, by simp [tokensOfElements], ?_⟩
    rwa [List.append_assoc, List.singleton_append] at hdone

theorem membersFirst_step {n : Nat} (hvalue : ValueFirst P n) (hmembers : MembersFirst P n) :
    MembersFirst P (n + 1) := by
  intro ts states done key j r hlen h
  obtain ⟨rest, rfl, h⟩ | ⟨next, ts, rfl, h⟩ := evaluate_object h
  · exact ⟨[], rest, rfl, h⟩
  · simp only [List.length_cons] at hlen
    obtain ⟨value, rest, rfl, hvalue'⟩ := hvalue ts _ r (by omega) h
    rw [List.length_append] at hlen
    obtain ⟨members, rest, rfl, hdone⟩ := hmembers rest _ _ _ _ r (by omega) hvalue'
    exact ⟨(next, value) :: members, rest, by simp [tokensOfMembers], hdone⟩

theorem valueFirst_step {n : Nat} (hvalue : ValueFirst P n) (helements : ElementsFirst P n)
    (hmembers : MembersFirst P n) : ValueFirst P (n + 1) := by
  intro ts states r hlen h
  unfold parseValue at h
  split at h
  case h_1 rest => exact ⟨.obj [], rest, rfl, h⟩
  case h_2 key ts =>
    simp only [List.length_cons] at hlen
    obtain ⟨value, rest, rfl, hvalue'⟩ := hvalue ts _ r (by omega) h
    rw [List.length_append] at hlen
    obtain ⟨members, rest, rfl, hdone⟩ := hmembers rest _ _ _ _ r (by omega) hvalue'
    exact ⟨.obj ((key, value) :: members), rest, by simp [tokensOf], hdone⟩
  case h_3 rest => exact ⟨.arr [], rest, rfl, h⟩
  case h_4 ts _ =>
    simp only [List.length_cons] at hlen
    obtain ⟨first, rest, rfl, hfirst⟩ := hvalue ts _ r (by omega) h
    rw [List.length_append] at hlen
    obtain ⟨elements, rest, rfl, hdone⟩ := helements rest _ _ _ r (by omega) hfirst
    exact ⟨.arr (first :: elements), rest, by simp [tokensOf], hdone⟩
  case h_5 => cases h
  case h_6 x rest => exact ⟨.float x, rest, rfl, h⟩
  case h_7 rest => exact ⟨.bool false, rest, rfl, h⟩
  case h_8 rest => exact ⟨.null, rest, rfl, h⟩
  case h_9 rest => exact ⟨.bool true, rest, rfl, h⟩
  case h_10 n rest => exact ⟨.int n, rest, rfl, h⟩
  case h_11 s rest => exact ⟨.str s, rest, rfl, h⟩
  case h_12 => cases h

theorem parsed_derived (n : Nat) : ValueFirst P n ∧ ElementsFirst P n ∧ MembersFirst P n := by
  induction n with
  | zero =>
    refine ⟨?_, ?_, ?_⟩
    · intro ts states r hlen h
      obtain rfl := List.length_eq_zero_iff.mp (Nat.le_zero.mp hlen)
      cases h
    · intro ts states done j r hlen h
      obtain rfl := List.length_eq_zero_iff.mp (Nat.le_zero.mp hlen)
      cases h
    · intro ts states done key j r hlen h
      obtain rfl := List.length_eq_zero_iff.mp (Nat.le_zero.mp hlen)
      cases h
  | succ n ih =>
    obtain ⟨hvalue, helements, hmembers⟩ := ih
    exact ⟨valueFirst_step hvalue helements hmembers, elementsFirst_step hvalue helements,
      membersFirst_step hvalue hmembers⟩

theorem parse_eq_ok_iff {strtod : List UInt8 → Option P} {text : List UInt8} {v : Json P} :
    parse strtod text = .ok v ↔
      ∃ j rest, tokens strtod text = tokensOf j ++ .endOfInput :: rest ∧ v = normal j := by
  unfold parse parseTokens
  constructor
  · intro h
    split at h
    case h_1 w rest hparse =>
      cases h
      obtain ⟨j, rest', htokens, heval⟩ :=
        (parsed_derived _).1 (tokens strtod text) [] _ le_rfl hparse
      cases rest' with
      | nil => cases heval
      | cons t rest' =>
        cases heval
        exact ⟨j, _, htokens, rfl⟩
    case h_2 => cases h
    case h_3 => cases h
  · intro ⟨j, rest, htokens, hv⟩
    rw [htokens, parseValue_tokensOf, hv]
    rfl

theorem tokensFrom_end {strtod : List UInt8 → Option P} {fuel : Nat} {bytes : List UInt8}
    {ts us : List (Token P)} {t : Token P} (h : tokensFrom strtod fuel bytes = ts ++ t :: us)
    (hlast : t.last = true) : us = [] := by
  induction fuel generalizing bytes ts with
  | zero => simp [tokensFrom] at h
  | succ fuel ih =>
    simp only [tokensFrom] at h
    split at h
    case isTrue =>
      have hlength := congrArg List.length h
      simp only [List.length_append, List.length_cons, List.length_nil] at hlength
      exact List.length_eq_zero_iff.mp (by omega)
    case isFalse hfirst =>
      cases ts with
      | nil =>
        obtain ⟨rfl, -⟩ := List.cons.inj h
        exact absurd hlast hfirst
      | cons t' ts => exact ih (List.cons.inj h).2

/-- **The parser accepts the texts whose tokens the grammar derives, and gives the value
they are built to.** -/
theorem parse_iff_derivation {strtod : List UInt8 → Option P} {text : List UInt8} {v : Json P} :
    parse strtod text = .ok v ↔
      ∃ j, tokens strtod text = tokensOf j ++ [.endOfInput] ∧ v = normal j := by
  rw [parse_eq_ok_iff]
  constructor
  · intro ⟨j, rest, htokens, hv⟩
    have hrest : rest = [] := by
      have hend := htokens
      rw [tokens] at hend
      split at hend
      case h_1 =>
        have hlength := congrArg List.length hend
        simp only [List.length_append, List.length_cons, List.length_nil] at hlength
        exact List.length_eq_zero_iff.mp (by omega)
      case h_2 => exact tokensFrom_end hend rfl
    exact ⟨j, hrest ▸ htokens, hv⟩
  · intro ⟨j, htokens, hv⟩
    exact ⟨j, [], htokens, hv⟩

end P2PShopping.Json
