import Mathlib.Algebra.Order.Ring.Unbundled.Rat

/-! JSON values as the program handles them.

The text of a datagram is parsed by `nlohmann::json`; from there on the program
only looks keys up and converts values. Both can throw, and one of the two
lookups can do worse: `operator[]` on a constant object asserts that the key is
there. `Fault` keeps the two apart, since a thrown exception is caught in
`handleNewMessage` and a failed assertion is not. -/
namespace P2PShopping

/-- `double`, as far as the program uses it: a linear order and the casts from and
to integers. No NaN comes out of a JSON text or a stream extraction. -/
class Double (P : Type) extends LinearOrder P where
  /-- `static_cast<double>` of an integer. -/
  ofInt : Int → P
  /-- The integer part that `static_cast<int>` starts from. -/
  toInt : P → Int

/-- Exact values, for running the model. -/
instance : Double Rat where
  ofInt n := n
  toInt q := q.num.tdiv q.den

inductive Fault where
  /-- `json::type_error` with its id: thrown, and caught in `handleNewMessage`. -/
  | typeError (id : Nat)
  /-- The assertion of the constant `operator[]` on an object without the key. -/
  | missingKey (key : String)
deriving DecidableEq

/-- Whether the `catch` clauses of `handleNewMessage` see it. -/
def Fault.caught : Fault → Bool
  | .typeError _ => true
  | .missingKey _ => false

/-- `nlohmann::json`. Signed and unsigned integers are one constructor: every
conversion treats them alike. -/
inductive Json (P : Type) where
  | null
  | bool (b : Bool)
  | int (n : Int)
  | float (x : P)
  | str (s : String)
  | arr (elements : List (Json P))
  | obj (members : List (String × Json P))

namespace Json
variable {P : Type}

def contains : Json P → String → Bool
  | .obj members, key => (members.lookup key).isSome
  | _, _ => false

/-- `operator[]` on a `const json&`. -/
def index : Json P → String → Except Fault (Json P)
  | .obj members, key =>
    match members.lookup key with
    | some v => .ok v
    | none => .error (.missingKey key)
  | _, _ => .error (.typeError 305)

/-- `operator[]` on a `json&`: a missing key is inserted with a null, and a null
becomes an object first. The object after the access comes with the value. -/
def indexInsert : Json P → String → Except Fault (Json P × Json P)
  | .obj members, key =>
    match members.lookup key with
    | some v => .ok (v, .obj members)
    | none => .ok (.null, .obj (members ++ [(key, .null)]))
  | .null, key => .ok (.null, .obj [(key, .null)])
  | _, _ => .error (.typeError 305)

/-- `get<std::string>()`. -/
def getString : Json P → Except Fault String
  | .str s => .ok s
  | _ => .error (.typeError 302)

variable [Double P]

/-- `get<int>()`: any number, and a boolean. A float whose integer part is no `int` is
undefined behaviour in the source (x86-64 gives `INT_MIN`); it wraps here as an integer
does, and no proof looks at what comes of it. -/
def getInt : Json P → Except Fault Int32
  | .int n => .ok (Int32.ofInt n)
  | .float x => .ok (Int32.ofInt (Double.toInt x))
  | .bool b => .ok (if b then 1 else 0)
  | _ => .error (.typeError 302)

/-- `get<double>()`: any number. -/
def getDouble : Json P → Except Fault P
  | .int n => .ok (Double.ofInt n)
  | .float x => .ok x
  | _ => .error (.typeError 302)

omit [Double P]

/-- `value(key, default)`: the converted value, or the default if the key is missing. -/
def value {α : Type} (get : Json P → Except Fault α) (j : Json P) (key : String) (default : α) :
    Except Fault α :=
  match j with
  | .obj members =>
    match members.lookup key with
    | some v => get v
    | none => .ok default
  | _ => .error (.typeError 306)

/-- `j[key]`, converted by `get`, is `a`. -/
def Reads {α : Type} (get : Json P → Except Fault α) (j : Json P) (key : String) (a : α) : Prop :=
  ∃ v, j.index key = .ok v ∧ get v = .ok a

theorem Reads.unique {α : Type} {get : Json P → Except Fault α} {j : Json P} {key : String}
    {a b : α} (ha : Reads get j key a) (hb : Reads get j key b) : a = b := by
  obtain ⟨v, hv, hget⟩ := ha
  obtain ⟨w, hw, hget'⟩ := hb
  rw [hv] at hw
  cases hw
  rw [hget] at hget'
  exact Except.ok.inj hget'

/-- On an object, a key that cannot be read is a failed assertion. -/
theorem index_not_caught {α : Type} {get : Json P → Except Fault α} {j : Json P} {key key' : String}
    {a : α} {fault : Fault} (hread : j.Reads get key a) (h : j.index key' = .error fault) :
    fault.caught = false := by
  obtain ⟨v, hv, -⟩ := hread
  cases j with
  | obj members =>
    simp only [index] at h
    split at h <;> cases h
    rfl
  | _ => cases hv

/-! ### The accessors on values of the right kind -/

section Simp
variable (members : List (String × Json P)) (key : String)

@[simp] theorem getString_str (s : String) : getString (.str s : Json P) = .ok s := rfl

theorem getString_eq_ok {j : Json P} {s : String} : getString j = .ok s ↔ j = .str s := by
  cases j <;> simp [getString]

@[simp] theorem contains_obj :
    (Json.obj members).contains key = (members.lookup key).isSome := rfl

@[simp] theorem index_obj :
    (Json.obj members).index key =
      match members.lookup key with
      | some v => .ok v
      | none => .error (.missingKey key) := rfl

@[simp] theorem indexInsert_obj :
    (Json.obj members).indexInsert key =
      match members.lookup key with
      | some v => .ok (v, .obj members)
      | none => .ok (.null, .obj (members ++ [(key, .null)])) := rfl

@[simp] theorem value_obj {α : Type} (get : Json P → Except Fault α) (default : α) :
    (Json.obj members).value get key default =
      match members.lookup key with
      | some v => get v
      | none => .ok default := rfl

variable [Double P]

@[simp] theorem getInt_int (n : Int) : getInt (.int n : Json P) = .ok (Int32.ofInt n) := rfl

@[simp] theorem getDouble_float (x : P) : getDouble (.float x) = .ok x := rfl

end Simp

end Json

/-! ### Sequencing -/

@[simp] theorem ok_bind {α β : Type} (a : α) (f : α → Except Fault β) :
    (Except.ok a >>= f) = f a := rfl

@[simp] theorem error_bind {α β : Type} (e : Fault) (f : α → Except Fault β) :
    (Except.error e >>= f) = .error e := rfl

theorem bind_eq_ok {α β : Type} {x : Except Fault α} {f : α → Except Fault β} {b : β} :
    (x >>= f) = .ok b ↔ ∃ a, x = .ok a ∧ f a = .ok b := by
  cases x <;> simp

@[simp] theorem pure_eq_ok {α : Type} (a : α) : (pure a : Except Fault α) = .ok a := rfl

end P2PShopping
