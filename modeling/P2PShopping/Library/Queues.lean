import Mathlib.Data.List.Basic
import Mathlib.Data.List.Induction
import Mathlib.Logic.Function.Basic

/-! A list with repeated keys, as one queue for each key.

Entries are appended at the end, and the first one with a key is found and erased.
Seen through one key that is a first-in-first-out queue (`queue_append`,
`queue_eraseP`, `find?_val`), so a list that is only used in this way is what a
family of independent queues comes to, operation by operation. -/
namespace Queues

variable {α K V : Type} [DecidableEq K]

/-- The values of the entries with the key, oldest first. -/
def queue (key : α → K) (val : α → V) (l : List α) (k : K) : List V :=
  (l.filter (key · = k)).map val

section Queue
variable (key : α → K) (val : α → V)

@[simp] theorem queue_nil : queue key val [] = fun _ => [] := rfl

theorem queue_append (l : List α) (a : α) :
    queue key val (l ++ [a]) =
      Function.update (queue key val l) (key a) (queue key val l (key a) ++ [val a]) := by
  funext k
  by_cases hk : k = key a
  · subst hk
    simp [queue]
  · rw [Function.update_of_ne hk]
    simp [queue, Ne.symm hk]

theorem queue_eraseP (l : List α) (k : K) :
    queue key val (l.eraseP (key · = k)) =
      Function.update (queue key val l) k (queue key val l k).tail := by
  induction l with
  | nil =>
    funext k'
    by_cases hk : k' = k
    · subst hk
      simp
    · simp
  | cons a l ih =>
    by_cases ha : key a = k
    · rw [List.eraseP_cons_of_pos (by simpa using ha)]
      funext k'
      by_cases hk : k' = k
      · subst hk
        simp [queue, ha]
      · rw [Function.update_of_ne hk]
        simp [queue, ha, Ne.symm hk]
    · rw [List.eraseP_cons_of_neg (by simpa using ha)]
      funext k'
      have hrest := congrFun ih k'
      by_cases hk : k' = k
      · subst hk
        rw [Function.update_self] at hrest ⊢
        simpa [queue, ha] using hrest
      · rw [Function.update_of_ne hk] at hrest ⊢
        by_cases hak : key a = k'
        · simpa [queue, hak] using hrest
        · simpa [queue, hak] using hrest

/-- The first entry with a key is the head of its queue. -/
theorem find?_val (l : List α) (k : K) :
    (l.find? (key · = k)).map val = (queue key val l k).head? := by
  rw [queue, List.head?_map, List.head?_filter]

end Queue

/-! ### Queues on their own -/

inductive Op (K V : Type) where
  | put (k : K) (v : V)
  /-- The oldest value leaves, if there is one. -/
  | take (k : K)

def Op.key : Op K V → K
  | .put k _ => k
  | .take k => k

def Op.apply (q : K → List V) : Op K V → K → List V
  | .put k v => Function.update q k (q k ++ [v])
  | .take k => Function.update q k (q k).tail

/-- What the queues hold after these operations, empty before them. -/
def contents (ops : List (Op K V)) : K → List V := ops.foldl Op.apply fun _ => []

@[simp] theorem contents_nil : contents ([] : List (Op K V)) = fun _ => [] := rfl

theorem contents_snoc (ops : List (Op K V)) (op : Op K V) :
    contents (ops ++ [op]) = op.apply (contents ops) := by
  simp [contents]

theorem Op.apply_congr (op : Op K V) {q q' : K → List V} {k : K} (h : q k = q' k) :
    op.apply q k = op.apply q' k := by
  cases op with
  | put k' v =>
    by_cases hk : k = k'
    · subst hk
      simp [Op.apply, h]
    · simp [Op.apply, hk, h]
  | take k' =>
    by_cases hk : k = k'
    · subst hk
      simp [Op.apply, h]
    · simp [Op.apply, hk, h]

theorem Op.apply_of_ne (op : Op K V) (q : K → List V) {k : K} (h : op.key ≠ k) :
    op.apply q k = q k := by
  cases op with
  | put k' v => exact Function.update_of_ne (Ne.symm h) _ _
  | take k' => exact Function.update_of_ne (Ne.symm h) _ _

/-- **A queue is filled and emptied by the operations on its own key.** -/
theorem contents_own (ops : List (Op K V)) (k : K) :
    contents (ops.filter (·.key = k)) k = contents ops k := by
  induction ops using List.reverseRecOn with
  | nil => rfl
  | append_singleton ops op ih =>
    rw [List.filter_append, contents_snoc]
    by_cases hk : op.key = k
    · rw [List.filter_singleton, decide_eq_true hk, cond_true, contents_snoc]
      exact op.apply_congr ih
    · rw [List.filter_singleton, decide_eq_false hk, cond_false, List.append_nil,
        op.apply_of_ne _ hk]
      exact ih

end Queues
