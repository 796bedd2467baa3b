import Mathlib.Data.List.Perm.Basic
import Mathlib.Logic.Function.Basic
import Mathlib.Logic.Relation

/-! Traces: lists of letters up to swaps of neighbours that are independent.

What is folded over a list does not see such swaps if its step does not
(`Reordered.foldl_eq`), and a step that changes a table under one key commutes with a step
under another (`modifyAt_comm`). -/
namespace Traces

variable {L S K V : Type}

/-! ### Swaps -/

/-- Two neighbours that are independent change places. -/
inductive Swap (I : L → L → Prop) : List L → List L → Prop where
  | swap {a b : L} (front back : List L) : I a b →
      Swap I (front ++ a :: b :: back) (front ++ b :: a :: back)

/-- One list comes from the other by any number of swaps. -/
def Reordered (I : L → L → Prop) : List L → List L → Prop := Relation.ReflTransGen (Swap I)

section Reordered
variable {I : L → L → Prop} {ls ls' : List L}

theorem Swap.perm (h : Swap I ls ls') : ls.Perm ls' := by
  cases h with
  | swap front back => exact (List.Perm.swap _ _ back).append_left front

theorem Reordered.perm (h : Reordered I ls ls') : ls.Perm ls' := by
  induction h with
  | refl => exact .refl _
  | tail _ hswap ih => exact ih.trans hswap.perm

theorem Reordered.one {a b : L} (h : I a b) : Reordered I [a, b] [b, a] :=
  .single (.swap [] [] h)

/-- **A fold does not see the swaps that its step does not see.** -/
theorem Reordered.foldl_eq {step : S → L → S}
    (hcomm : ∀ s a b, I a b → step (step s a) b = step (step s b) a)
    (h : Reordered I ls ls') (s : S) : ls.foldl step s = ls'.foldl step s := by
  induction h with
  | refl => rfl
  | tail _ hswap ih =>
    rw [ih]
    cases hswap with
    | swap front back hind => simp only [List.foldl_append, List.foldl_cons, hcomm _ _ _ hind]

end Reordered

/-! ### Tables changed under one key -/

section Tables
variable [DecidableEq K]

def modifyAt (t : K → V) (k : K) (g : V → V) : K → V := Function.update t k (g (t k))

@[simp] theorem modifyAt_self (t : K → V) (k : K) (g : V → V) : modifyAt t k g k = g (t k) :=
  Function.update_self ..

theorem modifyAt_of_ne (t : K → V) {k k' : K} (h : k' ≠ k) (g : V → V) :
    modifyAt t k g k' = t k' :=
  Function.update_of_ne h ..

/-- Nothing changes where the change keeps what is there. -/
theorem modifyAt_eq_self {t : K → V} {k : K} {g : V → V} (h : g (t k) = t k) :
    modifyAt t k g = t := by
  rw [modifyAt, h, Function.update_eq_self]

theorem modifyAt_comm (t : K → V) {k k' : K} (h : k ≠ k') (g g' : V → V) :
    modifyAt (modifyAt t k g) k' g' = modifyAt (modifyAt t k' g') k g := by
  rw [modifyAt, modifyAt_of_ne t h.symm, modifyAt, modifyAt, modifyAt_of_ne t h, modifyAt,
    Function.update_comm h]

end Tables

end Traces
