import P2PShopping.Library.Runs
import Mathlib.Algebra.Ring.Nat

/-! Runs that come to an end.

A potential is a number that the steps of a run pay for: each step costs something, the
number falls by at least that much, so what a run has cost is never more than what the
potential was at its start (`Potential.total`). If besides a costly step is possible in
every state that is not yet done, then a run to a state that is done exists from
everywhere, and no run that goes on at a cost can miss one (`Potential.ends`). -/
namespace Runs

variable {S L O : Type} {M : Machine S L O}

theorem StepsMeet.cons {C : S → L → Prop} {s s' : S} {l : L} {o : O} {tr : List (L × O)}
    (hl : C s l) (hstep : M.step s l = some (s', o)) (h : StepsMeet M C s' tr) :
    StepsMeet M C s ((l, o) :: tr) := by
  intro a e b t htr hrun
  cases a with
  | nil =>
    obtain rfl := hrun.deterministic .start
    cases htr
    exact hl
  | cons x a =>
    obtain ⟨rfl, htail⟩ := List.cons.inj htr
    obtain ⟨t₁, hfirst, hrest⟩ := Run.split (a := [_]) (b := a) hrun
    obtain rfl := hfirst.deterministic (Run.one hstep)
    exact h a e b t htail hrest

/-- A number that the steps meeting `C` lower by what they cost. -/
structure Potential (M : Machine S L O) (C : S → L → Prop) where
  inv : S → Prop
  size : S → Nat
  cost : L × O → Nat
  step : ∀ {s s' : S} {l : L} {o : O}, inv s → C s l → M.step s l = some (s', o) →
    inv s' ∧ size s' + cost (l, o) ≤ size s

namespace Potential
variable {C : S → L → Prop} (V : Potential M C) {s₀ s : S} {tr : List (L × O)}

/-- **What a run costs, the potential has lost.** -/
theorem total (h₀ : V.inv s₀) (hrun : Run M s₀ tr s) (hC : StepsMeet M C s₀ tr) :
    V.inv s ∧ V.size s + (tr.map V.cost).sum ≤ V.size s₀ := by
  refine hrun.invariant_of C (fun tr s => V.inv s ∧ V.size s + (tr.map V.cost).sum ≤ V.size s₀)
    ⟨h₀, by simp⟩ ?_ hC
  intro tr s l s' o _ ih hl hstep
  obtain ⟨hinv, hfall⟩ := V.step ih.1 hl hstep
  refine ⟨hinv, ?_⟩
  rw [List.map_append, List.sum_append, List.map_singleton, List.sum_singleton]
  have hbefore := ih.2
  omega

theorem count_le (p : L × O → Bool) (hp : ∀ e, p e = true → 1 ≤ V.cost e) (tr : List (L × O)) :
    tr.countP p ≤ (tr.map V.cost).sum := by
  induction tr with
  | nil => simp
  | cons e rest ih =>
    rw [List.map_cons, List.sum_cons, List.countP_cons]
    cases he : p e with
    | false => simp only [Bool.false_eq_true, if_false]; omega
    | true =>
      have hcost := hp e he
      simp only [if_true]
      omega

/-- The steps that cost something are no more than the potential was. -/
theorem paid_le (p : L × O → Bool) (hp : ∀ e, p e = true → 1 ≤ V.cost e) (h₀ : V.inv s₀)
    (hrun : Run M s₀ tr s) (hC : StepsMeet M C s₀ tr) : tr.countP p ≤ V.size s₀ := by
  have htotal := (V.total h₀ hrun hC).2
  have hcount := V.count_le p hp tr
  omega

/-- **Where a costly step is always possible until all is done, a run gets it done.** -/
theorem ends (Done : S → Prop)
    (hgoes : ∀ s, V.inv s → ¬ Done s →
      ∃ l s' o, C s l ∧ M.step s l = some (s', o) ∧ 1 ≤ V.cost (l, o))
    (h₀ : V.inv s₀) : ∃ tr s, Run M s₀ tr s ∧ StepsMeet M C s₀ tr ∧ Done s := by
  induction hn : V.size s₀ using Nat.strongRecOn generalizing s₀ with
  | ind n ih =>
    by_cases hdone : Done s₀
    · exact ⟨[], s₀, .start, fun a e b s h => by simp at h, hdone⟩
    · obtain ⟨l, s₁, o, hl, hstep, hcost⟩ := hgoes s₀ h₀ hdone
      obtain ⟨hinv, hfall⟩ := V.step h₀ hl hstep
      obtain ⟨tr, s, hrun, hC, hend⟩ := ih (V.size s₁) (by omega) hinv rfl
      exact ⟨(l, o) :: tr, s, (Run.one hstep).append hrun, hC.cons hl hstep, hend⟩

end Potential

end Runs
