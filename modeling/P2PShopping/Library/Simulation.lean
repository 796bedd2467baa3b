import P2PShopping.Library.Runs
import Mathlib.Data.List.Forall2

/-! One machine that does what another may do.

A concrete machine is simulated by an abstract one if every concrete step from related
states has an abstract step that leads to related states again; `agree` says what the
two steps have in common. Then every concrete run has an abstract run that agrees with
it step by step (`Simulation.run`). A step may also have no counterpart, if nothing is
seen of it (`Refinement.run`, `WeakSimulation.run`). -/
namespace Runs

variable {S L O S' L' O' : Type}

structure Simulation (C : Machine S L O) (A : Machine S' L' O') where
  related : S → S' → Prop
  agree : L × O → L' × O' → Prop
  step : ∀ {c c' : S} {a : S'} {l : L} {o : O}, related c a → C.step c l = some (c', o) →
    ∃ l' o' a', A.step a l' = some (a', o') ∧ related c' a' ∧ agree (l, o) (l', o')

namespace Simulation
variable {C : Machine S L O} {A : Machine S' L' O'} (sim : Simulation C A)

/-- **Every concrete run is an abstract one.** -/
theorem run {c₀ c : S} {a₀ : S'} {tr : List (L × O)} (h₀ : sim.related c₀ a₀)
    (hrun : Run C c₀ tr c) :
    ∃ tr' a, Run A a₀ tr' a ∧ sim.related c a ∧ List.Forall₂ sim.agree tr tr' := by
  induction hrun with
  | start => exact ⟨[], a₀, .start, h₀, .nil⟩
  | snoc _ hstep ih =>
    obtain ⟨tr', a, habstract, hrelated, hagree⟩ := ih
    obtain ⟨l', o', a', hstep', hrelated', hagree'⟩ := sim.step hrelated hstep
    exact ⟨tr' ++ [(l', o')], a', .snoc habstract hstep', hrelated',
      List.rel_append hagree (.cons hagree' .nil)⟩

end Simulation

/-! ### Steps that another machine does not see -/

/-- The machine takes this step, or, where there is none, stays where it is. -/
def Machine.Does (A : Machine S L O) (s s' : S) : Option (L × O) → Prop
  | none => s' = s
  | some (l, o) => A.step s l = some (s', o)

/-- A concrete machine whose steps are, seen from above, a step or nothing. `inv` is what
the concrete states keep. -/
structure Refinement (C : Machine S L O) (A : Machine S' L' O') where
  inv : S → Prop
  up : S → S'
  view : L × O → Option (L' × O')
  step : ∀ {c c' : S} {l : L} {o : O}, inv c → C.step c l = some (c', o) →
    inv c' ∧ A.Does (up c) (up c') (view (l, o))

namespace Refinement
variable {C : Machine S L O} {A : Machine S' L' O'} (ref : Refinement C A)

/-- **What is seen of a concrete run is an abstract one.** -/
theorem run {c₀ c : S} {tr : List (L × O)} (h₀ : ref.inv c₀) (hrun : Run C c₀ tr c) :
    ref.inv c ∧ Run A (ref.up c₀) (tr.filterMap ref.view) (ref.up c) := by
  induction hrun with
  | start => exact ⟨h₀, .start⟩
  | @snoc tr c c' l o _ hstep ih =>
    obtain ⟨hinv, hseen⟩ := ref.step ih.1 hstep
    refine ⟨hinv, ?_⟩
    rw [List.filterMap_append]
    cases hview : ref.view (l, o) with
    | none =>
      rw [hview] at hseen
      rw [show ref.up c' = ref.up c from hseen, List.filterMap_cons_none hview,
        List.filterMap_nil, List.append_nil]
      exact ih.2
    | some e =>
      rw [hview] at hseen
      rw [List.filterMap_cons_some hview, List.filterMap_nil]
      exact .snoc ih.2 hseen

end Refinement

/-- A simulation in which a step may have no counterpart, as long as the same is seen of
both. The concrete steps meet `guard`. -/
structure WeakSimulation (C : Machine S L O) (A : Machine S' L' O') (V : Type) where
  related : S → S' → Prop
  guard : S → L → Prop
  seen : L × O → Option V
  seen' : L' × O' → Option V
  agree : V → V → Prop
  step : ∀ {c c' : S} {a : S'} {l : L} {o : O}, related c a → guard c l →
    C.step c l = some (c', o) →
    ∃ e a', A.Does a a' e ∧ related c' a' ∧ Option.Rel agree (seen (l, o)) (e.bind seen')

namespace WeakSimulation
variable {V : Type} {C : Machine S L O} {A : Machine S' L' O'} (sim : WeakSimulation C A V)

/-- **What is seen of a concrete run is seen of an abstract one.** -/
theorem run {c₀ c : S} {a₀ : S'} {tr : List (L × O)} (h₀ : sim.related c₀ a₀)
    (hrun : Run C c₀ tr c) (hguard : StepsMeet C sim.guard c₀ tr) :
    ∃ tr' a, Run A a₀ tr' a ∧ sim.related c a ∧
      List.Forall₂ sim.agree (tr.filterMap sim.seen) (tr'.filterMap sim.seen') := by
  induction hrun with
  | start => exact ⟨[], a₀, .start, h₀, .nil⟩
  | @snoc tr c c' l o hrun hstep ih =>
    obtain ⟨tr', a, habstract, hrelated, hagree⟩ := ih hguard.front
    obtain ⟨e, a', hdoes, hrelated', hseen⟩ := sim.step hrelated (hguard.last hrun) hstep
    have hlast : List.Forall₂ sim.agree ([(l, o)].filterMap sim.seen)
        (e.toList.filterMap sim.seen') := by
      cases e with
      | none =>
        cases hl : sim.seen (l, o) <;> rw [hl] at hseen <;> cases hseen
        simp [hl]
      | some e =>
        cases hl : sim.seen (l, o) <;> cases he : sim.seen' e <;>
          rw [hl, Option.bind_some, he] at hseen <;> cases hseen
        · simp [hl, he]
        · simpa [hl, he]
    have hseens : List.Forall₂ sim.agree ((tr ++ [(l, o)]).filterMap sim.seen)
        ((tr' ++ e.toList).filterMap sim.seen') := by
      rw [List.filterMap_append, List.filterMap_append]
      exact List.rel_append hagree hlast
    cases e with
    | none =>
      obtain rfl : a' = a := hdoes
      exact ⟨tr', a', habstract, hrelated', by simpa using hseens⟩
    | some e => exact ⟨tr' ++ [e], a', .snoc habstract hdoes, hrelated', hseens⟩

end WeakSimulation

end Runs
