import Mathlib.Tactic.Common

/-! One program, started in two related states.

A program that respects a relation of states ends in related states again, with the same
value or the same exception. Every construct of a program keeps this, so that it is shown
along the program's text, with an obligation where the program reads or writes the state. -/
namespace Relational

variable {ε σ α β : Type}

/-- The same value or the same exception, in related states. -/
inductive SameResult (R : σ → σ → Prop) : EStateM.Result ε σ α → EStateM.Result ε σ α → Prop where
  | ok (a : α) {s t : σ} : R s t → SameResult R (.ok a s) (.ok a t)
  | error (e : ε) {s t : σ} : R s t → SameResult R (.error e s) (.error e t)

def Respects (R : σ → σ → Prop) (x : EStateM ε σ α) : Prop :=
  ∀ s t, R s t → SameResult R (x s) (x t)

variable {R : σ → σ → Prop} {x : EStateM ε σ α} {f : α → EStateM ε σ β}

theorem Respects.bind (hx : Respects R x) (hf : ∀ a, Respects R (f a)) : Respects R (x >>= f) := by
  intro s t h
  show SameResult R (EStateM.bind x f s) (EStateM.bind x f t)
  unfold EStateM.bind
  have hresult := hx s t h
  generalize x s = result, x t = result' at hresult ⊢
  cases hresult with
  | ok a h' => exact hf a _ _ h'
  | error e h' => exact .error e h'

theorem respects_pure (a : α) : Respects R (pure a : EStateM ε σ α) := fun _ _ h => .ok a h

theorem respects_modify {g : σ → σ} (h : ∀ s t, R s t → R (g s) (g t)) :
    Respects R (modify g : EStateM ε σ PUnit) := fun s t hst => .ok PUnit.unit (h s t hst)

/-- What is read from the state may go into the rest of the program as a whole. -/
theorem respects_get_bind {f : σ → EStateM ε σ β}
    (h : ∀ s t, R s t → SameResult R (f s s) (f t t)) : Respects R (get >>= f) := h

end Relational
