import Mathlib.Data.List.Induction
import Mathlib.Data.Nat.Find

/-! A cell that events write.

Each event puts a value into the cell, clears it, or lets it be. What the cell
holds after a list of events is what the last event that touched it put there, if
it put something (`value_eq_some_iff`). -/
namespace Cell

inductive Update (V : Type) where
  | keep
  | put (v : V)
  | clear

variable {E V : Type}

def Update.apply (old : Option V) : Update V → Option V
  | .keep => old
  | .put v => some v
  | .clear => none

/-- What is in the cell after these events, empty before them. -/
def value (u : E → Update V) (l : List E) : Option V :=
  l.foldl (fun old e => (u e).apply old) none

variable {u : E → Update V} {l : List E} {v : V}

@[simp] theorem value_nil (u : E → Update V) : value u [] = none := rfl

theorem value_snoc (u : E → Update V) (l : List E) (e : E) :
    value u (l ++ [e]) = (u e).apply (value u l) := by
  simp [value]

/-- An event whose value was put and not touched since. -/
def Last (u : E → Update V) (l : List E) (v : V) (i : Nat) : Prop :=
  (∃ e, l[i]? = some e ∧ u e = .put v) ∧ ∀ j e, i < j → l[j]? = some e → u e = .keep

theorem last_snoc {e : E} {i : Nat} :
    Last u (l ++ [e]) v i ↔ (i = l.length ∧ u e = .put v) ∨ (u e = .keep ∧ Last u l v i) := by
  constructor
  · intro hlast
    obtain ⟨⟨f, hf, hput⟩, hkeep⟩ := hlast
    rcases Nat.lt_trichotomy i l.length with hi | hi | hi
    · right
      refine ⟨hkeep l.length e hi (by simp), ⟨f, ?_, hput⟩, fun j g hj hg => ?_⟩
      · rwa [List.getElem?_append_left hi] at hf
      · have hjl : j < l.length := (List.getElem?_eq_some_iff.mp hg).1
        exact hkeep j g hj (by rwa [List.getElem?_append_left hjl])
    · subst hi
      have hef : e = f := by simpa using hf
      exact .inl ⟨rfl, hef ▸ hput⟩
    · have hlen := (List.getElem?_eq_some_iff.mp hf).1
      simp only [List.length_append, List.length_singleton] at hlen
      omega
  · intro hlast
    rcases hlast with ⟨rfl, hput⟩ | ⟨hlast, ⟨f, hf, hput⟩, hkeep⟩
    · refine ⟨⟨e, by simp, hput⟩, fun j g hj hg => ?_⟩
      have hlen := (List.getElem?_eq_some_iff.mp hg).1
      simp only [List.length_append, List.length_singleton] at hlen
      omega
    · have hi : i < l.length := (List.getElem?_eq_some_iff.mp hf).1
      refine ⟨⟨f, by rwa [List.getElem?_append_left hi], hput⟩, fun j g hj hg => ?_⟩
      by_cases hjl : j < l.length
      · exact hkeep j g hj (by rwa [List.getElem?_append_left hjl] at hg)
      · have hlen := (List.getElem?_eq_some_iff.mp hg).1
        simp only [List.length_append, List.length_singleton] at hlen
        obtain rfl : j = l.length := by omega
        have heg : e = g := by simpa using hg
        exact heg ▸ hlast

/-- **The last event that touched the cell decides.** -/
theorem value_eq_some_iff : value u l = some v ↔ ∃ i, Last u l v i := by
  induction l using List.reverseRecOn with
  | nil => simp [Last]
  | append_singleton l e ih =>
    rw [value_snoc]
    simp only [last_snoc, exists_or, exists_and_left, ← ih]
    cases u e <;> simp [Update.apply, eq_comm]

/-- The last event before a position. -/
theorem last_take {n i : Nat} :
    Last u (l.take n) v i ↔ i < n ∧ (∃ e, l[i]? = some e ∧ u e = .put v) ∧
      ∀ j e, i < j → j < n → l[j]? = some e → u e = .keep := by
  have htake : ∀ {j : Nat} {e : E}, (l.take n)[j]? = some e ↔ j < n ∧ l[j]? = some e := by
    intro j e
    rw [List.getElem?_take]
    split
    case isTrue hj => simp [hj]
    case isFalse hj => simp [hj]
  constructor
  · intro hlast
    obtain ⟨⟨e, he, hput⟩, hkeep⟩ := hlast
    obtain ⟨hi, he⟩ := htake.mp he
    exact ⟨hi, ⟨e, he, hput⟩, fun j f hij hj hf => hkeep j f hij (htake.mpr ⟨hj, hf⟩)⟩
  · intro hlast
    obtain ⟨hi, ⟨e, he, hput⟩, hkeep⟩ := hlast
    refine ⟨⟨e, htake.mpr ⟨hi, he⟩, hput⟩, fun j f hij hf => ?_⟩
    obtain ⟨hj, hf⟩ := htake.mp hf
    exact hkeep j f hij hj hf

/-- If a cell is touched after a position, some touch is the first. -/
theorem exists_first_touch {i : Nat} (h : ∃ n, i < n ∧ ∃ e, l[n]? = some e ∧ u e ≠ .keep) :
    ∃ n e, i < n ∧ l[n]? = some e ∧ u e ≠ .keep ∧
      ∀ j f, i < j → j < n → l[j]? = some f → u f = .keep := by
  classical
  obtain ⟨hin, e, he, htouch⟩ := Nat.find_spec h
  refine ⟨Nat.find h, e, hin, he, htouch, fun j f hij hj hf => ?_⟩
  by_contra hne
  exact Nat.find_min h hj ⟨hij, f, hf, hne⟩

end Cell
