import Mathlib.Data.List.Basic
import Std.Data.String.ToNat

/-! Decimal numerals in front of a separator.

A numeral has digits only, so a text that starts with one and goes on with a
character that is no digit says which number it starts with and what follows:
texts built from numbers and separators can be read back. -/
namespace Decimal

/-- Two lists cut at the first separator. -/
theorem append_sep_inj {α : Type} {c : α} {a a' b b' : List α} (ha : c ∉ a) (ha' : c ∉ a')
    (h : a ++ c :: b = a' ++ c :: b') : a = a' ∧ b = b' := by
  induction a generalizing a' with
  | nil =>
    cases a' with
    | nil => exact ⟨rfl, by simpa using h⟩
    | cons x xs =>
      obtain ⟨rfl, _⟩ : c = x ∧ _ := by simpa using h
      exact absurd (List.mem_cons_self ..) ha'
  | cons y ys ih =>
    cases a' with
    | nil =>
      obtain ⟨rfl, _⟩ : y = c ∧ _ := by simpa using h
      exact absurd (List.mem_cons_self ..) ha
    | cons x xs =>
      obtain ⟨rfl, htail⟩ : y = x ∧ ys ++ c :: b = xs ++ c :: b' := by simpa using h
      obtain ⟨rfl, rfl⟩ := ih (fun hy => ha (List.mem_cons_of_mem _ hy))
        (fun hx => ha' (List.mem_cons_of_mem _ hx)) htail
      exact ⟨rfl, rfl⟩

theorem notMem_repr {c : Char} (hc : c.isDigit = false) (n : Nat) : c ∉ n.repr.toList := by
  intro hmem
  rw [Nat.toList_repr] at hmem
  have := Nat.isDigit_of_mem_toDigits (by decide) (by decide) hmem
  rw [hc] at this
  cases this

/-- A numeral before a separator that is no digit is read back, and so is the rest. -/
theorem repr_sep_inj {c : Char} (hc : c.isDigit = false) {m n : Nat} {s t : String}
    (h : m.repr ++ (String.singleton c ++ s) = n.repr ++ (String.singleton c ++ t)) :
    m = n ∧ s = t := by
  have hlist : m.repr.toList ++ c :: s.toList = n.repr.toList ++ c :: t.toList := by
    simpa using congrArg String.toList h
  obtain ⟨hrepr, hrest⟩ := append_sep_inj (notMem_repr hc m) (notMem_repr hc n) hlist
  exact ⟨Nat.repr_inj.mp (String.toList_inj.mp hrepr), String.toList_inj.mp hrest⟩

end Decimal
