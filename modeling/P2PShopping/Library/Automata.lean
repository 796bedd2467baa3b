import Mathlib.Data.List.Induction
import Mathlib.Logic.Function.Basic

/-! Automata whose transitions are added under a key.

A transition is added for a source and an event, and is filed under what `key` makes
of the two; a later one under the same key replaces it. So a step takes the last
transition whose key is that of the state and the event (`reach_snoc`), and what the
choice of the key comes to is seen step by step: two automata with the same
transitions and different keys pass through the same states iff their keys select
transitions that lead to the same state, wherever the one of them gets
(`reach_agree_iff`). -/
namespace Automata

/-- `none` leads nowhere. -/
structure Transition (S E : Type) where
  source : S
  event : E
  handler : E → Option S

variable {S E K : Type}

structure Automaton (S E K : Type) where
  current : S
  table : K → Option (E → Option S) := fun _ => none

namespace Automaton

def add [DecidableEq K] (key : S → E → K) (a : Automaton S E K) (t : Transition S E) :
    Automaton S E K :=
  {a with table := Function.update a.table (key t.source t.event) (some t.handler)}

/-- Without a transition, or with one that leads nowhere, the state stays. -/
def process (key : S → E → K) (a : Automaton S E K) (e : E) : Automaton S E K :=
  match a.table (key a.current e) with
  | none => a
  | some handler => {a with current := (handler e).getD a.current}

/-- These transitions, added one after another. -/
def build [DecidableEq K] (key : S → E → K) (s : S) (ts : List (Transition S E)) :
    Automaton S E K :=
  ts.foldl (add key) {current := s}

end Automaton

open Automaton

/-! ### The last transition under a key -/

/-- The last transition that meets the condition. -/
def last (p : Transition S E → Bool) (ts : List (Transition S E)) : Option (Transition S E) :=
  ts.reverse.find? p

/-- Where a transition leads from `s`. -/
def moved (t : Option (Transition S E)) (s : S) (e : E) : S := (t.bind (·.handler e)).getD s

theorem last_snoc (p : Transition S E → Bool) (ts : List (Transition S E)) (t : Transition S E) :
    last p (ts ++ [t]) = if p t then some t else last p ts := by
  simp only [last, List.reverse_append, List.reverse_singleton, List.singleton_append,
    List.find?_cons]
  split <;> simp [*]

theorem last_congr {p q : Transition S E → Bool} {ts : List (Transition S E)}
    (h : ∀ t ∈ ts, p t = q t) : last p ts = last q ts := by
  induction ts using List.reverseRecOn with
  | nil => rfl
  | append_singleton ts t ih =>
    rw [last_snoc, last_snoc, h t (by simp), ih fun u hu => h u (by simp [hu])]

section Reach
variable [DecidableEq K] (key : S → E → K) (s : S) (ts : List (Transition S E))

/-- What is filed under `k`. -/
def filed (k : K) (t : Transition S E) : Bool := key t.source t.event = k

theorem build_snoc (t : Transition S E) :
    build key s (ts ++ [t]) = (build key s ts).add key t := by
  simp [build]

theorem build_table (k : K) :
    (build key s ts).table k = (last (filed key k) ts).map Transition.handler := by
  induction ts using List.reverseRecOn with
  | nil => rfl
  | append_singleton ts t ih =>
    rw [build_snoc, last_snoc, add, filed]
    by_cases hkey : key t.source t.event = k
    · subst hkey
      simp
    · simp only [Function.update_of_ne (Ne.symm hkey), ih, hkey, decide_false]
      rfl

theorem build_current : (build key s ts).current = s := by
  induction ts using List.reverseRecOn with
  | nil => rfl
  | append_singleton ts t ih => rw [build_snoc, add, ih]

/-! ### What is reached -/

/-- The state after these events. -/
def reach (es : List E) : S := (es.foldl (process key) (build key s ts)).current

omit [DecidableEq K] in
theorem process_table (a : Automaton S E K) (es : List E) :
    (es.foldl (process key) a).table = a.table := by
  induction es using List.reverseRecOn with
  | nil => rfl
  | append_singleton es e ih =>
    rw [List.foldl_append, List.foldl_cons, List.foldl_nil, process]
    split
    · exact ih
    · exact ih

@[simp] theorem reach_nil : reach key s ts [] = s := build_current key s ts

/-- **A step takes the last transition under the key of the state and the event.** -/
theorem reach_snoc (es : List E) (e : E) :
    reach key s ts (es ++ [e]) =
      moved (last (filed key (key (reach key s ts es) e)) ts) (reach key s ts es) e := by
  have htable : (es.foldl (process key) (build key s ts)).table = _ :=
    process_table key (build key s ts) es
  rw [reach, List.foldl_append, List.foldl_cons, List.foldl_nil, process, htable, build_table]
  change (match (last (filed key (key (reach key s ts es) e)) ts).map Transition.handler with
    | none => es.foldl (process key) (build key s ts)
    | some handler => _).current = _
  cases last (filed key (key (reach key s ts es) e)) ts with
  | none => rfl
  | some t => rfl

end Reach

/-! ### Two keys for the same transitions -/

section Keys
variable {K' : Type} [DecidableEq K] [DecidableEq K'] {key : S → E → K} {key' : S → E → K'}
  {s : S} {ts : List (Transition S E)} {es : List E}

/-- **Two keys lead through the same states** iff, wherever the second leads, the
transitions the two select lead to the same state. -/
theorem reach_agree_iff :
    (∀ front back, es = front ++ back → reach key s ts front = reach key' s ts front) ↔
      ∀ front e back, es = front ++ e :: back →
        moved (last (filed key (key (reach key' s ts front) e)) ts) (reach key' s ts front) e =
          moved (last (filed key' (key' (reach key' s ts front) e)) ts)
            (reach key' s ts front) e := by
  constructor
  · intro h front e back hes
    have hnext := h (front ++ [e]) back (by rw [hes, List.append_cons])
    rwa [reach_snoc, reach_snoc, h front (e :: back) hes] at hnext
  · intro h front
    induction front using List.reverseRecOn with
    | nil => simp
    | append_singleton front e ih =>
      intro back hes
      rw [← List.append_cons] at hes
      rw [reach_snoc, reach_snoc, ih (e :: back) hes]
      exact h front e back hes

/-- Keys that identify the same transitions with each step select the same ones. -/
theorem last_filed_congr {u : S} {e : E}
    (h : ∀ t ∈ ts, key t.source t.event = key u e ↔ key' t.source t.event = key' u e) :
    last (filed key (key u e)) ts = last (filed key' (key' u e)) ts :=
  last_congr fun t ht => by simpa [filed] using h t ht

end Keys

end Automata
