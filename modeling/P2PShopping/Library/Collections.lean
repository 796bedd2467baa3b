import Mathlib.Data.List.AList
import Mathlib.Algebra.Ring.Nat
import Mathlib.Data.List.MinMax
import Mathlib.Data.List.Perm.Basic

/-! Bags indexed by position, maps indexed by key, and first minima.

A bag is a list whose elements leave by position; a map is an association list
without repeated keys. Both are counted with `List.countP`, so that an invariant
such as "at most one of these" is arithmetic: the lemmas here say by how much an
operation moves a count. The last sections say what `List.argmin` is, the first element
with the least key, and that repeating elements does not move it. -/
namespace Collections

/-! ### Bags -/

section Bag
variable {α : Type} {l : List α} {k : Nat} {x : α}

theorem perm_eraseIdx (h : l[k]? = some x) : (x :: l.eraseIdx k).Perm l := by
  obtain ⟨hk, rfl⟩ := List.getElem?_eq_some_iff.mp h
  exact List.getElem_cons_eraseIdx_perm hk

/-- What is taken out of one list can be taken out of another with the same elements. -/
theorem perm_take {l' : List α} (h : l'.Perm l) (hk : l'[k]? = some x) :
    ∃ k', l[k']? = some x ∧ (l'.eraseIdx k).Perm (l.eraseIdx k') := by
  obtain ⟨k', hk'⟩ := List.mem_iff_getElem?.mp (h.mem_iff.mp (List.mem_of_getElem? hk))
  exact ⟨k', hk', ((perm_eraseIdx hk).trans (h.trans (perm_eraseIdx hk').symm)).cons_inv⟩

/-- What leaves a bag was counted once. -/
theorem countP_eraseIdx (h : l[k]? = some x) (p : α → Bool) :
    (l.eraseIdx k).countP p + (if p x then 1 else 0) = l.countP p := by
  rw [← (perm_eraseIdx h).countP_eq p, List.countP_cons]

theorem countP_eraseIdx_le (l : List α) (k : Nat) (p : α → Bool) :
    (l.eraseIdx k).countP p ≤ l.countP p :=
  (List.eraseIdx_sublist l k).countP_le

/-- A replacement is counted instead of what it replaces. -/
theorem countP_set_add (h : l[k]? = some x) (y : α) (p : α → Bool) :
    (l.set k y).countP p + (if p x then 1 else 0) = l.countP p + (if p y then 1 else 0) := by
  have hk : k < l.length := (List.getElem?_eq_some_iff.mp h).1
  rw [(List.set_perm_cons_eraseIdx hk y).countP_eq p, List.countP_cons,
    ← countP_eraseIdx h p]
  omega

/-- A replacement is weighed instead of what it replaces. -/
theorem sum_map_set (h : l[k]? = some x) (y : α) (f : α → Nat) :
    ((l.set k y).map f).sum + f x = (l.map f).sum + f y := by
  have hk : k < l.length := (List.getElem?_eq_some_iff.mp h).1
  have hnew := ((List.set_perm_cons_eraseIdx hk y).map f).sum_nat
  have hold := ((perm_eraseIdx h).map f).sum_nat
  rw [List.map_cons, List.sum_cons] at hnew hold
  omega

theorem sum_map_eraseIdx (h : l[k]? = some x) (f : α → Nat) :
    ((l.eraseIdx k).map f).sum + f x = (l.map f).sum := by
  have hold := ((perm_eraseIdx h).map f).sum_nat
  rw [List.map_cons, List.sum_cons] at hold
  omega

theorem sum_map_eraseIdx_le (l : List α) (k : Nat) (f : α → Nat) :
    ((l.eraseIdx k).map f).sum ≤ (l.map f).sum := by
  cases h : l[k]? with
  | some x =>
    have herase := sum_map_eraseIdx h f
    omega
  | none => rw [List.eraseIdx_of_length_le (List.getElem?_eq_none_iff.mp h)]

theorem sum_map_le {f g : α → Nat} (h : ∀ x, f x ≤ g x) (l : List α) :
    (l.map f).sum ≤ (l.map g).sum := by
  induction l with
  | nil => exact Nat.le_refl 0
  | cons x rest ih =>
    have hx := h x
    rw [List.map_cons, List.map_cons, List.sum_cons, List.sum_cons]
    omega

theorem mem_of_mem_eraseIdx {y : α} (h : y ∈ l.eraseIdx k) : y ∈ l :=
  (List.eraseIdx_sublist l k).mem h

/-- What one element contributes is exchanged for what its replacement does. -/
theorem perm_filterMap_set {β : Type} (h : l[k]? = some x) (y : α) (f : α → Option β) :
    ((f x).toList ++ (l.set k y).filterMap f).Perm ((f y).toList ++ l.filterMap f) := by
  have hk : k < l.length := (List.getElem?_eq_some_iff.mp h).1
  have hcons : ∀ z : α, (z :: l.eraseIdx k).filterMap f =
      (f z).toList ++ (l.eraseIdx k).filterMap f := by
    intro z
    cases hz : f z <;> simp [hz]
  have hnew := (List.set_perm_cons_eraseIdx hk y).filterMap f
  have hold := (perm_eraseIdx h).filterMap f
  rw [hcons] at hnew hold
  exact (hnew.append_left _).trans
    ((List.perm_append_comm_assoc _ _ _).trans (hold.append_left _))

end Bag

/-! ### Maps -/

/-- `std::unordered_map`: a finite map, iterated in some order. -/
abbrev Map (K V : Type) := AList fun _ : K => V

namespace Map
variable {K V : Type} [DecidableEq K] {m : Map K V} {k : K} {v : V}

/-- The value under a key, with the key, and the rest. -/
theorem perm_erase_of_lookup (h : m.lookup k = some v) :
    m.entries.Perm (⟨k, v⟩ :: (m.erase k).entries) := by
  have hmem : k ∈ m.entries.keys := by
    rw [← List.dlookup_isSome, show m.entries.dlookup k = some v from h]
    rfl
  obtain ⟨b, l₁, l₂, hk, hl, he⟩ := List.exists_of_kerase hmem
  have hb : b = v := by
    have hlook : m.entries.dlookup k = some v := h
    rw [hl, List.dlookup_append, List.dlookup_eq_none.mpr hk, List.dlookup_cons_eq] at hlook
    simpa using hlook
  show m.entries.Perm (⟨k, v⟩ :: m.entries.kerase k)
  rw [he, hl, hb]
  exact List.perm_middle

theorem erase_of_lookup (h : m.lookup k = none) : m.erase k = m := by
  apply AList.ext
  exact List.kerase_of_notMem_keys (AList.lookup_eq_none.mp h)

variable (p : (Sigma fun _ : K => V) → Bool)

theorem countP_insert (m : Map K V) (k : K) (v : V) :
    (m.insert k v).entries.countP p = (m.erase k).entries.countP p + if p ⟨k, v⟩ then 1 else 0 := by
  rw [AList.entries_insert, List.countP_cons]
  rfl

theorem countP_erase_of_lookup (h : m.lookup k = some v) :
    (m.erase k).entries.countP p + (if p ⟨k, v⟩ then 1 else 0) = m.entries.countP p := by
  rw [(perm_erase_of_lookup h).countP_eq p, List.countP_cons]

theorem countP_erase_le (m : Map K V) (k : K) :
    (m.erase k).entries.countP p ≤ m.entries.countP p :=
  (List.kerase_sublist k m.entries).countP_le

theorem mem_entries_iff {e : Sigma fun _ : K => V} : e ∈ m.entries ↔ m.lookup e.1 = some e.2 :=
  AList.mem_lookup_iff.symm

/-- A map as a function of its keys, after a change. -/
theorem lookup_insert_eq_update (m : Map K V) (k : K) (v : V) :
    (fun k' => (m.insert k v).lookup k') = Function.update (fun k' => m.lookup k') k (some v) := by
  funext k'
  by_cases hk : k' = k
  · subst hk
    rw [AList.lookup_insert, Function.update_self]
  · rw [AList.lookup_insert_ne hk, Function.update_of_ne hk]

theorem lookup_erase_eq_update (m : Map K V) (k : K) :
    (fun k' => (m.erase k).lookup k') = Function.update (fun k' => m.lookup k') k none := by
  funext k'
  by_cases hk : k' = k
  · subst hk
    rw [AList.lookup_erase, Function.update_self]
  · rw [AList.lookup_erase_ne hk, Function.update_of_ne hk]

/-- Maps whose values look alike have entries that look alike. -/
theorem perm_map_entries {W : Type} (f : V → W) {m m' : Map K V}
    (h : ∀ k, (m.lookup k).map f = (m'.lookup k).map f) :
    (m.entries.map fun e => (e.1, f e.2)).Perm (m'.entries.map fun e => (e.1, f e.2)) := by
  have hnodup : ∀ m : Map K V, (m.entries.map fun e => (e.1, f e.2)).Nodup := by
    intro m
    refine List.Nodup.of_map Prod.fst ?_
    rw [List.map_map]
    exact m.nodupKeys
  have hmem : ∀ (m : Map K V) (k : K) (w : W),
      (k, w) ∈ (m.entries.map fun e => (e.1, f e.2)) ↔ (m.lookup k).map f = some w := by
    intro m k w
    rw [List.mem_map, Option.map_eq_some_iff]
    constructor
    · rintro ⟨e, he, hkw⟩
      obtain ⟨rfl, rfl⟩ := Prod.mk.inj hkw
      exact ⟨e.2, mem_entries_iff.mp he, rfl⟩
    · rintro ⟨v, hv, rfl⟩
      exact ⟨⟨k, v⟩, mem_entries_iff.mpr hv, rfl⟩
  refine (List.perm_ext_iff_of_nodup (hnodup m) (hnodup m')).mpr fun e => ?_
  rw [hmem, hmem, h]

end Map

/-! ### First minima -/

/-- The minimum that `argmin` returns splits the list: everything before it is
strictly larger, nothing after it is smaller. -/
theorem argmin_split {α β : Type} [LinearOrder β] (f : α → β) {l : List α} {m : α}
    (h : l.argmin f = some m) :
    ∃ before after, l = before ++ m :: after ∧ (∀ x ∈ before, f m < f x) ∧
      ∀ x ∈ after, f m ≤ f x := by
  induction l generalizing m with
  | nil => simp at h
  | cons a l ih =>
    rw [List.argmin_cons] at h
    cases hl : l.argmin f with
    | none =>
      obtain rfl : l = [] := List.argmin_eq_none.mp hl
      rw [hl] at h
      obtain rfl : a = m := Option.some.inj h
      exact ⟨[], [], rfl, by simp, by simp⟩
    | some c =>
      rw [hl] at h
      obtain ⟨before, after, rfl, hbefore, hafter⟩ := ih hl
      simp only at h
      split at h
      case isTrue hlt =>
        obtain rfl : c = m := Option.some.inj h
        exact ⟨a :: before, after, rfl, List.forall_mem_cons.mpr ⟨hlt, hbefore⟩, hafter⟩
      case isFalse hle =>
        obtain rfl : a = m := Option.some.inj h
        have hac : f a ≤ f c := le_of_not_gt hle
        refine ⟨[], before ++ c :: after, rfl, by simp, ?_⟩
        intro x hx
        rcases List.mem_append.mp hx with hx | hx
        · exact hac.trans (hbefore x hx).le
        · rcases List.mem_cons.mp hx with rfl | hx
          · exact hac
          · exact hac.trans (hafter x hx)

/-- A list that splits at a first minimum has it as its `argmin`. -/
theorem argmin_of_split {α β : Type} [LinearOrder β] (f : α → β) {before after : List α} {m : α}
    (hbefore : ∀ x ∈ before, f m < f x) (hafter : ∀ x ∈ after, f m ≤ f x) :
    (before ++ m :: after).argmin f = some m := by
  induction before with
  | nil =>
    rw [List.nil_append, List.argmin_cons]
    cases hl : after.argmin f with
    | none => rfl
    | some c => exact if_neg (hafter c (List.argmin_mem hl)).not_gt
  | cons a before ih =>
    obtain ⟨ha, hbefore⟩ := List.forall_mem_cons.mp hbefore
    rw [List.cons_append, List.argmin_cons, ih hbefore]
    exact if_pos ha

/-! ### Repeats -/

/-- The second list is the first with elements repeated, each after its first occurrence. -/
inductive Repeats {α : Type} : List α → List α → Prop where
  | nil : Repeats [] []
  | snoc {l l' : List α} {x : α} : Repeats l l' → Repeats (l ++ [x]) (l' ++ [x])
  | again {l l' : List α} {x : α} : Repeats l l' → x ∈ l → Repeats l (l' ++ [x])

theorem Repeats.refl {α : Type} (l : List α) : Repeats l l := by
  induction l using List.reverseRecOn with
  | nil => exact .nil
  | append_singleton l x ih => exact ih.snoc

theorem Repeats.eq_nil_iff {α : Type} {l l' : List α} (h : Repeats l l') : l' = [] ↔ l = [] := by
  induction h with
  | nil => exact Iff.rfl
  | snoc => simp
  | again _ hx => simp [List.ne_nil_of_mem hx]

/-- The first minimum comes before its repeats. -/
theorem Repeats.argmin_eq {α β : Type} [LinearOrder β] (f : α → β) {l l' : List α}
    (h : Repeats l l') : l'.argmin f = l.argmin f := by
  induction h with
  | nil => rfl
  | snoc _ ih => rw [List.argmin_concat, List.argmin_concat, ih]
  | @again l l' x _ hx ih =>
    rw [List.argmin_concat, ih]
    cases hmin : l.argmin f with
    | none => exact absurd (List.argmin_eq_none.mp hmin) (List.ne_nil_of_mem hx)
    | some m => exact if_neg (List.le_of_mem_argmin hx hmin).not_gt

end Collections
