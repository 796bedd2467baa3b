import Mathlib.Data.List.Perm.Basic
import Mathlib.Order.Lattice
import Mathlib.Data.List.Nodup

/-! Maps as lists in the order of their keys.

`put` is the assignment to `m[k]` of an ordered map. A list whose keys increase is
determined by what its keys have (`ext_lookup`), so that it does not matter in which
order different keys are assigned to; of several assignments to a key the last counts. -/
namespace OrderedMaps

variable {K V : Type} [LinearOrder K]

def put (members : List (K × V)) (k : K) (v : V) : List (K × V) :=
  match members with
  | [] => [(k, v)]
  | m :: rest =>
    if k < m.1 then (k, v) :: m :: rest
    else if k = m.1 then (k, v) :: rest
    else m :: put rest k v

/-- One assignment after the other. -/
def putAll (members entries : List (K × V)) : List (K × V) :=
  entries.foldl (fun m e => put m e.1 e.2) members

/-- The keys increase. -/
def Sorted (members : List (K × V)) : Prop := (members.map Prod.fst).Pairwise (· < ·)

theorem mem_keys_put {members : List (K × V)} {k x : K} {v : V} :
    x ∈ (put members k v).map Prod.fst ↔ x = k ∨ x ∈ members.map Prod.fst := by
  induction members with
  | nil => simp [put]
  | cons m rest ih =>
    rw [put]
    split_ifs with hlt heq
    · simp
    · subst heq
      simp
    · simp only [List.map_cons, List.mem_cons, ih]
      tauto

theorem Sorted.put {members : List (K × V)} (h : Sorted members) (k : K) (v : V) :
    Sorted (put members k v) := by
  induction members with
  | nil => exact List.pairwise_singleton _ _
  | cons m rest ih =>
    obtain ⟨hfirst, hrest⟩ := List.pairwise_cons.mp h
    rw [OrderedMaps.put]
    split_ifs with hlt heq
    · refine List.pairwise_cons.mpr ⟨fun x hx => ?_, h⟩
      rcases List.mem_cons.mp hx with rfl | hx
      · exact hlt
      · exact lt_trans hlt (hfirst x hx)
    · subst heq
      exact h
    · refine List.pairwise_cons.mpr ⟨fun x hx => ?_, ih hrest⟩
      rcases mem_keys_put.mp hx with rfl | hx
      · exact lt_of_le_of_ne (not_lt.mp hlt) (Ne.symm heq)
      · exact hfirst x hx

theorem Sorted.putAll {members : List (K × V)} (h : Sorted members) (entries : List (K × V)) :
    Sorted (putAll members entries) := by
  induction entries generalizing members with
  | nil => exact h
  | cons e entries ih => exact ih (h.put e.1 e.2)

theorem mem_put {members : List (K × V)} {k : K} {v : V} {m : K × V}
    (h : m ∈ put members k v) : m = (k, v) ∨ m ∈ members := by
  induction members with
  | nil => exact .inl (List.mem_singleton.mp h)
  | cons first rest ih =>
    rw [put] at h
    split_ifs at h with hlt heq
    · exact List.mem_cons.mp h
    · rcases List.mem_cons.mp h with hm | hm
      · exact .inl hm
      · exact .inr (List.mem_cons_of_mem _ hm)
    · rcases List.mem_cons.mp h with hm | hm
      · exact .inr (hm ▸ List.mem_cons_self ..)
      · exact (ih hm).imp_right (List.mem_cons_of_mem _)

theorem mem_putAll {members entries : List (K × V)} {m : K × V}
    (h : m ∈ putAll members entries) : m ∈ members ∨ m ∈ entries := by
  induction entries generalizing members with
  | nil => exact .inl h
  | cons e entries ih =>
    rcases ih h with hm | hm
    · exact (mem_put hm).elim (fun heq => .inr (heq ▸ List.mem_cons_self ..)) .inl
    · exact .inr (List.mem_cons_of_mem _ hm)

/-- Values may be converted before or after. -/
theorem put_map {W : Type} (f : V → W) (members : List (K × V)) (k : K) (v : V) :
    put (members.map fun m => (m.1, f m.2)) k (f v) =
      (put members k v).map fun m => (m.1, f m.2) := by
  induction members with
  | nil => rfl
  | cons m rest ih =>
    rw [List.map_cons, put, put, ih]
    split_ifs <;> rfl

theorem putAll_map {W : Type} (f : V → W) (members entries : List (K × V)) :
    putAll (members.map fun m => (m.1, f m.2)) (entries.map fun m => (m.1, f m.2)) =
      (putAll members entries).map fun m => (m.1, f m.2) := by
  induction entries generalizing members with
  | nil => rfl
  | cons e entries ih =>
    rw [List.map_cons, putAll, List.foldl_cons, ← putAll, put_map, ih]
    rfl

theorem sorted_nil : Sorted ([] : List (K × V)) := .nil

theorem Sorted.nodup {l : List (K × V)} (h : Sorted l) : (l.map Prod.fst).Nodup :=
  List.Pairwise.imp (fun hlt => ne_of_lt hlt) h

section Lookup
variable [BEq K] [LawfulBEq K]

theorem lookup_cons_eq (k : K) (v : V) (members : List (K × V)) (x : K) :
    ((k, v) :: members).lookup x = if x = k then some v else members.lookup x := by
  rw [List.lookup_cons]
  by_cases hx : x = k
  · simp [hx]
  · rw [beq_false_of_ne hx, if_neg hx]

theorem lookup_put (members : List (K × V)) (k : K) (v : V) (x : K) :
    (put members k v).lookup x = if x = k then some v else members.lookup x := by
  induction members with
  | nil => rw [put, lookup_cons_eq]
  | cons m rest ih =>
    obtain ⟨k', w⟩ := m
    rw [put]
    by_cases hlt : k < k'
    · rw [if_pos hlt, lookup_cons_eq]
    · rw [if_neg hlt, lookup_cons_eq k' w rest x]
      by_cases heq : k = k'
      · subst heq
        rw [if_pos rfl, lookup_cons_eq]
        by_cases hx : x = k <;> simp [hx]
      · rw [if_neg heq, lookup_cons_eq, ih]
        by_cases hx : x = k'
        · subst hx
          rw [if_pos rfl, if_pos rfl, if_neg (Ne.symm heq)]
        · rw [if_neg hx, if_neg hx]

/-- **The last assignment to a key counts.** -/
theorem lookup_putAll (members entries : List (K × V)) (x : K) :
    (putAll members entries).lookup x = (entries.reverse ++ members).lookup x := by
  induction entries generalizing members with
  | nil => rfl
  | cons e entries ih =>
    obtain ⟨k, v⟩ := e
    have hput : ∀ front : List (K × V),
        (front ++ put members k v).lookup x = (front ++ (k, v) :: members).lookup x := by
      intro front
      rw [List.lookup_append, List.lookup_append, lookup_put, lookup_cons_eq]
    rw [putAll, List.foldl_cons, ← putAll, ih, List.reverse_cons, List.append_assoc, hput]
    rfl

omit [LinearOrder K] in
theorem lookup_eq_none {members : List (K × V)} {x : K} :
    members.lookup x = none ↔ x ∉ members.map Prod.fst := by
  rw [List.lookup_eq_none_iff]
  simp only [List.mem_map, not_exists, not_and, bne_iff_ne]
  exact ⟨fun h p hp hx => h p hp hx.symm, fun h p hp hx => h p hp hx.symm⟩

/-- The first key is the least. -/
theorem Sorted.le_of_lookup {m : K × V} {rest : List (K × V)} (h : Sorted (m :: rest)) {x : K}
    (hx : (m :: rest).lookup x ≠ none) : m.1 ≤ x := by
  rw [ne_eq, lookup_eq_none, not_not] at hx
  rcases List.mem_cons.mp hx with rfl | hx
  · exact le_rfl
  · exact le_of_lt ((List.pairwise_cons.mp h).1 x hx)

/-- **A list whose keys increase is what it has under each key.** -/
theorem ext_lookup {l l' : List (K × V)} (hl : Sorted l) (hl' : Sorted l')
    (h : ∀ x, l.lookup x = l'.lookup x) : l = l' := by
  induction l generalizing l' with
  | nil =>
    cases l' with
    | nil => rfl
    | cons m' rest' =>
      have hfirst := h m'.1
      rw [lookup_cons_eq, if_pos rfl] at hfirst
      cases hfirst
  | cons m rest ih =>
    cases l' with
    | nil =>
      have hfirst := h m.1
      rw [lookup_cons_eq, if_pos rfl] at hfirst
      cases hfirst
    | cons m' rest' =>
      obtain ⟨k, v⟩ := m
      obtain ⟨k', v'⟩ := m'
      have hself : ∀ (k : K) (v : V) (rest : List (K × V)),
          ((k, v) :: rest).lookup k = some v := by
        intro k v rest
        rw [lookup_cons_eq, if_pos rfl]
      have hle : k ≤ k' := hl.le_of_lookup (by rw [h, hself]; simp)
      have hge : k' ≤ k := hl'.le_of_lookup (by rw [← h, hself]; simp)
      obtain rfl := le_antisymm hle hge
      have hvalue := h k
      rw [hself, hself] at hvalue
      obtain rfl := Option.some.inj hvalue
      obtain ⟨hfirst, hrest⟩ := List.pairwise_cons.mp hl
      obtain ⟨hfirst', hrest'⟩ := List.pairwise_cons.mp hl'
      have htail : rest = rest' := by
        refine ih hrest hrest' fun x => ?_
        by_cases hx : x = k
        · subst hx
          rw [lookup_eq_none.mpr fun hmem => lt_irrefl _ (hfirst x hmem),
            lookup_eq_none.mpr fun hmem => lt_irrefl _ (hfirst' x hmem)]
        · have := h x
          rwa [lookup_cons_eq, lookup_cons_eq, if_neg hx, if_neg hx] at this
      rw [htail]

omit [LinearOrder K] in
theorem mem_iff_lookup {members : List (K × V)} (h : (members.map Prod.fst).Nodup) {x : K} {v : V} :
    (x, v) ∈ members ↔ members.lookup x = some v := by
  induction members with
  | nil => simp
  | cons m rest ih =>
    obtain ⟨k, w⟩ := m
    obtain ⟨hk, hrest⟩ := List.nodup_cons.mp h
    rw [List.lookup_cons, List.mem_cons, ih hrest]
    by_cases hx : x = k
    · subst hx
      rw [lookup_eq_none.mpr hk]
      simp [eq_comm]
    · rw [beq_false_of_ne hx]
      simp [hx]

omit [LinearOrder K] in
/-- Without a key twice, the order of a list does not matter. -/
theorem lookup_perm {l l' : List (K × V)} (hperm : l.Perm l') (h : (l.map Prod.fst).Nodup)
    (x : K) : l.lookup x = l'.lookup x := by
  have h' : (l'.map Prod.fst).Nodup := (hperm.map Prod.fst).nodup_iff.mp h
  apply Option.ext
  intro v
  simp only [← mem_iff_lookup h, ← mem_iff_lookup h', hperm.mem_iff]

/-- Different keys may be assigned to in any order. -/
theorem putAll_perm {l l' : List (K × V)} (hperm : l.Perm l') (h : (l.map Prod.fst).Nodup) :
    putAll [] l = putAll [] l' := by
  refine ext_lookup (sorted_nil.putAll l) (sorted_nil.putAll l') fun x => ?_
  rw [lookup_putAll, lookup_putAll, List.append_nil, List.append_nil]
  refine lookup_perm ((l.reverse_perm.trans hperm).trans l'.reverse_perm.symm) ?_ x
  exact (l.reverse_perm.map Prod.fst).nodup_iff.mpr h

/-- What is in order already stays as it is. -/
theorem putAll_of_sorted {l : List (K × V)} (h : Sorted l) : putAll [] l = l := by
  refine ext_lookup (sorted_nil.putAll l) h fun x => ?_
  rw [lookup_putAll, List.append_nil]
  exact lookup_perm l.reverse_perm ((l.reverse_perm.map Prod.fst).nodup_iff.mpr h.nodup) x

end Lookup

end OrderedMaps
