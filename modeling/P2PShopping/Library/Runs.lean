import Mathlib.Data.List.Induction

/-! Machines that take labelled steps, and their runs.

A `Machine` may refuse a label; a step it takes emits an output. A `Run` records
every label with the output of its step, oldest first, so what has happened so
far is a list that later statements can speak about. A run is built at its end:
an invariant of the state and of the history is kept if one more step keeps it
(`Run.invariant`), for all runs or for those whose steps meet a condition
(`Run.invariant_of`). -/
namespace Runs

structure Machine (S L O : Type) where
  step : S → L → Option (S × O)

variable {S L O : Type} (M : Machine S L O)

/-- The finite runs from `s₀`. -/
inductive Run (s₀ : S) : List (L × O) → S → Prop where
  | start : Run s₀ [] s₀
  | snoc {tr : List (L × O)} {s s' : S} {l : L} {o : O} :
      Run s₀ tr s → M.step s l = some (s', o) → Run s₀ (tr ++ [(l, o)]) s'

variable {M}

theorem Run.one {s s' : S} {l : L} {o : O} (h : M.step s l = some (s', o)) :
    Run M s [(l, o)] s' :=
  .snoc .start h

theorem Run.append {s₀ s₁ s₂ : S} {a b : List (L × O)} (ha : Run M s₀ a s₁)
    (hb : Run M s₁ b s₂) : Run M s₀ (a ++ b) s₂ := by
  induction hb with
  | start => simpa using ha
  | snoc _ hstep ih =>
    rw [← List.append_assoc]
    exact .snoc ih hstep

/-- The last step of a run. -/
theorem Run.last {s₀ s' : S} {tr : List (L × O)} {e : L × O} (h : Run M s₀ (tr ++ [e]) s') :
    ∃ s, Run M s₀ tr s ∧ M.step s e.1 = some (s', e.2) := by
  generalize hfull : tr ++ [e] = full at h
  cases h with
  | start => simp at hfull
  | snoc hrun hstep =>
    obtain ⟨rfl, he⟩ := List.append_inj' hfull rfl
    obtain rfl : e = _ := List.singleton_inj.mp he
    exact ⟨_, hrun, hstep⟩

/-- A run passes through a state after any part of its history. -/
theorem Run.split {s₀ s₂ : S} {a b : List (L × O)} (h : Run M s₀ (a ++ b) s₂) :
    ∃ s₁, Run M s₀ a s₁ ∧ Run M s₁ b s₂ := by
  induction b using List.reverseRecOn generalizing s₂ with
  | nil => exact ⟨s₂, by simpa using h, .start⟩
  | append_singleton b e ih =>
    rw [← List.append_assoc] at h
    obtain ⟨s, hrun, hstep⟩ := h.last
    obtain ⟨s₁, ha, hb⟩ := ih hrun
    exact ⟨s₁, ha, .snoc hb hstep⟩

theorem split_at {α : Type} {l : List α} {n : Nat} {x : α} (h : l[n]? = some x) :
    l = l.take n ++ x :: l.drop (n + 1) := by
  obtain ⟨hn, rfl⟩ := List.getElem?_eq_some_iff.mp h
  rw [List.getElem_cons_drop, List.take_append_drop]

/-- The step at a position, from the state that the history before it leads to. -/
theorem Run.at {s₀ s : S} {tr : List (L × O)} (h : Run M s₀ tr s) {n : Nat} {e : L × O}
    (he : tr[n]? = some e) :
    ∃ s₁ s₂, Run M s₀ (tr.take n) s₁ ∧ M.step s₁ e.1 = some (s₂, e.2) := by
  have hsplit : tr = (tr.take n ++ [e]) ++ tr.drop (n + 1) := by
    rw [List.append_assoc]
    exact split_at he
  rw [hsplit] at h
  obtain ⟨s₂, hfront, -⟩ := h.split
  obtain ⟨s₁, hrun, hstep⟩ := hfront.last
  exact ⟨s₁, s₂, hrun, hstep⟩

/-- The history determines the state. -/
theorem Run.deterministic {s₀ s s' : S} {tr : List (L × O)} (h : Run M s₀ tr s)
    (h' : Run M s₀ tr s') : s = s' := by
  induction h generalizing s' with
  | start =>
    generalize hnil : ([] : List (L × O)) = tr at h'
    cases h' with
    | start => rfl
    | snoc => simp at hnil
  | snoc _ hstep ih =>
    obtain ⟨t, ht, hstep'⟩ := h'.last
    obtain rfl := ih ht
    rw [hstep] at hstep'
    simpa using congrArg (Option.map Prod.fst) hstep'

/-- The step after any part of a history, from the state that part leads to. -/
theorem Run.step_at {s₀ s s₁ : S} {a b : List (L × O)} {e : L × O}
    (h : Run M s₀ (a ++ e :: b) s) (ha : Run M s₀ a s₁) :
    ∃ s₂, M.step s₁ e.1 = some (s₂, e.2) := by
  rw [List.append_cons] at h
  obtain ⟨s₂, hfront, -⟩ := h.split
  obtain ⟨s₃, hrun, hstep⟩ := hfront.last
  obtain rfl := ha.deterministic hrun
  exact ⟨s₂, hstep⟩

/-! ### Conditions on the steps and on the states of a run -/

/-- Every step of the history meets `C`, asked of the state before the step. -/
def StepsMeet (M : Machine S L O) (C : S → L → Prop) (s₀ : S) (tr : List (L × O)) : Prop :=
  ∀ a e b s, tr = a ++ e :: b → Run M s₀ a s → C s e.1

/-- Every state the history passes through meets `I`, asked with the history up to it. -/
def StatesMeet (M : Machine S L O) (I : List (L × O) → S → Prop) (s₀ : S)
    (tr : List (L × O)) : Prop :=
  ∀ a b s, tr = a ++ b → Run M s₀ a s → I a s

theorem StepsMeet.front {C : S → L → Prop} {s₀ : S} {a b : List (L × O)}
    (h : StepsMeet M C s₀ (a ++ b)) : StepsMeet M C s₀ a := by
  intro x e y s hx hrun
  exact h x e (y ++ b) s (by rw [hx]; simp) hrun

theorem StepsMeet.last {C : S → L → Prop} {s₀ s : S} {tr : List (L × O)} {e : L × O}
    (h : StepsMeet M C s₀ (tr ++ [e])) (hrun : Run M s₀ tr s) : C s e.1 :=
  h tr e [] s rfl hrun

theorem StepsMeet.snoc {C : S → L → Prop} {s₀ s : S} {tr : List (L × O)} {e : L × O}
    (h : StepsMeet M C s₀ tr) (hrun : Run M s₀ tr s) (hC : C s e.1) :
    StepsMeet M C s₀ (tr ++ [e]) := by
  intro a x b t htr ha
  rcases List.eq_nil_or_concat b with rfl | ⟨b, last, rfl⟩
  · obtain ⟨rfl, hx⟩ := List.append_inj' htr rfl
    obtain rfl := List.singleton_inj.mp hx
    obtain rfl := hrun.deterministic ha
    exact hC
  · rw [List.concat_eq_append, ← List.cons_append, ← List.append_assoc] at htr
    exact h a x b t (List.append_inj' htr rfl).1 ha

/-- The state a step of the history leads to is met, too. -/
theorem StatesMeet.next {I : List (L × O) → S → Prop} {s₀ s s' : S} {a b : List (L × O)}
    {e : L × O} (h : StatesMeet M I s₀ (a ++ e :: b)) (hrun : Run M s₀ a s)
    (hstep : M.step s e.1 = some (s', e.2)) : I (a ++ [e]) s' :=
  h (a ++ [e]) b s' (List.append_cons ..) (.snoc hrun hstep)

/-- What one step keeps, given the condition, every run whose steps meet it keeps. -/
theorem Run.invariant_of (C : S → L → Prop) (I : List (L × O) → S → Prop) {s₀ : S}
    (hstart : I [] s₀)
    (hstep : ∀ tr s l s' o, Run M s₀ tr s → I tr s → C s l → M.step s l = some (s', o) →
      I (tr ++ [(l, o)]) s')
    {tr : List (L × O)} {s : S} (hrun : Run M s₀ tr s) (hC : StepsMeet M C s₀ tr) : I tr s := by
  induction hrun with
  | start => exact hstart
  | snoc hrun h ih => exact hstep _ _ _ _ _ hrun (ih hC.front) (hC.last hrun) h

/-- What one step keeps, every run keeps. -/
theorem Run.invariant (I : List (L × O) → S → Prop) {s₀ : S} (hstart : I [] s₀)
    (hstep : ∀ tr s l s' o, Run M s₀ tr s → I tr s → M.step s l = some (s', o) →
      I (tr ++ [(l, o)]) s')
    {tr : List (L × O)} {s : S} (hrun : Run M s₀ tr s) : I tr s :=
  hrun.invariant_of (fun _ _ => True) I hstart
    (fun tr s l s' o hr hI _ h => hstep tr s l s' o hr hI h) (fun _ _ _ _ _ _ => trivial)

/-! ### What the steps of a run say -/

section Observe
variable {E : Type} {f : S → L → List E} {s₀ s s₁ : S} {tr a b : List (L × O)}

/-- What `f` says about each step of a history, one after another. -/
def Machine.observe (M : Machine S L O) (f : S → L → List E) (s : S) : List (L × O) → List E
  | [] => []
  | (l, _) :: rest =>
    f s l ++ match M.step s l with
    | none => []
    | some (s', _) => M.observe f s' rest

theorem observe_cons {s' : S} {l : L} {o o' : O} (h : M.step s l = some (s', o)) :
    M.observe f s ((l, o') :: b) = f s l ++ M.observe f s' b := by
  simp only [Machine.observe, h]

theorem Run.observe_append (h : Run M s₀ a s₁) :
    M.observe f s₀ (a ++ b) = M.observe f s₀ a ++ M.observe f s₁ b := by
  induction h generalizing b with
  | start => rfl
  | snoc _ hstep ih =>
    rw [List.append_assoc, List.singleton_append, ih, ih, observe_cons hstep, observe_cons hstep,
      Machine.observe, List.append_nil, List.append_assoc]

theorem Run.observe_snoc {s' : S} {l : L} {o : O} (h : Run M s₀ tr s)
    (hstep : M.step s l = some (s', o)) :
    M.observe f s₀ (tr ++ [(l, o)]) = M.observe f s₀ tr ++ f s l := by
  rw [h.observe_append, observe_cons hstep, Machine.observe, List.append_nil]

/-- What has been said was said of a step. -/
theorem Run.mem_observe (h : Run M s₀ tr s) {e : E} (he : e ∈ M.observe f s₀ tr) :
    ∃ front l o back s₁, tr = front ++ (l, o) :: back ∧ Run M s₀ front s₁ ∧ e ∈ f s₁ l := by
  induction h with
  | start => cases he
  | @snoc tr s s' l o hrun hstep ih =>
    rw [hrun.observe_snoc hstep] at he
    rcases List.mem_append.mp he with he | he
    · obtain ⟨front, l', o', back, s₁, rfl, hfront, he⟩ := ih he
      exact ⟨front, l', o', back ++ [(l, o)], s₁, by simp, hfront, he⟩
    · exact ⟨tr, l, o, [], s, rfl, hrun, he⟩

end Observe

/-! ### Executing a list of labels -/

/-- Take the labels one after another, as far as the machine accepts them all. -/
def Machine.exec (M : Machine S L O) (s : S) : List L → Option (S × List (L × O))
  | [] => some (s, [])
  | l :: rest =>
    match M.step s l with
    | none => none
    | some (s', o) =>
      match M.exec s' rest with
      | none => none
      | some (s'', tr) => some (s'', (l, o) :: tr)

theorem Machine.exec_run {s s' : S} {ls : List L} {tr : List (L × O)}
    (h : M.exec s ls = some (s', tr)) : Run M s tr s' := by
  induction ls generalizing s tr with
  | nil =>
    obtain ⟨rfl, rfl⟩ : s = s' ∧ [] = tr := by simpa [Machine.exec] using h
    exact .start
  | cons l rest ih =>
    simp only [Machine.exec] at h
    split at h
    · cases h
    · rename_i s₁ o hstep
      split at h
      · cases h
      · rename_i s₂ tr₂ hrest
        cases h
        exact (Run.one hstep).append (ih hrest)

theorem Machine.exec_labels {s s' : S} {ls : List L} {tr : List (L × O)}
    (h : M.exec s ls = some (s', tr)) : tr.map Prod.fst = ls := by
  induction ls generalizing s tr with
  | nil =>
    obtain ⟨-, rfl⟩ : s = s' ∧ [] = tr := by simpa [Machine.exec] using h
    rfl
  | cons l rest ih =>
    simp only [Machine.exec] at h
    split at h
    · cases h
    · split at h
      · cases h
      · rename_i hrest
        cases h
        rw [List.map_cons, ih hrest]

/-- The labels with the outputs of their execution are a run. -/
theorem Machine.exec_outputs {s : S} (ls : List L) (os : List O)
    (h : (M.exec s ls).map (fun r => r.2.map Prod.snd) = some os) :
    ∃ s', Run M s (ls.zip os) s' := by
  obtain ⟨⟨s', tr⟩, hexec, rfl⟩ := Option.map_eq_some_iff.mp h
  refine ⟨s', ?_⟩
  have hzip : tr = ls.zip (tr.map Prod.snd) := List.zip_of_prod (exec_labels hexec) rfl
  show Run M s (ls.zip (tr.map Prod.snd)) s'
  rw [← hzip]
  exact exec_run hexec

/-- What is seen at the end of an execution is seen at the end of a run. -/
theorem Machine.exec_view {α : Type} (M : Machine S L O) (s : S) (ls : List L)
    (view : S × List (L × O) → α) {v : α} (h : (M.exec s ls).map view = some v) :
    ∃ s' tr, Run M s tr s' ∧ view (s', tr) = v := by
  obtain ⟨⟨s', tr⟩, hexec, hview⟩ := Option.map_eq_some_iff.mp h
  exact ⟨s', tr, exec_run hexec, hview⟩

/-- Whether every step of an execution meets the condition. -/
def Machine.execMeets (M : Machine S L O) (C : S → L → Bool) (s : S) : List L → Bool
  | [] => true
  | l :: rest =>
    C s l && match M.step s l with
    | none => true
    | some (s', _) => M.execMeets C s' rest

theorem Machine.exec_stepsMeet {C : S → L → Bool} {s s' : S} {ls : List L} {tr : List (L × O)}
    (h : M.exec s ls = some (s', tr)) (hC : M.execMeets C s ls = true) :
    StepsMeet M (fun s l => C s l) s tr := by
  induction ls generalizing s tr with
  | nil =>
    obtain ⟨-, rfl⟩ : s = s' ∧ [] = tr := by simpa [Machine.exec] using h
    intro a e b s₁ htr
    simp at htr
  | cons l rest ih =>
    simp only [Machine.exec] at h
    split at h
    · cases h
    · rename_i s₁ o hstep
      simp only [Machine.execMeets, hstep, Bool.and_eq_true] at hC
      split at h
      · cases h
      · rename_i s₂ tr₂ hrest
        cases h
        intro a e b t htr hrun
        cases a with
        | nil =>
          obtain rfl := hrun.deterministic .start
          cases htr
          exact hC.1
        | cons x a =>
          obtain ⟨rfl, htail⟩ := List.cons.inj htr
          obtain ⟨t₁, hfirst, hrun⟩ := Run.split (a := [_]) (b := a) hrun
          obtain rfl := hfirst.deterministic (Run.one hstep)
          exact ih hrest hC.2 a e b t htail hrun

/-- An execution whose steps meet a condition, and what is seen at its end. -/
theorem Machine.exec_view_meets {α : Type} (M : Machine S L O) (C : S → L → Bool) (s : S)
    (ls : List L) (view : S × List (L × O) → α) {v : α} (h : (M.exec s ls).map view = some v)
    (hC : M.execMeets C s ls = true) :
    ∃ s' tr, Run M s tr s' ∧ StepsMeet M (fun s l => C s l) s tr ∧ view (s', tr) = v := by
  obtain ⟨⟨s', tr⟩, hexec, hview⟩ := Option.map_eq_some_iff.mp h
  exact ⟨s', tr, exec_run hexec, exec_stepsMeet hexec hC, hview⟩

end Runs
