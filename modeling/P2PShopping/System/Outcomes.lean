import P2PShopping.Library.Cell
import P2PShopping.System.Network

/-! The outcomes of searches.

Under each number the store keeps the search of the last LOOKING_FOR, until a timer
of that number speaks about it (`current_run`). A search that another one replaces
before that has no outcome. So every search gets its outcome exactly when none is
ever handled while the last one under its number is still open. -/
namespace P2PShopping
open Collections Json Runs

variable {P : Type}

/-- What of a LOOKING_FOR its outcome is computed from. -/
structure Inquiry (P : Type) where
  rq : Int32
  item : String
  maxPrice : P
  addr : SockaddrIn

/-- A message computed from a search: FOUND or NOT_AVAILABLE to its searcher, or its
NEGOTIATE to a seller. -/
inductive Inquiry.Settles (q : Inquiry P) [LE P] : ServerMessage P × SockaddrIn → Prop where
  | notAvailable : q.Settles (.notAvailable q.rq q.item q.maxPrice, q.addr)
  | found {price : P} : price ≤ q.maxPrice → q.Settles (.found q.rq q.item price, q.addr)
  | negotiate {seller : SockaddrIn} : q.Settles (.negotiate q.rq q.item q.maxPrice, seller)

/-- The LOOKING_FOR that the server handled in a step. -/
def Log.opened (log : Log P) : Option (Inquiry P) :=
  match log.served with
  | some (.lookingFor rq _ item _ maxPrice, addr) => some ⟨rq, item, maxPrice, addr⟩
  | _ => none

/-- The step at `t` sends the outcome of the LOOKING_FOR handled at `i`: a timer of its
number fires, no other LOOKING_FOR of that number came in between, and one message
computed from the search goes out. -/
structure Outcome [LE P] (tr : List (Move P × Log P)) (i : Nat) (q : Inquiry P) (t : Nat) :
    Prop where
  later : i < t
  message : ∃ e m, tr[t]? = some e ∧ e.2.fired = some q.rq ∧ e.2.down = [m] ∧ q.Settles m
  own : ∀ j e q', i < j → j < t → tr[j]? = some e → e.2.opened = some q' → q'.rq ≠ q.rq

/-- Every LOOKING_FOR that was handled has exactly one outcome. -/
def EverySearchAnswered [LE P] (tr : List (Move P × Log P)) : Prop :=
  ∀ i e q, tr[i]? = some e → e.2.opened = some q → ∃! t, Outcome tr i q t

/-! ### The search under a number, as the history tells it -/

def SearchRequest.inquiry (search : SearchRequest P) : Inquiry P :=
  ⟨search.requestNumber, search.itemName, search.maxPrice, search.searcherAddr⟩

/-- The search pending under a number. -/
def current (m : Searches P) (rq : Int32) : Option (Inquiry P) :=
  (pending m rq).map SearchRequest.inquiry

/-- What a step does to the search under a number. -/
def Log.update (rq : Int32) (log : Log P) : Cell.Update (Inquiry P) :=
  match log.opened with
  | some q => if q.rq = rq then .put q else .keep
  | none => if log.fired = some rq then .clear else .keep

def update (rq : Int32) (e : Move P × Log P) : Cell.Update (Inquiry P) := e.2.update rq

theorem current_lookingFor (m : Searches P) (L : LookingFor P) (rq : Int32) :
    current ((StoreEvent.lookingFor L).apply m) rq =
      if L.rq = rq then some ⟨L.rq, L.item, L.maxPrice, L.addr⟩ else current m rq := by
  rw [current, pending_lookingFor]
  split <;> rfl

theorem current_offer (m : Searches P) (r rq : Int32) (now : Int) (o : OfferInfo P) :
    current ((StoreEvent.offer r now o).apply m) rq = current m rq := by
  rw [current, pending_offer, Option.map_map, current]
  congr 1
  funext search
  simp only [Function.comp_apply]
  split <;> rfl

theorem current_timer (m : Searches P) (r rq : Int32) :
    current ((StoreEvent.timer r).apply m) rq = if r = rq then none else current m rq := by
  rw [current, pending_timer]
  split <;> rfl

variable [Double P]

/-- **What one step does to the search under a number** is what its log says. -/
theorem current_step {s s' : System P} {l : Move P} {log : Log P} (rq : Int32)
    (h : (network P).step s l = some (s', log)) :
    current s'.server.activeSearches rq =
      (log.update rq).apply (current s.server.activeSearches rq) := by
  cases step_moved h with
  | served _ hserved =>
    cases hserved with
    | searched =>
      rw [current_lookingFor]
      simp only [Log.update, Log.opened]
      split <;> rfl
    | offered => exact current_offer _ _ _ _ _
    | denied | registered | deregistered | negotiated | accepted | refused => rfl
  | @fired k r started _ =>
    rw [current_timer]
    simp only [Log.update, Log.opened, Option.some.injEq]
    split <;> rfl
  | acted | delivered | lostUp | lostDown | pushed | visited | ticked => rfl

theorem current_run {peers : SockaddrIn → Option ClientConfig} {s : System P}
    {tr : List (Move P × Log P)} (h : Run (network P) (System.start peers) tr s) (rq : Int32) :
    current s.server.activeSearches rq = Cell.value (update rq) tr := by
  refine h.invariant (fun tr s => current s.server.activeSearches rq = Cell.value (update rq) tr)
    rfl ?_
  intro tr s l s' log _ ih hstep
  rw [current_step rq hstep, ih, Cell.value_snoc]
  rfl

/-- An open search has a timer that will close it. -/
theorem current_has_timer {peers : SockaddrIn → Option ClientConfig} {s : System P}
    {tr : List (Move P × Log P)} (h : Run (network P) (System.start peers) tr s) :
    ∀ rq q, current s.server.activeSearches rq = some q →
      ∃ thread ∈ s.server.timeoutThreads, thread.1 = rq := by
  refine h.invariant (fun _ s => ∀ rq q, current s.server.activeSearches rq = some q →
    ∃ thread ∈ s.server.timeoutThreads, thread.1 = rq) ?_ ?_
  · intro rq q hq
    cases hq
  · intro tr s l s' log _ ih hstep rq q hq
    cases step_moved hstep with
    | served _ hserved =>
      cases hserved with
      | searched =>
        rw [current_lookingFor] at hq
        split at hq
        case isTrue hrq => exact ⟨_, List.mem_append_right _ (List.mem_singleton_self _), hrq⟩
        case isFalse =>
          obtain ⟨thread, hmem, hthread⟩ := ih rq q hq
          exact ⟨thread, List.mem_append_left _ hmem, hthread⟩
      | offered =>
        rw [current_offer] at hq
        exact ih rq q hq
      | denied | registered | deregistered | negotiated | accepted | refused => exact ih rq q hq
    | @fired k r started hthread =>
      rw [current_timer] at hq
      split at hq
      case isTrue => cases hq
      case isFalse hne =>
        -- The thread that woke up has another number, so the one found stays.
        obtain ⟨thread, hmem, hnumber⟩ := ih rq q hq
        have hperm := perm_eraseIdx hthread
        rcases List.mem_cons.mp (hperm.symm.mem_iff.mp hmem) with rfl | hstays
        · exact absurd hnumber hne
        · exact ⟨thread, hstays, hnumber⟩
    | acted | delivered | lostUp | lostDown | pushed | visited | ticked => exact ih rq q hq

/-- The verdict on a search is computed from it. -/
theorem verdict_settles (search : SearchRequest P) : search.inquiry.Settles (verdict search) := by
  unfold verdict
  split
  · exact .notAvailable
  · split
    case isTrue hle => exact .found hle
    case isFalse => exact .negotiate

/-- A timer's step sends the verdict on the search it finds, if it finds one. -/
theorem fired_down {s s' : System P} {l : Move P} {log : Log P} {rq : Int32}
    (h : (network P).step s l = some (s', log)) (hfired : log.fired = some rq) :
    log.opened = none ∧
      log.down = ((pending s.server.activeSearches rq).map verdict).toList := by
  cases step_moved h with
  | fired =>
    cases hfired
    exact ⟨rfl, rfl⟩
  | acted | served | delivered | lostUp | lostDown | pushed | visited | ticked => cases hfired

/-! ### When every search has its outcome -/

/-- A LOOKING_FOR is handled only when no search is open under its number. -/
def freshNumber (s : System P) : Move P → Bool
  | .serve k =>
    match s.toServer[k]? with
    | some (.lookingFor rq .., _) => (pending s.server.activeSearches rq).isNone
    | _ => true
  | _ => true

section Update
variable {log : Log P} {rq : Int32} {q : Inquiry P}

omit [Double P] in
theorem update_eq_put : log.update rq = .put q ↔ log.opened = some q ∧ q.rq = rq := by
  cases hopened : log.opened with
  | none => by_cases hfired : log.fired = some rq <;> simp [Log.update, hopened, hfired]
  | some q' =>
    by_cases hrq : q'.rq = rq
    · simp only [Log.update, hopened, hrq, if_true, Cell.Update.put.injEq, Option.some.injEq]
      exact ⟨fun h => ⟨h, h ▸ hrq⟩, And.left⟩
    · simp only [Log.update, hopened, hrq, if_false, reduceCtorEq, Option.some.injEq, false_iff]
      intro hsame
      obtain ⟨rfl, hrq'⟩ := hsame
      exact hrq hrq'

omit [Double P] in
/-- A step that lets the search be is no LOOKING_FOR and no timer of its number. -/
theorem update_eq_keep (h : log.update rq = .keep) :
    (∀ q, log.opened = some q → q.rq ≠ rq) ∧ (log.opened = none → log.fired ≠ some rq) := by
  unfold Log.update at h
  cases hopened : log.opened with
  | none =>
    refine ⟨fun q hq => (by cases hq), fun _ hfired => ?_⟩
    simp [hopened, hfired] at h
  | some q =>
    refine ⟨fun q' hq' hrq => ?_, fun hnone => (by cases hnone)⟩
    cases hq'
    simp [hopened, hrq] at h

end Update

omit [Double P] in
theorem current_eq_some {m : Searches P} {rq : Int32} {q : Inquiry P} :
    current m rq = some q ↔ ∃ search, pending m rq = some search ∧ search.inquiry = q := by
  simp [current, Option.map_eq_some_iff]

/-- The number a step opens a search under was free, if the step was fresh. -/
theorem opened_fresh {s s' : System P} {l : Move P} {log : Log P} {q : Inquiry P}
    (h : (network P).step s l = some (s', log)) (hfresh : freshNumber s l = true)
    (hopened : log.opened = some q) : current s.server.activeSearches q.rq = none := by
  cases step_moved h with
  | served hm hserved =>
    cases hserved with
    | searched =>
      cases hopened
      simp only [freshNumber, hm, Option.isNone_iff_eq_none] at hfresh
      rw [current, hfresh]
      rfl
    | denied | registered | deregistered | offered | negotiated | accepted | refused =>
      cases hopened
  | acted | fired | delivered | lostUp | lostDown | pushed | visited | ticked => cases hopened

/-- What a step that is not fresh does. -/
theorem busy_of_not_fresh {s : System P} {l : Move P} (h : ¬ freshNumber s l = true) :
    ∃ k rq name item description maxPrice a, l = .serve k ∧
      s.toServer[k]? = some (.lookingFor rq name item description maxPrice, a) ∧
      ∃ search, pending s.server.activeSearches rq = some search := by
  unfold freshNumber at h
  split at h
  case h_2 => exact absurd rfl h
  case h_1 k =>
    split at h
    case h_2 => exact absurd rfl h
    case h_1 rq name item description maxPrice a hm =>
      simp only [Option.isNone_iff_eq_none] at h
      exact ⟨k, rq, name, item, description, maxPrice, a, rfl, hm,
        Option.ne_none_iff_exists'.mp h⟩

section Answered
variable {peers : SockaddrIn → Option ClientConfig} {s : System P} {tr : List (Move P × Log P)}

/-- The search found by a step is that of the last LOOKING_FOR before it, with no timer since. -/
theorem current_at {t : Nat} {s₁ : System P}
    (hrun : Run (network P) (System.start peers) (tr.take t) s₁) {rq : Int32} {q : Inquiry P} :
    current s₁.server.activeSearches rq = some q ↔ ∃ i < t,
      (∃ e, tr[i]? = some e ∧ e.2.opened = some q ∧ q.rq = rq) ∧
        ∀ j e, i < j → j < t → tr[j]? = some e → e.2.update rq = .keep := by
  simp only [current_run hrun rq, Cell.value_eq_some_iff, Cell.last_take, update, update_eq_put]

/-- When no timer is left, none is left to close the search, so it is closed already. -/
theorem touched_of_rest (h : Run (network P) (System.start peers) tr s)
    (hrest : s.server.timeoutThreads = []) {i : Nat} {e : Move P × Log P} {q : Inquiry P}
    (hi : tr[i]? = some e) (hopened : e.2.opened = some q) :
    ∃ t, i < t ∧ ∃ f, tr[t]? = some f ∧ update q.rq f ≠ .keep := by
  by_contra hnone
  push Not at hnone
  have hlast : Cell.Last (update q.rq) tr q i :=
    ⟨⟨e, hi, update_eq_put.mpr ⟨hopened, rfl⟩⟩, fun j f hij hf => hnone j hij f hf⟩
  have hcurrent := (current_run h q.rq).trans (Cell.value_eq_some_iff.mpr ⟨i, hlast⟩)
  obtain ⟨thread, hmem, -⟩ := current_has_timer h _ _ hcurrent
  rw [hrest] at hmem
  cases hmem

/-- A fresh step that touches an open search is its timer: a LOOKING_FOR would have
found the number in use. -/
theorem fired_of_touched {s₁ s₂ : System P} {l : Move P} {log : Log P} {q : Inquiry P}
    (hstep : (network P).step s₁ l = some (s₂, log)) (hfresh : freshNumber s₁ l = true)
    (hcurrent : current s₁.server.activeSearches q.rq = some q)
    (htouched : log.update q.rq ≠ .keep) : log.fired = some q.rq := by
  by_contra hne
  cases hopened : log.opened with
  | none => exact htouched (by simp [Log.update, hopened, hne])
  | some q' =>
    by_cases hrq : q'.rq = q.rq
    · have hnone := opened_fresh hstep hfresh hopened
      rw [hrq, hcurrent] at hnone
      cases hnone
    · exact htouched (by simp [Log.update, hopened, hrq])

/-- A search has no outcome but at the timer that closed it: what another timer finds
later was opened since. -/
theorem Outcome.at_timer (h : Run (network P) (System.start peers) tr s) {i t t' : Nat}
    {f : Move P × Log P} {q : Inquiry P} (hit : i < t) (hf : tr[t]? = some f)
    (hopened : f.2.opened = none) (hfired : f.2.fired = some q.rq)
    (hkeep : ∀ j g, i < j → j < t → tr[j]? = some g → update q.rq g = .keep)
    (hother : Outcome tr i q t') : t' = t := by
  obtain ⟨hit', ⟨f', m, hf', hfired', hdown', -⟩, hown⟩ := hother
  obtain ⟨s₁, s₂, hrun, hstep⟩ := h.at hf'
  obtain ⟨hopened', hdown⟩ := fired_down hstep hfired'
  rcases Nat.lt_trichotomy t' t with hlt | heq | hgt
  · exact absurd hfired' ((update_eq_keep (hkeep t' f' hit' hlt hf')).2 hopened')
  · exact heq
  · exfalso
    cases hpending : pending s₁.server.activeSearches q.rq with
    | none => simp [hdown, hpending] at hdown'
    | some search =>
      obtain ⟨i', hi't', ⟨e', he', hopens, hrq⟩, hsince⟩ :=
        (current_at hrun).mp (current_eq_some.mpr ⟨search, hpending, rfl⟩)
      rcases Nat.lt_trichotomy i' t with hlt | rfl | hgt'
      · exact (update_eq_keep (hsince t f hlt hgt hf)).2 hopened hfired
      · rw [hf] at he'
        cases he'
        rw [hopened] at hopens
        cases hopens
      · exact hown i' e' _ (hit.trans hgt') hi't' he' hopens hrq

theorem answered_of_fresh (h : Run (network P) (System.start peers) tr s)
    (hrest : s.server.timeoutThreads = [])
    (hfresh : StepsMeet (network P) (freshNumber · ·) (System.start peers) tr) :
    EverySearchAnswered tr := by
  intro i e q hi hopened
  obtain ⟨t, f, hit, hf, htouched, hkeep⟩ :=
    Cell.exists_first_touch (touched_of_rest h hrest hi hopened)
  obtain ⟨s₁, s₂, hrun, hstep⟩ := h.at hf
  have hcurrent : current s₁.server.activeSearches q.rq = some q :=
    (current_at hrun).mpr ⟨i, hit, ⟨e, hi, hopened, rfl⟩, hkeep⟩
  have hfired := fired_of_touched hstep (hfresh _ _ _ _ (split_at hf) hrun) hcurrent htouched
  obtain ⟨hopen, hdown⟩ := fired_down hstep hfired
  obtain ⟨search, hsearch, hinquiry⟩ := current_eq_some.mp hcurrent
  refine ⟨t, ⟨hit, ⟨f, verdict search, hf, hfired, ?_, hinquiry ▸ verdict_settles search⟩, ?_⟩, ?_⟩
  · rw [hdown, hsearch]
    rfl
  · intro j g q' hij hjt hg hq'
    exact (update_eq_keep (hkeep j g hij hjt hg)).1 q' hq'
  · intro t' hother
    exact hother.at_timer h hit hf hopen hfired hkeep

theorem fresh_of_answered (h : Run (network P) (System.start peers) tr s)
    (hanswered : EverySearchAnswered tr) :
    StepsMeet (network P) (freshNumber · ·) (System.start peers) tr := by
  intro front e back s₁ htr hrun
  obtain ⟨l, log⟩ := e
  by_contra hbusy
  obtain ⟨k, rq, name, item, description, maxPrice, a, rfl, hm, search, hsearch⟩ :=
    busy_of_not_fresh hbusy
  have hn : tr[front.length]? = some (.serve k, log) := by simp [htr]
  have htake : tr.take front.length = front := by simp [htr]
  rw [← htake] at hrun
  generalize front.length = n at hn hrun
  obtain ⟨i, hin, ⟨e, he, hopened, hrq⟩, hkeep⟩ :=
    (current_at hrun).mp (current_eq_some.mpr ⟨search, hsearch, rfl⟩)
  -- The LOOKING_FOR handled here stands between the open one and any timer to come.
  have hhere : log.opened = some ⟨rq, item, maxPrice, a⟩ ∧ log.fired = none := by
    obtain ⟨s₂, s₃, hrun', hstep⟩ := h.at hn
    obtain rfl := hrun.deterministic hrun'
    cases step_moved hstep with
    | served hm' =>
      rw [hm] at hm'
      cases hm'
      exact ⟨rfl, rfl⟩
  obtain ⟨t, ⟨hit, ⟨f, m, hf, hfired, -⟩, hown⟩, -⟩ := hanswered i e _ he hopened
  rcases Nat.lt_trichotomy t n with hlt | rfl | hgt
  · obtain ⟨s₂, s₃, -, hstep⟩ := h.at hf
    exact (update_eq_keep (hkeep t f hit hlt hf)).2 (fired_down hstep hfired).1 (hrq ▸ hfired)
  · rw [hn] at hf
    cases hf
    rw [hhere.2] at hfired
    cases hfired
  · exact hown n _ _ hin hgt hn hhere.1 hrq.symm

/-- **Every search has exactly one outcome iff none was handled on an open number.** -/
theorem every_search_answered_iff (h : Run (network P) (System.start peers) tr s)
    (hrest : s.server.timeoutThreads = []) :
    EverySearchAnswered tr ↔ StepsMeet (network P) (freshNumber · ·) (System.start peers) tr :=
  ⟨fresh_of_answered h, answered_of_fresh h hrest⟩

end Answered

/-! ### Two clients that search at once -/

/-- The datagram handled, or the number of the timer fired, at a position. -/
def servedAt (tr : List (Move P × Log P)) (i : Nat) : Option (ClientMessage P × SockaddrIn) :=
  tr[i]?.bind fun e => e.2.served

def firedAt (tr : List (Move P × Log P)) (i : Nat) : Option Int32 :=
  tr[i]?.bind fun e => e.2.fired

/-- Both register and search before either is served; their second request is number 2. -/
def searchesAtOnce : List (Move Rat) :=
  registration peer1 ++ registration peer2 ++
    [.user peer1 (.searchItem "lamp" "old" 10) true, .user peer2 (.searchItem "desk" "oak" 50) true,
     .serve 0, .serve 0, .tick 60000000000, .timeout 0, .timeout 0]

theorem every_search_answered_iff_at_once : ∃ s tr,
    Run (network Rat) (System.start household) tr s ∧
      (EverySearchAnswered tr ↔
        StepsMeet (network Rat) (freshNumber · ·) (System.start household) tr) := by
  obtain ⟨s, tr, hrun, hrest⟩ := (network Rat).exec_view (System.start household) searchesAtOnce
    (fun r => r.1.server.timeoutThreads) (v := []) (by decide +kernel)
  exact ⟨s, tr, hrun, every_search_answered_iff hrun hrest⟩

/-- The first search is lost: the second has taken its place when the timers fire. -/
theorem search_lost : ∃ s tr, Run (network Rat) (System.start household) tr s ∧
    s.server.timeoutThreads = [] ∧ ¬ EverySearchAnswered tr := by
  obtain ⟨s, tr, hrun, hview⟩ := (network Rat).exec_view (System.start household) searchesAtOnce
    (fun r => decide (r.1.server.timeoutThreads = [] ∧ firedAt r.2 9 = none ∧
      servedAt r.2 8 = some (.lookingFor 2 "peer1" "lamp" "old" 10, peer1) ∧
      servedAt r.2 9 = some (.lookingFor 2 "peer2" "desk" "oak" 50, peer2)))
    (v := true) (by decide +kernel)
  obtain ⟨hrest, hfired', hfirst, hsecond⟩ := of_decide_eq_true hview
  obtain ⟨e, he, hserved⟩ := Option.bind_eq_some_iff.mp hfirst
  obtain ⟨f, hf, hserved'⟩ := Option.bind_eq_some_iff.mp hsecond
  have hopened : e.2.opened = some ⟨2, "lamp", 10, peer1⟩ := by simp [Log.opened, hserved]
  have hopened' : f.2.opened = some ⟨2, "desk", 50, peer2⟩ := by simp [Log.opened, hserved']
  refine ⟨s, tr, hrun, hrest, fun hanswered => ?_⟩
  obtain ⟨t, ⟨hlater, ⟨g, m, hg, hfired, -⟩, hown⟩, -⟩ := hanswered 8 e _ he hopened
  rcases Nat.lt_or_eq_of_le (Nat.succ_le_of_lt hlater) with hlt | heq
  · exact hown 9 f _ (by omega) hlt hf hopened' rfl
  · rw [← heq] at hg
    simp [firedAt, hg, hfired] at hfired'

end P2PShopping
