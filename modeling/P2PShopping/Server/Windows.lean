import P2PShopping.Server.StoreLog

/-! How long a search stays open.

A timeout thread sleeps for a minute from its own LOOKING_FOR and then closes
whatever search is stored under its number. So a search has its whole minute as long
as no older thread sleeps for its number when it is stored (`full_window`), and one
that does can always cut it short (`window_cut_short`). -/
namespace P2PShopping
open Collections Json Handler Runs

variable {P : Type} [Double P]

/-! ### Time -/

/-- A thread wakes up only after it has slept for its minute. -/
def timely (s : Server P) : ServerInput P → Bool
  | .timeout k =>
    match s.timeoutThreads[k]? with
    | some (_, started) => decide (minute ≤ s.clock - started)
    | none => true
  | _ => true

/-- No thread that started earlier sleeps for the number of a search that is stored. -/
def noOlderThread (s : Server P) : ServerInput P → Bool
  | .receive j clientAddr =>
    match searchOf j clientAddr s.clock with
    | some L => s.timeoutThreads.all fun thread => thread.1 ≠ L.rq || decide (s.clock ≤ thread.2)
    | none => true
  | _ => true

/-- **Every search gets its full window**: whenever a timer closes a search, it sends the
verdict on the offers the search was made, at least a minute after its start, and no
offer that is handled later is within that minute. -/
def FullWindow (tr : List (ServerInput P × Sent P)) : Prop :=
  ∀ front k sent back s rq started L O, tr = front ++ (.timeout k, sent) :: back →
    Run (serverMachine P) {} front s → s.timeoutThreads[k]? = some (rq, started) →
    OpenSearch (storeLog front) L O → L.rq = rq →
    sent = [verdict (L.offered O)] ∧ minute ≤ s.clock - L.now ∧
      ∀ after, storeLog tr = storeLog front ++ after → ∀ e ∈ after, L.admits e = none

section Clock
variable {s s' s₀ : Server P} {tr : List (ServerInput P × Sent P)}

theorem clock_le_run (h : Run (serverMachine P) s₀ tr s) : s₀.clock ≤ s.clock := by
  refine h.invariant (fun _ s => s₀.clock ≤ s.clock) le_rfl ?_
  intro tr s l s' sent _ ih hstep
  exact ih.trans (store_step hstep).clock_le

/-- The offers of a run are handled when they are, not before the run. -/
theorem clock_le_offer (h : Run (serverMachine P) s₀ tr s) {rq : Int32} {now : Int}
    {offer : OfferInfo P}
    (he : .offer rq now offer ∈
      (serverMachine P).observe (fun s l => (storeEvent? s l).toList) s₀ tr) : s₀.clock ≤ now := by
  obtain ⟨front, l, o, back, s₁, -, hfront, hevent⟩ := h.mem_observe he
  obtain ⟨j, addr, -, -, rfl⟩ := storeEvent_offer (Option.mem_toList.mp hevent)
  exact clock_le_run hfront

end Clock

/-! ### Full windows -/

/-- No sleeping thread is older than the search open under its number. -/
def ThreadsYoung (s : Server P) : Prop :=
  ∀ rq search, pending s.activeSearches rq = some search →
    ∀ thread ∈ s.timeoutThreads, thread.1 = rq → search.startTime ≤ thread.2

section Window
variable {s s' : Server P} {tr : List (ServerInput P × Sent P)} {l : ServerInput P} {sent : Sent P}

theorem threadsYoung_step (h : ThreadsYoung s) (hstep : s.step l = some (s', sent))
    (hfresh : noOlderThread s l = true) : ThreadsYoung s' := by
  intro rq search hpending thread hmem hthread
  cases store_step hstep with
  | @searched j addr L description s' sent hsearch hstore hthreads =>
    rw [hstore, pending_lookingFor] at hpending
    rw [hthreads, List.mem_append] at hmem
    split at hpending
    case isTrue hrq =>
      -- The search that is stored now: the threads of its number are as young.
      cases hpending
      have hnow : L.request.startTime = s.clock := searchOf_now hsearch
      rw [hnow]
      rcases hmem with hmem | hmem
      · simp only [noOlderThread, hsearch, List.all_eq_true] at hfresh
        simpa [hthread, hrq] using hfresh thread hmem
      · rw [List.mem_singleton.mp hmem]
    case isFalse hrq =>
      rcases hmem with hmem | hmem
      · exact h rq search hpending thread hmem hthread
      · rw [List.mem_singleton.mp hmem] at hthread
        exact absurd hthread hrq
  | offered _ _ hstore hthreads =>
    rw [hstore, pending_offer, Option.map_eq_some_iff] at hpending
    obtain ⟨old, hold, rfl⟩ := hpending
    rw [hthreads] at hmem
    have hyoung := h rq old hold thread hmem hthread
    split
    · exact hyoung
    · exact hyoung
  | answered _ _ hstore hthreads =>
    rw [hstore] at hpending
    rw [hthreads] at hmem
    exact h rq search hpending thread hmem hthread
  | fired hk hstore hthreads =>
    rw [hstore, pending_timer] at hpending
    rw [hthreads] at hmem
    split at hpending
    case isTrue => cases hpending
    case isFalse => exact h rq search hpending thread (mem_of_mem_eraseIdx hmem) hthread
  | aside _ hstore hthreads =>
    rw [hstore] at hpending
    rw [hthreads] at hmem
    exact h rq search hpending thread hmem hthread

theorem threadsYoung_run (h : Run (serverMachine P) {} tr s)
    (hfresh : StepsMeet (serverMachine P) (noOlderThread · ·) {} tr) : ThreadsYoung s := by
  refine h.invariant_of (noOlderThread · ·) (fun _ s => ThreadsYoung s) ?_ ?_ hfresh
  · intro rq search hpending
    simp [pending] at hpending
  · intro tr s l s' sent _ hyoung hC hstep
    exact threadsYoung_step hyoung hstep hC

/-- The step of a timer that finds an open search. -/
theorem timer_closes (h : Run (serverMachine P) {} tr s) {k : Nat} {rq : Int32} {started : Int}
    {L : LookingFor P} {O : List (OfferInfo P)} (hstep : s.step (.timeout k) = some (s', sent))
    (hthread : s.timeoutThreads[k]? = some (rq, started)) (hopen : OpenSearch (storeLog tr) L O)
    (hrq : L.rq = rq) :
    sent = [verdict (L.offered O)] ∧ pending s.activeSearches rq = some (L.offered O) := by
  have hpending : pending s.activeSearches rq = some (L.offered O) := by
    rw [store_log h]
    exact (pending_history _ _ _).mpr ⟨L, O, hopen, hrq, rfl⟩
  obtain ⟨rq', started', hthread', rfl, -⟩ := timeout_step hstep
  rw [hthread] at hthread'
  cases hthread'
  rw [hpending]
  exact ⟨rfl, rfl⟩

/-- **Searches have their full windows if numbers are fresh**: in every run whose
threads sleep for their minute and whose searches are stored under numbers no older
thread sleeps for. -/
theorem full_window (h : Run (serverMachine P) {} tr s)
    (htimely : StepsMeet (serverMachine P) (timely · ·) {} tr)
    (hfresh : StepsMeet (serverMachine P) (noOlderThread · ·) {} tr) : FullWindow tr := by
  intro front k sent back s₁ rq started L O htr hfront hthread hopen hrq
  subst htr
  obtain ⟨s₂, hstep⟩ := h.step_at hfront
  obtain ⟨s₁', hfront', hback⟩ := h.split
  obtain rfl := hfront.deterministic hfront'
  obtain ⟨hsent, hpending⟩ := timer_closes hfront hstep hthread hopen hrq
  have hslept : minute ≤ s₁.clock - started := by
    have hmeets := htimely front _ back s₁ rfl hfront
    simpa [timely, hthread] using hmeets
  have hyoung : L.now ≤ started :=
    threadsYoung_run hfront hfresh.front rq _ hpending _ (List.mem_of_getElem? hthread) rfl
  have hwindow : minute ≤ s₁.clock - L.now := by omega
  refine ⟨hsent, hwindow, ?_⟩
  intro after hafter e he
  have hlog : after = (serverMachine P).observe (fun s l => (storeEvent? s l).toList) s₁
      ((.timeout k, sent) :: back) := by
    refine (List.append_right_inj (storeLog front)).mp ?_
    rw [← hafter]
    exact hfront.observe_append
  cases e with
  | lookingFor => rfl
  | timer => rfl
  | offer r now offer =>
    have hlate : s₁.clock ≤ now := clock_le_offer hback (hlog ▸ he)
    refine if_neg fun hin => ?_
    omega

end Window

/-- A search, an offer for it, its minute, its timer, and a second search under another
number. -/
def askedOnce : List (ServerInput Rat) :=
  [.receive (ClientMessage.lookingFor 1 "peer1" "lamp" "old" 10).toJson (loopback 5001),
   .tick 7,
   .receive (ClientMessage.offer 1 "peer2" "lamp" 8).toJson (loopback 5002),
   .receive (ClientMessage.lookingFor 2 "peer1" "desk" "old" 10).toJson (loopback 5001),
   .tick 60000000000,
   .timeout 0]

theorem full_window_askedOnce : ∃ s tr, Run (serverMachine Rat) {} tr s ∧
    (∃ sent ∈ tr, sent.2 ≠ []) ∧ FullWindow tr := by
  obtain ⟨⟨s, tr⟩, hexec, hview⟩ := Option.map_eq_some_iff.mp
    (show ((serverMachine Rat).exec {} askedOnce).map (fun r => r.2.any (!·.2.isEmpty)) = some true
      by decide +kernel)
  have htimely := Machine.exec_stepsMeet (C := timely) hexec (by decide +kernel)
  have hfresh := Machine.exec_stepsMeet (C := noOlderThread) hexec (by decide +kernel)
  refine ⟨s, tr, Machine.exec_run hexec, by simpa using hview,
    full_window (Machine.exec_run hexec) htimely hfresh⟩

/-! ### Windows that are cut short -/

section Cut
variable {s s' : Server P} {tr : List (ServerInput P × Sent P)} {sent : Sent P} {j : Json P}
  {addr : SockaddrIn} {L : LookingFor P}

theorem of_olderThread (h : noOlderThread s (.receive j addr) = false) :
    ∃ L, searchOf j addr s.clock = some L ∧
      ∃ thread ∈ s.timeoutThreads, thread.1 = L.rq ∧ thread.2 < s.clock := by
  simp only [noOlderThread] at h
  split at h
  case h_1 L hsearch =>
    obtain ⟨thread, hmem, hthread⟩ := List.all_eq_false.mp h
    simp only [Bool.or_eq_true, decide_eq_true_eq, not_or, not_not, not_le] at hthread
    exact ⟨L, hsearch, thread, hmem, hthread⟩
  case h_2 => cases h

/-- The step that stores a search keeps the threads and the clock. -/
theorem searched_step (hstep : s.step (.receive j addr) = some (s', sent))
    (hsearch : searchOf j addr s.clock = some L) :
    s'.timeoutThreads = s.timeoutThreads ++ [(L.rq, s.clock)] ∧ s'.clock = s.clock := by
  cases store_step hstep with
  | searched hsearch' _ hthreads hclock =>
    rw [hsearch] at hsearch'
    cases hsearch'
    exact ⟨hthreads, hclock⟩
  | offered hnone | answered hnone => simp [hsearch] at hnone
  | aside hnone => simp [storeEvent?, hsearch] at hnone

/-- **An older thread can always cut a search short**: when a search is stored under a
number that an older thread sleeps for, that thread can wake up in time to close it
within its minute. -/
theorem window_cut_short (h : Run (serverMachine P) {} tr s)
    (htimely : StepsMeet (serverMachine P) (timely · ·) {} tr)
    (hstep : s.step (.receive j addr) = some (s', sent))
    (hold : noOlderThread s (.receive j addr) = false) :
    ∃ more s'', Run (serverMachine P) {} (tr ++ [(.receive j addr, sent)] ++ more) s'' ∧
      StepsMeet (serverMachine P) (timely · ·) {} (tr ++ [(.receive j addr, sent)] ++ more) ∧
      ¬ FullWindow (tr ++ [(.receive j addr, sent)] ++ more) := by
  obtain ⟨L, hsearch, ⟨rq, started⟩, hmem, rfl, hage⟩ := of_olderThread hold
  obtain ⟨hthreads, hclock⟩ := searched_step hstep hsearch
  obtain ⟨k, hk⟩ : ∃ k, s'.timeoutThreads[k]? = some (L.rq, started) :=
    List.mem_iff_getElem?.mp (by simp [hthreads, hmem])
  have hstored : Run (serverMachine P) {} (tr ++ [(.receive j addr, sent)]) s' := .snoc h hstep
  -- As long as the older thread still sleeps, and no longer.
  let d := (started + minute - s.clock).toNat
  let late : Server P := {s' with clock := s'.clock + d}
  have hlate : Run (serverMachine P) {} (tr ++ [(.receive j addr, sent)] ++ [(.tick d, [])]) late :=
    .snoc hstored rfl
  have hmeets : StepsMeet (serverMachine P) (timely · ·) {}
      (tr ++ [(.receive j addr, sent)] ++ [(.tick d, [])]) :=
    (htimely.snoc h rfl).snoc hstored rfl
  have hwaited : started + minute ≤ late.clock := by
    show started + minute ≤ s'.clock + d
    omega
  have hshort : late.clock < s.clock + minute := by
    show s'.clock + d < s.clock + minute
    have hminute : 0 < minute := by decide
    omega
  obtain ⟨⟨closed, out⟩, hfire⟩ : ∃ r, late.step (.timeout k) = some r := by
    simp [Server.step, late, hk]
  have hopen : OpenSearch (storeLog (tr ++ [(.receive j addr, sent)] ++ [(.tick d, [])])) L [] := by
    refine ⟨storeLog tr, [], ?_, by simp, rfl⟩
    rw [storeLog_snoc hstored rfl, storeLog_snoc h hstep]
    simp [storeEvent?, hsearch]
  refine ⟨[(.tick d, []), (.timeout k, out)], closed, ?_, ?_, ?_⟩
  · rw [List.append_cons _ _ [_]]
    exact .snoc hlate hfire
  · rw [List.append_cons _ _ [_]]
    refine hmeets.snoc hlate ?_
    simp only [timely, late, hk, decide_eq_true_eq]
    omega
  · intro hfull
    obtain ⟨-, hwindow, -⟩ := hfull _ k out [] late L.rq started L []
      (by simp) hlate hk hopen rfl
    rw [searchOf_now hsearch] at hwindow
    omega

end Cut

/-- A client asks for a lamp, and again under the same number half a minute later. -/
def askedAgain : List (ServerInput Rat) :=
  [.receive (ClientMessage.lookingFor 1 "peer1" "lamp" "old" 10).toJson (loopback 5001),
   .tick 30000000000,
   .receive (ClientMessage.lookingFor 1 "peer1" "lamp" "old" 10).toJson (loopback 5001),
   .tick 30000000000]

/-- The first thread closes the second search after half its minute. -/
theorem askedAgain_halved : ∃ s front sent, front.map Prod.fst = askedAgain ∧
    Run (serverMachine Rat) {} (front ++ [(.timeout 0, sent)]) s ∧
    StepsMeet (serverMachine Rat) (timely · ·) {} (front ++ [(.timeout 0, sent)]) ∧
    ¬ FullWindow (front ++ [(.timeout 0, sent)]) := by
  obtain ⟨⟨s, front⟩, hexec, hview⟩ := Option.map_eq_some_iff.mp
    (show ((serverMachine Rat).exec {} askedAgain).map (fun r =>
        (r.1.timeoutThreads[0]?, r.1.clock, (pending r.1.activeSearches 1).map (·.startTime))) =
      some (some (1, 0), minute, some 30000000000) by decide +kernel)
  obtain ⟨hthread, hclock, hpending⟩ : s.timeoutThreads[0]? = some (1, 0) ∧ s.clock = minute ∧
      (pending s.activeSearches 1).map (·.startTime) = some 30000000000 := by simpa using hview
  have hrun := Machine.exec_run hexec
  obtain ⟨⟨s', sent⟩, hfire⟩ : ∃ r, (serverMachine Rat).step s (.timeout 0) = some r := by
    simp [serverMachine, Server.step, hthread]
  have htimely := Machine.exec_stepsMeet (C := timely) hexec (by decide +kernel)
  refine ⟨s', front, sent, Machine.exec_labels hexec, .snoc hrun hfire, ?_, ?_⟩
  · refine htimely.snoc hrun ?_
    simp [timely, hthread, hclock]
  · intro hfull
    obtain ⟨search, hsearch, hstart⟩ := Option.map_eq_some_iff.mp hpending
    rw [store_log hrun] at hsearch
    obtain ⟨L, O, hopen, hrq, rfl⟩ := (pending_history _ _ _).mp hsearch
    obtain ⟨-, hwindow, -⟩ := hfull front 0 sent [] s 1 0 L O rfl hrun hthread hopen hrq
    have hnow : L.now = 30000000000 := hstart
    rw [hclock, hnow] at hwindow
    exact absurd hwindow (by decide)

end P2PShopping
