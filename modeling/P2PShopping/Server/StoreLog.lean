import P2PShopping.Server.Evaluation

/-! The search store in the runs of the server.

A message that prints as a LOOKING_FOR or an OFFER and converts is an event of the
store, and so is a timer that fires; nothing else touches the store (`StoreStep`).
The events of a run are its log, the store is the store of the log, and what the log
says about an entry is the law of the store: no search is orphaned. -/
namespace P2PShopping
open Collections Json Handler Runs

variable {P : Type} [Double P]

/-! ### What a message asks of the store -/

/-- The search that the handler of a message stores. -/
def searchOf (j : Json P) (clientAddr : SockaddrIn) (now : Int) : Option (LookingFor P) :=
  if commandOf j = some "LOOKING_FOR" then (readLookingFor j clientAddr now).toOption else none

/-- The offer that the handler of a message files, and under which number. -/
def offerOf (j : Json P) (clientAddr : SockaddrIn) : Option (Int32 × OfferInfo P) :=
  if commandOf j = some "OFFER" then (readOffer j clientAddr).toOption else none

/-- The event of the store that a step is. -/
def storeEvent? (s : Server P) : ServerInput P → Option (StoreEvent P)
  | .receive j clientAddr =>
    match searchOf j clientAddr s.clock with
    | some L => some (.lookingFor L)
    | none => (offerOf j clientAddr).map fun r => .offer r.1 s.clock r.2
  | .timeout k => s.timeoutThreads[k]?.map fun thread => .timer thread.1
  | _ => none

section Event
variable {j : Json P} {addr : SockaddrIn} {now : Int}

theorem searchOf_eq_some {L : LookingFor P} : searchOf j addr now = some L ↔
    commandOf j = some "LOOKING_FOR" ∧ readLookingFor j addr now = .ok L := by
  unfold searchOf
  split
  case isTrue h => rw [toOption_eq_some, and_iff_right h]
  case isFalse h => exact iff_of_false (by simp) fun h' => h h'.1

theorem offerOf_eq_some {r : Int32 × OfferInfo P} : offerOf j addr = some r ↔
    commandOf j = some "OFFER" ∧ readOffer j addr = .ok r := by
  unfold offerOf
  split
  case isTrue h => rw [toOption_eq_some, and_iff_right h]
  case isFalse h => exact iff_of_false (by simp) fun h' => h h'.1

theorem searchOf_of_command (h : commandOf j ≠ some "LOOKING_FOR") : searchOf j addr now = none :=
  if_neg h

theorem offerOf_of_command (h : commandOf j ≠ some "OFFER") : offerOf j addr = none :=
  if_neg h

/-- What is rejected is no event of the store. -/
theorem no_event_of_rejected {s s' : Server P} {fault : Fault} (hcaught : fault.caught = true)
    (h : dispatch j addr s = .error fault s') :
    searchOf j addr s.clock = none ∧ offerOf j addr = none := by
  constructor
  · refine Option.eq_none_iff_forall_ne_some.mpr fun L hL => ?_
    obtain ⟨hcommand, hread⟩ := searchOf_eq_some.mp hL
    rw [dispatch_eq hcommand rfl] at h
    rw [handleLookingFor_not_caught hread h] at hcaught
    cases hcaught
  · refine Option.eq_none_iff_forall_ne_some.mpr fun r hr => ?_
    obtain ⟨hcommand, hread⟩ := offerOf_eq_some.mp hr
    rw [dispatch_eq hcommand rfl, handleOffer_eq hread] at h
    cases h

/-- An event that offers is a message that does, now. -/
theorem storeEvent_offer {s : Server P} {l : ServerInput P} {rq : Int32} {offer : OfferInfo P}
    (h : storeEvent? s l = some (.offer rq now offer)) :
    ∃ j addr, l = .receive j addr ∧ offerOf j addr = some (rq, offer) ∧ now = s.clock := by
  cases l with
  | receive j addr =>
    simp only [storeEvent?] at h
    split at h
    case h_1 => cases h
    case h_2 =>
      obtain ⟨⟨rq', offer'⟩, hoffer, hr⟩ := Option.map_eq_some_iff.mp h
      cases hr
      exact ⟨j, addr, rfl, hoffer, rfl⟩
  | timeout k =>
    obtain ⟨thread, -, hthread⟩ := Option.map_eq_some_iff.mp h
    cases hthread
  | push | event | tick => cases h

theorem searchOf_now {L : LookingFor P} (h : searchOf j addr now = some L) : L.now = now :=
  (readLookingFor_ok (searchOf_eq_some.mp h).2).2.2.2.2.2

/-- A search that an event stores starts now. -/
theorem storeEvent_now {s : Server P} {l : ServerInput P} {L : LookingFor P}
    (h : storeEvent? s l = some (.lookingFor L)) : L.now = s.clock := by
  cases l with
  | receive j addr =>
    simp only [storeEvent?] at h
    split at h
    case h_1 L' hsearch =>
      cases h
      exact searchOf_now hsearch
    case h_2 =>
      obtain ⟨r, -, hr⟩ := Option.map_eq_some_iff.mp h
      cases hr
  | timeout k =>
    obtain ⟨thread, -, hthread⟩ := Option.map_eq_some_iff.mp h
    cases hthread
  | push | event | tick => cases h

end Event

/-! ### One step -/

/-- What a step can do to the store, its threads and its clock. -/
inductive StoreStep (s : Server P) : ServerInput P → Server P → Sent P → Prop where
  | searched {j : Json P} {addr : SockaddrIn} {L : LookingFor P} {description : Json P}
      {s' : Server P} {sent : Sent P} :
      searchOf j addr s.clock = some L →
      s'.activeSearches = (StoreEvent.lookingFor L).apply s.activeSearches →
      s'.timeoutThreads = s.timeoutThreads ++ [(L.rq, s.clock)] → s'.clock = s.clock →
      s'.peerSessions = s.peerSessions →
      sent = (recipients (getPeerIdentifier addr) s.peerSessions.entries).map
        (.search L.rq L.item description, ·) →
      StoreStep s (.receive j addr) s' sent
  | offered {j : Json P} {addr : SockaddrIn} {rq : Int32} {offer : OfferInfo P} {s' : Server P} :
      searchOf j addr s.clock = none → offerOf j addr = some (rq, offer) →
      s'.activeSearches = (StoreEvent.offer rq s.clock offer).apply s.activeSearches →
      s'.timeoutThreads = s.timeoutThreads → s'.clock = s.clock →
      s'.peerSessions = s.peerSessions → StoreStep s (.receive j addr) s' []
  | answered {j : Json P} {addr : SockaddrIn} {s' : Server P} {sent : Sent P} :
      searchOf j addr s.clock = none → offerOf j addr = none →
      s'.activeSearches = s.activeSearches → s'.timeoutThreads = s.timeoutThreads →
      s'.clock = s.clock →
      (∀ e ∈ sent, (∃ rq, e.1 = .registered rq) ∨ ∃ rq reason, e.1 = .registerDenied rq reason) →
      StoreStep s (.receive j addr) s' sent
  | fired {k : Nat} {rq : Int32} {started : Int} {s' : Server P} :
      s.timeoutThreads[k]? = some (rq, started) →
      s'.activeSearches = (StoreEvent.timer rq).apply s.activeSearches →
      s'.timeoutThreads = s.timeoutThreads.eraseIdx k → s'.clock = s.clock →
      s'.peerSessions = s.peerSessions →
      StoreStep s (.timeout k) s' ((pending s.activeSearches rq).map verdict).toList
  | aside {l : ServerInput P} {s' : Server P} :
      storeEvent? s l = none → s'.activeSearches = s.activeSearches →
      s'.timeoutThreads = s.timeoutThreads → s.clock ≤ s'.clock → StoreStep s l s' []

theorem receive_store {s s' : Server P} {j : Json P} {addr : SockaddrIn} {sent : Sent P}
    (h : s.step (.receive j addr) = some (s', sent)) : StoreStep s (.receive j addr) s' sent := by
  rcases receive_step h with ⟨s₁, hprint, hhandled, rfl, rfl⟩ |
    ⟨fault, hcaught, hdispatch, rfl, rfl⟩
  · cases hhandled with
    | denied hcommand | registered hcommand | deregistered hcommand =>
      have hword := commandOf_of_reads hprint hcommand
      exact .answered (searchOf_of_command (by simp [hword])) (offerOf_of_command (by simp [hword]))
        rfl rfl rfl (by simp)
    | ignored hcommand hunknown =>
      have hword := commandOf_of_reads hprint hcommand
      simp only [List.mem_cons, not_or] at hunknown
      exact .answered (searchOf_of_command (by simp [hword, hunknown]))
        (offerOf_of_command (by simp [hword, hunknown])) rfl rfl rfl (by simp)
    | searched hcommand hrq hname hitem hmax hdescription =>
      have hword := commandOf_of_reads hprint hcommand
      exact .searched (L := ⟨_, _, _, _, addr, s.clock⟩)
        (searchOf_eq_some.mpr ⟨hword, readLookingFor_of_reads hrq hname hitem hmax⟩)
        rfl rfl rfl rfl rfl
    | offered hcommand hrq hname hitem hprice =>
      have hword := commandOf_of_reads hprint hcommand
      rw [recordOffer_eq]
      exact .offered (searchOf_of_command (by simp [hword]))
        (offerOf_eq_some.mpr ⟨hword, readOffer_of_reads hrq hname hitem hprice⟩) rfl rfl rfl rfl
  · obtain ⟨hsearch, hoffer⟩ := no_event_of_rejected hcaught hdispatch
    exact .answered hsearch hoffer rfl rfl rfl (by simp)

/-- **What a step does to the store**, its threads and its clock. -/
theorem store_step {s s' : Server P} {l : ServerInput P} {sent : Sent P}
    (h : s.step l = some (s', sent)) : StoreStep s l s' sent := by
  cases l with
  | receive j addr => exact receive_store h
  | push k =>
    obtain ⟨rfl, events, -, rfl⟩ := push_step h
    exact .aside rfl rfl rfl le_rfl
  | event =>
    obtain ⟨rfl, event, a, rest, sessions, machine, -, rfl, -⟩ := event_step h
    exact .aside rfl rfl rfl le_rfl
  | timeout k =>
    obtain ⟨rq, started, hthread, rfl, rfl⟩ := timeout_step h
    exact .fired hthread rfl rfl rfl rfl
  | tick d =>
    obtain ⟨rfl, rfl⟩ := tick_step h
    exact .aside rfl rfl rfl (by simp)

section Step
variable {s s' : Server P} {l : ServerInput P} {sent : Sent P}

/-- The store moves by the event of the step. -/
theorem StoreStep.store (h : StoreStep s l s' sent) :
    s'.activeSearches =
      (storeEvent? s l).elim s.activeSearches (StoreEvent.apply s.activeSearches) := by
  cases h with
  | searched hsearch hstore => simpa [storeEvent?, hsearch] using hstore
  | offered hsearch hoffer hstore => simpa [storeEvent?, hsearch, hoffer] using hstore
  | answered hsearch hoffer hstore => simpa [storeEvent?, hsearch, hoffer] using hstore
  | fired hthread hstore => simpa [storeEvent?, hthread] using hstore
  | aside hevent hstore => simpa [hevent] using hstore

theorem StoreStep.clock_le (h : StoreStep s l s' sent) : s.clock ≤ s'.clock := by
  cases h with
  | searched _ _ _ hclock | offered _ _ _ _ hclock | answered _ _ _ _ hclock
  | fired _ _ _ hclock => exact hclock.ge
  | aside _ _ _ hclock => exact hclock

end Step

/-! ### The log of a run -/

/-- The events of the store that the steps of a run are, one after another. -/
def storeLog (tr : List (ServerInput P × Sent P)) : List (StoreEvent P) :=
  (serverMachine P).observe (fun s l => (storeEvent? s l).toList) {} tr

section Log
variable {s s' : Server P} {tr : List (ServerInput P × Sent P)} {l : ServerInput P} {sent : Sent P}

theorem storeLog_snoc (h : Run (serverMachine P) {} tr s) (hstep : s.step l = some (s', sent)) :
    storeLog (tr ++ [(l, sent)]) = storeLog tr ++ (storeEvent? s l).toList :=
  h.observe_snoc hstep

/-- **The store is the store of the log.** -/
theorem store_log (h : Run (serverMachine P) {} tr s) : s.activeSearches = store (storeLog tr) := by
  induction h with
  | start => rfl
  | @snoc tr s s' l sent hrun hstep ih =>
    rw [(store_step hstep).store, storeLog_snoc hrun hstep, ih]
    cases storeEvent? s l with
    | none => simp
    | some e => simp [store_snoc]

end Log

/-! ### What becomes of an entry -/

omit [Double P] in
/-- Where an entry comes from when an event has moved the store. -/
inductive EntryFrom (m : Searches P) (rq : Int32) : StoreEvent P → SearchRequest P → Prop where
  | stored {L : LookingFor P} : L.rq = rq → EntryFrom m rq (.lookingFor L) L.request
  | kept {e : StoreEvent P} {search : SearchRequest P} : m.lookup rq = some search →
      (e = .timer rq → search.offersProcessed = true) → EntryFrom m rq e search
  | offered {now : Int} {offer : OfferInfo P} {search : SearchRequest P} :
      m.lookup rq = some search → now - search.startTime < minute →
      EntryFrom m rq (.offer rq now offer) {search with offers := search.offers ++ [offer]}
  | closed {search : SearchRequest P} : m.lookup rq = some search → search.offers ≠ [] →
      EntryFrom m rq (.timer rq) {search with offersProcessed := true}

section Entry
variable {m : Searches P} {rq : Int32} {search : SearchRequest P}
omit [Double P]

theorem entryFrom_lookingFor {L : LookingFor P}
    (h : ((StoreEvent.lookingFor L).apply m).lookup rq = some search) :
    EntryFrom m rq (.lookingFor L) search := by
  by_cases hrq : L.rq = rq
  · subst hrq
    rw [StoreEvent.apply, AList.lookup_insert] at h
    cases h
    exact .stored rfl
  · rw [StoreEvent.apply, AList.lookup_insert_ne (Ne.symm hrq)] at h
    exact .kept h (by simp)

theorem entryFrom_offer {r : Int32} {now : Int} {offer : OfferInfo P}
    (h : ((StoreEvent.offer r now offer).apply m).lookup rq = some search) :
    EntryFrom m rq (.offer r now offer) search := by
  by_cases hr : rq = r
  case neg =>
    rw [lookup_apply_of_ne (e := .offer r now offer) hr] at h
    exact .kept h (by simp)
  case pos =>
    subst hr
    rw [lookup_offer] at h
    obtain ⟨old, hold, rfl⟩ := Option.map_eq_some_iff.mp h
    unfold SearchRequest.join
    split
    case isTrue hin => exact .offered hold hin.2
    case isFalse => exact .kept hold (by simp)

theorem entryFrom_timer {r : Int32}
    (h : ((StoreEvent.timer r).apply m).lookup rq = some search) :
    EntryFrom m rq (.timer r) search := by
  by_cases hr : rq = r
  case neg =>
    -- The entry of another number.
    rw [lookup_apply_of_ne (e := .timer r) hr] at h
    exact .kept h fun hsame => absurd (StoreEvent.timer.inj hsame).symm hr
  case pos =>
    subst hr
    simp only [StoreEvent.apply] at h
    split at h
    case h_1 hnone =>
      rw [hnone] at h
      cases h
    case h_2 old hold =>
      split at h
      case isTrue hprocessed =>
        rw [hold] at h
        cases h
        exact .kept hold fun _ => hprocessed
      case isFalse =>
        split at h
        case isTrue =>
          rw [AList.lookup_erase] at h
          cases h
        case isFalse hoffers =>
          rw [AList.lookup_insert] at h
          cases h
          exact .closed hold hoffers

theorem entryFrom_apply {e : StoreEvent P} (h : (e.apply m).lookup rq = some search) :
    EntryFrom m rq e search := by
  cases e with
  | lookingFor L => exact entryFrom_lookingFor h
  | offer r now offer => exact entryFrom_offer h
  | timer r => exact entryFrom_timer h

theorem EntryFrom.key {e : StoreEvent P} (h : EntryFrom m rq e search)
    (hold : ∀ old, m.lookup rq = some old → old.requestNumber = rq) :
    search.requestNumber = rq := by
  cases h with
  | stored hrq => exact hrq
  | kept hlookup => exact hold search hlookup
  | @offered now offer old hlookup => exact hold old hlookup
  | @closed old hlookup => exact hold old hlookup

theorem EntryFrom.answered {e : StoreEvent P} (h : EntryFrom m rq e search)
    (hold : ∀ old, m.lookup rq = some old → old.offersProcessed = true → old.offers ≠ [])
    (hprocessed : search.offersProcessed = true) : search.offers ≠ [] := by
  cases h with
  | stored => cases hprocessed
  | kept hlookup => exact hold _ hlookup hprocessed
  | offered => simp
  | closed _ hoffers => exact hoffers

/-- An entry starts when its search is stored, and no event moves its start. -/
theorem EntryFrom.started {e : StoreEvent P} {now : Int} (h : EntryFrom m rq e search)
    (hold : ∀ old, m.lookup rq = some old → old.startTime ≤ now)
    (hstored : ∀ L, e = .lookingFor L → L.now = now) : search.startTime ≤ now := by
  cases h with
  | stored => exact (hstored _ rfl).le
  | kept hlookup => exact hold _ hlookup
  | @offered _ offer old hlookup => exact hold old hlookup
  | @closed old hlookup => exact hold old hlookup

/-- An entry that is open was stored by the event, or open before and not timed out. -/
theorem EntryFrom.open {e : StoreEvent P} (h : EntryFrom m rq e search)
    (hopen : search.offersProcessed = false) :
    (∃ L, e = .lookingFor L ∧ L.rq = rq) ∨
      ((∃ old, m.lookup rq = some old ∧ old.offersProcessed = false) ∧ e ≠ .timer rq) := by
  cases h with
  | stored hrq => exact .inl ⟨_, rfl, hrq⟩
  | kept hlookup htimer =>
    refine .inr ⟨⟨_, hlookup, hopen⟩, fun he => ?_⟩
    rw [htimer he] at hopen
    cases hopen
  | offered hlookup => exact .inr ⟨⟨_, hlookup, hopen⟩, by simp⟩
  | closed => cases hopen

end Entry

/-! ### The law of the store -/

/-- A message offering `offer` for `rq` was handled within the minute from `start` on. -/
def OfferedInTime (tr : List (ServerInput P × Sent P)) (rq : Int32) (offer : OfferInfo P)
    (start : Int) : Prop :=
  ∃ front j addr sent back s, tr = front ++ (.receive j addr, sent) :: back ∧
    Run (serverMachine P) {} front s ∧ offerOf j addr = some (rq, offer) ∧
    start ≤ s.clock ∧ s.clock - start < minute

structure StoreLaw (tr : List (ServerInput P × Sent P)) (s : Server P) : Prop where
  key : ∀ rq search, s.activeSearches.lookup rq = some search → search.requestNumber = rq
  awaited : ∀ rq search, s.activeSearches.lookup rq = some search →
    search.offersProcessed = false → ∃ thread ∈ s.timeoutThreads, thread.1 = rq
  answered : ∀ rq search, s.activeSearches.lookup rq = some search →
    search.offersProcessed = true → search.offers ≠ []
  started : ∀ rq search, s.activeSearches.lookup rq = some search → search.startTime ≤ s.clock
  inTime : ∀ rq search, s.activeSearches.lookup rq = some search →
    ∀ offer ∈ search.offers, OfferedInTime tr rq offer search.startTime

section Law
variable {tr : List (ServerInput P × Sent P)} {s s' : Server P} {l : ServerInput P} {sent : Sent P}

theorem OfferedInTime.snoc {rq : Int32} {offer : OfferInfo P} {start : Int}
    (h : OfferedInTime tr rq offer start) (e : ServerInput P × Sent P) :
    OfferedInTime (tr ++ [e]) rq offer start := by
  obtain ⟨front, j, addr, sent, back, s, rfl, hrun, hoffer, hstart, htime⟩ := h
  exact ⟨front, j, addr, sent, back ++ [e], s, by simp, hrun, hoffer, hstart, htime⟩

/-- A pending thread of another number is still pending. -/
theorem awaited_eraseIdx {threads : List (Int32 × Int)} {k : Nat} {rq r : Int32} {started : Int}
    (hk : threads[k]? = some (r, started)) (hne : r ≠ rq)
    (h : ∃ thread ∈ threads, thread.1 = rq) : ∃ thread ∈ threads.eraseIdx k, thread.1 = rq := by
  obtain ⟨thread, hmem, hthread⟩ := h
  rcases List.mem_cons.mp ((perm_eraseIdx hk).mem_iff.mpr hmem) with rfl | hmem
  · exact absurd hthread hne
  · exact ⟨thread, hmem, hthread⟩

/-- Each entry after a step is one before it, moved on as the event of the step says. -/
theorem entry_step (hstep : StoreStep s l s' sent) {rq : Int32} {search : SearchRequest P}
    (hlookup : s'.activeSearches.lookup rq = some search) :
    (storeEvent? s l = none ∧ s.activeSearches.lookup rq = some search) ∨
      ∃ e, storeEvent? s l = some e ∧ EntryFrom s.activeSearches rq e search := by
  rw [hstep.store] at hlookup
  cases hevent : storeEvent? s l with
  | none =>
    rw [hevent] at hlookup
    exact .inl ⟨rfl, hlookup⟩
  | some e =>
    rw [hevent] at hlookup
    exact .inr ⟨e, rfl, entryFrom_apply hlookup⟩

/-- A thread leaves only as the timer of its number, and every search that is stored
starts one. -/
theorem StoreStep.awaited (hstep : StoreStep s l s' sent) {rq : Int32}
    (h : (∃ L, storeEvent? s l = some (.lookingFor L) ∧ L.rq = rq) ∨
      ((∃ thread ∈ s.timeoutThreads, thread.1 = rq) ∧ storeEvent? s l ≠ some (.timer rq))) :
    ∃ thread ∈ s'.timeoutThreads, thread.1 = rq := by
  cases hstep with
  | @searched j addr L description s' sent hsearch hstore hthreads =>
    rw [hthreads]
    rcases h with ⟨L', hevent, hrq⟩ | ⟨⟨thread, hmem, hthread⟩, -⟩
    · have hL : storeEvent? s (.receive j addr) = some (.lookingFor L) := by
        simp [storeEvent?, hsearch]
      rw [hL] at hevent
      cases hevent
      exact ⟨(L.rq, s.clock), by simp, hrq⟩
    · exact ⟨thread, List.mem_append_left _ hmem, hthread⟩
  | offered hsearch hoffer _ hthreads =>
    rw [hthreads]
    rcases h with ⟨L', hevent, -⟩ | ⟨hpending, -⟩
    · simp [storeEvent?, hsearch, hoffer] at hevent
    · exact hpending
  | answered hsearch hoffer _ hthreads =>
    rw [hthreads]
    rcases h with ⟨L', hevent, -⟩ | ⟨hpending, -⟩
    · simp [storeEvent?, hsearch, hoffer] at hevent
    · exact hpending
  | fired hthread _ hthreads =>
    rw [hthreads]
    rcases h with ⟨L', hevent, -⟩ | ⟨hpending, hother⟩
    · simp [storeEvent?, hthread] at hevent
    · refine awaited_eraseIdx hthread (fun hsame => hother ?_) hpending
      simp [storeEvent?, hthread, hsame]
  | aside hevent _ hthreads =>
    rw [hthreads]
    rcases h with ⟨L', hevent', -⟩ | ⟨hpending, -⟩
    · rw [hevent] at hevent'
      cases hevent'
    · exact hpending

/-- An offer that an event of a step adds was handled in that step. -/
theorem offeredInTime_step (hrun : Run (serverMachine P) {} tr s) {rq : Int32} {now : Int}
    {offer : OfferInfo P} {start : Int} (hevent : storeEvent? s l = some (.offer rq now offer))
    (hstart : start ≤ s.clock) (htime : now - start < minute) :
    OfferedInTime (tr ++ [(l, sent)]) rq offer start := by
  obtain ⟨j, addr, rfl, hoffer, rfl⟩ := storeEvent_offer hevent
  exact ⟨tr, j, addr, sent, [], s, rfl, hrun, hoffer, hstart, htime⟩

/-- **One step keeps the law.** -/
theorem storeLaw_step (h : StoreLaw tr s) (hrun : Run (serverMachine P) {} tr s)
    (hstep : s.step l = some (s', sent)) : StoreLaw (tr ++ [(l, sent)]) s' := by
  have hstore := store_step hstep
  refine ⟨?_, ?_, ?_, ?_, ?_⟩ <;> intro rq search hlookup
  · rcases entry_step hstore hlookup with ⟨-, hold⟩ | ⟨e, -, hfrom⟩
    · exact h.key rq search hold
    · exact hfrom.key (h.key rq)
  · intro hopen
    refine hstore.awaited ?_
    rcases entry_step hstore hlookup with ⟨hnone, hold⟩ | ⟨e, hevent, hfrom⟩
    · exact .inr ⟨h.awaited rq search hold hopen, by simp [hnone]⟩
    · rcases hfrom.open hopen with ⟨L, rfl, hrq⟩ | ⟨⟨old, hold, holdopen⟩, hne⟩
      · exact .inl ⟨L, hevent, hrq⟩
      · exact .inr ⟨h.awaited rq old hold holdopen, by simpa [hevent] using hne⟩
  · rcases entry_step hstore hlookup with ⟨-, hold⟩ | ⟨e, -, hfrom⟩
    · exact h.answered rq search hold
    · exact hfrom.answered (h.answered rq)
  · refine le_trans ?_ hstore.clock_le
    rcases entry_step hstore hlookup with ⟨-, hold⟩ | ⟨e, hevent, hfrom⟩
    · exact h.started rq search hold
    · exact hfrom.started (h.started rq) fun L hL => storeEvent_now (hL ▸ hevent)
  · intro offer hoffer
    rcases entry_step hstore hlookup with ⟨-, hold⟩ | ⟨e, hevent, hfrom⟩
    · exact (h.inTime rq search hold offer hoffer).snoc _
    · cases hfrom with
      | stored => cases hoffer
      | kept hold => exact (h.inTime rq search hold offer hoffer).snoc _
      | closed hold => exact (h.inTime rq _ hold offer hoffer).snoc _
      | @offered _ _ old hold htime =>
        rcases List.mem_append.mp hoffer with hoffer | hoffer
        · exact (h.inTime rq _ hold offer hoffer).snoc _
        · obtain rfl := List.mem_singleton.mp hoffer
          exact offeredInTime_step hrun hevent (h.started rq old hold) htime

/-- **No search is orphaned in the store.** In every reachable state an entry has its key
as its number, waits for a timer or has been answered with an offer, and holds only
offers handled within the minute from its start on. -/
theorem no_orphan (h : Run (serverMachine P) {} tr s) : StoreLaw tr s := by
  refine h.invariant StoreLaw ?_ fun _ _ _ _ _ hrun hlaw hstep => storeLaw_step hlaw hrun hstep
  refine ⟨?_, ?_, ?_, ?_, ?_⟩ <;> (intro rq search hlookup; cases hlookup)

end Law

/-- A search with an offer, closed by its timer, and stored again under its number. -/
def storedTwice : List (ServerInput Rat) :=
  [.receive (ClientMessage.lookingFor 1 "peer1" "lamp" "old" 10).toJson (loopback 5001),
   .tick 7,
   .receive (ClientMessage.offer 1 "peer2" "lamp" 8).toJson (loopback 5002),
   .timeout 0,
   .receive (ClientMessage.lookingFor 1 "peer1" "lamp" "old" 10).toJson (loopback 5001)]

theorem no_orphan_stored : ∃ s tr, Run (serverMachine Rat) {} tr s ∧
    (s.activeSearches.lookup 1).isSome = true ∧ StoreLaw tr s := by
  obtain ⟨s, tr, hrun, hview⟩ := (serverMachine Rat).exec_view {} storedTwice
    (fun r => (r.1.activeSearches.lookup 1).isSome) (v := true) (by decide +kernel)
  exact ⟨s, tr, hrun, hview, no_orphan hrun⟩

end P2PShopping
