import P2PShopping.Server.StoreLog

/-! Who the server serves.

The table of sessions is read by the broadcast of a search, and by `handleRegister` to
deny a second registration. No other handler asks it about its sender, and no timer
about the peer it writes to. So a SEARCH goes to sessions whatever happens
(`served_of_receive`), and the rest of the service is for registered peers exactly as
long as nobody else asks for it, nobody offers to himself, and nobody a verdict is for
has left (`registration_gates_iff`). -/
namespace P2PShopping
open Collections Json Handler Runs

variable {P : Type} [Double P]

/-- `a` has a session, not just a null pointer under its key. -/
def hasSession (s : Server P) (a : SockaddrIn) : Bool :=
  (s.peerSessions.lookup (getPeerIdentifier a)).join.isSome

omit [Double P] in
/-- SEARCH, FOUND, NOT_AVAILABLE and NEGOTIATE. -/
def ServerMessage.isService : ServerMessage P → Bool
  | .search .. | .found .. | .notAvailable .. | .negotiate .. => true
  | .registered _ | .registerDenied .. => false

/-! ### The gate -/

/-- What registration gates in a step. -/
structure Gated (s : Server P) (l : ServerInput P) (s' : Server P) (sent : Sent P) : Prop where
  /-- A LOOKING_FOR is stored, and its thread started, for a session. -/
  stored : ∀ j addr, ∀ L : LookingFor P, l = .receive j addr →
    s'.activeSearches.lookup L.rq = some L.request →
    s'.timeoutThreads = s.timeoutThreads ++ [(L.rq, s.clock)] → hasSession s addr = true
  /-- An OFFER is recorded for a session, and not for the searcher's. -/
  recorded : ∀ j addr rq search offer, l = .receive j addr →
    s.activeSearches.lookup rq = some search →
    s'.activeSearches.lookup rq = some {search with offers := search.offers ++ [offer]} →
    hasSession s addr = true ∧ addr ≠ search.searcherAddr
  /-- A SEARCH, FOUND, NOT_AVAILABLE or NEGOTIATE is sent to a session. -/
  served : ∀ message a, (message, a) ∈ sent → message.isService = true → hasSession s a = true

/-- **Registration gates the service** in every step of the history. -/
def GatedRun (tr : List (ServerInput P × Sent P)) : Prop :=
  ∀ front l sent back s s', tr = front ++ (l, sent) :: back → Run (serverMachine P) {} front s →
    s.step l = some (s', sent) → Gated s l s' sent

/-- Those a verdict on the search is for have sessions: the searcher if no offer was made
or one is within the maximum price, and else the first who asked the least. -/
def ToldPresent (s : Server P) (search : SearchRequest P) : Prop :=
  ((search.offers = [] ∨ ∃ offer ∈ search.offers, offer.price ≤ search.maxPrice) →
    hasSession s search.searcherAddr = true) ∧
  ∀ before offer after, search.offers = before ++ offer :: after →
    (∀ x ∈ before, offer.price < x.price) → (∀ x ∈ after, offer.price ≤ x.price) →
    search.maxPrice < offer.price → hasSession s offer.sellerAddr = true

/-- Nobody without a session searches, nobody without a session or for his own search
offers in time, and no thread wakes up after those it writes to have left. -/
def askedByPeers (s : Server P) : ServerInput P → Prop
  | .receive j addr =>
    ((searchOf j addr s.clock).isSome = true → hasSession s addr = true) ∧
    ∀ rq offer search, offerOf j addr = some (rq, offer) →
      pending s.activeSearches rq = some search → s.clock - search.startTime < minute →
      hasSession s addr = true ∧ addr ≠ search.searcherAddr
  | .timeout k => ∀ rq started search, s.timeoutThreads[k]? = some (rq, started) →
      pending s.activeSearches rq = some search → ToldPresent s search
  | _ => True

/-! ### Sessions lie under their own keys -/

/-- Every session lies under the key of its peer's address. Null pointers may lie anywhere. -/
def SessionKeys (s : Server P) : Prop :=
  ∀ key session, s.peerSessions.lookup key = some (some session) →
    getPeerIdentifier session.peerAddr = key

section Keys
variable {s s' : Server P} {l : ServerInput P} {sent : Sent P}

theorem sessionKeys_step (hkeys : SessionKeys s) (h : s.step l = some (s', sent)) :
    SessionKeys s' := by
  intro key session hentry
  rcases entry_origin h hentry with hold | ⟨a, rfl, hnew⟩ | ⟨event, a, rest, -, -, rfl, hvisited⟩
  · exact hkeys key session hold
  · cases hnew
    rfl
  · obtain ⟨old, hold, rfl⟩ := Option.map_eq_some_iff.mp hvisited.symm
    exact hkeys _ old (Option.join_eq_some_iff.mp hold)

theorem sessionKeys_run {tr : List (ServerInput P × Sent P)} (h : Run (serverMachine P) {} tr s) :
    SessionKeys s :=
  h.invariant (fun _ s => SessionKeys s) (fun _ _ hentry => by cases hentry)
    fun _ _ _ _ _ _ hkeys hstep => sessionKeys_step hkeys hstep

/-- A broadcast reaches the peers of the sessions under all keys but one. -/
theorem mem_recipients {searcherId : String} {a : SockaddrIn} :
    a ∈ recipients searcherId s.peerSessions.entries ↔
      ∃ key session, s.peerSessions.lookup key = some (some session) ∧ key ≠ searcherId ∧
        session.peerAddr = a := by
  rw [recipients, List.mem_filterMap]
  constructor
  · intro hmem
    obtain ⟨⟨key, entry⟩, hentry, ha⟩ := hmem
    split at ha
    case isFalse => cases ha
    case isTrue hne =>
      obtain ⟨session, rfl, rfl⟩ := Option.map_eq_some_iff.mp ha
      exact ⟨key, session, Map.mem_entries_iff.mp hentry, hne, rfl⟩
  · intro hsession
    obtain ⟨key, session, hlookup, hne, rfl⟩ := hsession
    exact ⟨⟨key, some session⟩, Map.mem_entries_iff.mpr hlookup, by simp [hne]⟩

theorem hasSession_of_recipient (hkeys : SessionKeys s) {searcherId : String} {a : SockaddrIn}
    (h : a ∈ recipients searcherId s.peerSessions.entries) : hasSession s a = true := by
  obtain ⟨key, session, hlookup, -, rfl⟩ := mem_recipients.mp h
  rw [hasSession, hkeys key session hlookup, hlookup]
  rfl

/-- **A SEARCH goes to sessions**, whoever asked for it: of all a message makes the server
send, only the answers to a REGISTER may go to an address without one. -/
theorem served_of_receive (hkeys : SessionKeys s) {j : Json P} {addr : SockaddrIn}
    (hstep : s.step (.receive j addr) = some (s', sent)) {message : ServerMessage P}
    {a : SockaddrIn} (hmem : (message, a) ∈ sent) (hservice : message.isService = true) :
    hasSession s a = true := by
  cases store_step hstep with
  | searched _ _ _ _ _ hsent =>
    rw [hsent] at hmem
    obtain ⟨b, hb, hmessage⟩ := List.mem_map.mp hmem
    cases hmessage
    exact hasSession_of_recipient hkeys hb
  | answered _ _ _ _ _ hsent =>
    rcases hsent _ hmem with ⟨rq, hmessage⟩ | ⟨rq, reason, hmessage⟩
    · rw [show message = .registered rq from hmessage] at hservice
      cases hservice
    · rw [show message = .registerDenied rq reason from hmessage] at hservice
      cases hservice
  | offered | aside => cases hmem

end Keys

/-! ### Offers that are recorded -/

section Recorded
variable {m : Searches P} {r rq : Int32} {now : Int} {offer o : OfferInfo P}
  {search : SearchRequest P}
omit [Double P]

theorem ne_offered : search ≠ {search with offers := search.offers ++ [o]} := by
  intro h
  simpa using congrArg (fun x => x.offers.length) h

/-- An offer is recorded where a search is open and within its minute, and nowhere else. -/
theorem offer_recorded_iff (hlookup : m.lookup r = some search) :
    ((StoreEvent.offer rq now offer).apply m).lookup r =
        some {search with offers := search.offers ++ [o]} ↔
      r = rq ∧ o = offer ∧ search.offersProcessed = false ∧ now - search.startTime < minute := by
  by_cases hr : r = rq
  case neg =>
    rw [lookup_apply_of_ne (e := .offer rq now offer) hr, hlookup]
    exact iff_of_false (fun h => ne_offered (Option.some.inj h)) fun h => hr h.1
  case pos =>
    subst hr
    rw [lookup_offer, hlookup, Option.map_some, SearchRequest.join, Option.some.injEq]
    split
    case isTrue hin => simp [hin, eq_comm]
    case isFalse hout => exact iff_of_false ne_offered fun h => hout h.2.2

end Recorded

/-- The addressee of the verdict on a search, from what the search has been offered. -/
theorem toldPresent_iff {s : Server P} {search : SearchRequest P} :
    ToldPresent s search ↔ hasSession s (verdict search).2 = true := by
  unfold ToldPresent verdict
  cases hmin : search.offers.argmin (·.price) with
  | none =>
    have hnil : search.offers = [] := List.argmin_eq_none.mp hmin
    simp [hnil]
  | some lowest =>
    have hmem : lowest ∈ search.offers := List.argmin_mem hmin
    have hleast : ∀ offer ∈ search.offers, lowest.price ≤ offer.price :=
      fun offer hoffer => List.le_of_mem_argmin hoffer hmin
    have hcons : search.offers ≠ [] := List.ne_nil_of_mem hmem
    dsimp only
    split
    case isTrue hle =>
      constructor
      · intro hpresent
        exact hpresent.1 (.inr ⟨lowest, hmem, hle⟩)
      · intro hsearcher
        refine ⟨fun _ => hsearcher, ?_⟩
        intro before offer after hsplit hbefore hafter hgt
        rw [hsplit, argmin_of_split _ hbefore hafter] at hmin
        cases hmin
        exact absurd hle hgt.not_ge
    case isFalse hgt =>
      constructor
      · intro hpresent
        obtain ⟨before, after, hsplit, hbefore, hafter⟩ := argmin_split _ hmin
        exact hpresent.2 before lowest after hsplit hbefore hafter (lt_of_not_ge hgt)
      · intro hseller
        refine ⟨?_, ?_⟩
        · intro haffordable
          rcases haffordable with hnil | ⟨offer, hoffer, hle⟩
          · exact absurd hnil hcons
          · exact absurd ((hleast offer hoffer).trans hle) hgt
        · intro before offer after hsplit hbefore hafter _
          rw [hsplit, argmin_of_split _ hbefore hafter] at hmin
          cases hmin
          exact hseller

theorem verdict_isService (search : SearchRequest P) : (verdict search).1.isService = true := by
  unfold verdict
  split
  · rfl
  · split
    · rfl
    · rfl

/-! ### The gate is kept by who asks -/

section Step
variable {s s' : Server P} {l : ServerInput P} {sent : Sent P}

theorem no_event_iff {j : Json P} {addr : SockaddrIn} :
    storeEvent? s (.receive j addr) = none ↔
      searchOf j addr s.clock = none ∧ offerOf j addr = none := by
  cases hsearch : searchOf j addr s.clock <;> simp [storeEvent?, hsearch]

theorem offerOf_of_search {j : Json P} {addr : SockaddrIn} {now : Int} {L : LookingFor P}
    (h : searchOf j addr now = some L) : offerOf j addr = none :=
  offerOf_of_command (by simp [(searchOf_eq_some.mp h).1])

/-- A message starts a thread iff it is a search, which is then stored. -/
theorem stored_iff {j : Json P} {addr : SockaddrIn}
    (hstep : s.step (.receive j addr) = some (s', sent)) :
    (∃ L : LookingFor P, s'.activeSearches.lookup L.rq = some L.request ∧
        s'.timeoutThreads = s.timeoutThreads ++ [(L.rq, s.clock)]) ↔
      (searchOf j addr s.clock).isSome = true := by
  have hnot : searchOf j addr s.clock = none → s'.timeoutThreads = s.timeoutThreads →
      ((∃ L : LookingFor P, s'.activeSearches.lookup L.rq = some L.request ∧
          s'.timeoutThreads = s.timeoutThreads ++ [(L.rq, s.clock)]) ↔
        (searchOf j addr s.clock).isSome = true) := by
    intro hnone hthreads
    rw [hnone, hthreads]
    exact iff_of_false (by simp) (by simp)
  cases receive_store hstep with
  | @searched _ _ L _ _ _ hsearch hstore hthreads =>
    rw [hsearch, hstore, hthreads]
    exact iff_of_true ⟨L, AList.lookup_insert _, rfl⟩ rfl
  | offered hnone _ _ hthreads => exact hnot hnone hthreads
  | answered hnone _ _ hthreads => exact hnot hnone hthreads
  | aside hevent _ hthreads => exact hnot (no_event_iff.mp hevent).1 hthreads

/-- What a message adds to an entry is its offer. -/
theorem recorded_iff {j : Json P} {addr : SockaddrIn} {rq : Int32} {search : SearchRequest P}
    {offer : OfferInfo P} (hstep : s.step (.receive j addr) = some (s', sent))
    (hlookup : s.activeSearches.lookup rq = some search) :
    s'.activeSearches.lookup rq = some {search with offers := search.offers ++ [offer]} ↔
      offerOf j addr = some (rq, offer) ∧ search.offersProcessed = false ∧
        s.clock - search.startTime < minute := by
  cases receive_store hstep with
  | @searched _ _ L _ _ _ hsearch hstore =>
    rw [offerOf_of_search hsearch, hstore, StoreEvent.apply]
    refine iff_of_false (fun h => ?_) (fun h => by cases h.1)
    by_cases hrq : rq = L.rq
    · rw [hrq, AList.lookup_insert] at h
      simpa [LookingFor.request, newSearch] using congrArg (·.offers) (Option.some.inj h)
    · rw [AList.lookup_insert_ne hrq, hlookup] at h
      exact ne_offered (Option.some.inj h)
  | offered _ hoffer hstore =>
    rw [hstore, offer_recorded_iff hlookup, hoffer]
    constructor
    · intro h
      obtain ⟨rfl, rfl, hin⟩ := h
      exact ⟨rfl, hin⟩
    · intro h
      obtain ⟨hsame, hin⟩ := h
      cases hsame
      exact ⟨rfl, rfl, hin⟩
  | answered _ hnone hstore =>
    rw [hstore, hlookup, hnone]
    exact iff_of_false (fun h => ne_offered (Option.some.inj h)) (fun h => by cases h.1)
  | aside hevent hstore =>
    rw [hstore, hlookup, (no_event_iff.mp hevent).2]
    exact iff_of_false (fun h => ne_offered (Option.some.inj h)) (fun h => by cases h.1)

theorem receive_gated_iff (hkeys : SessionKeys s) {j : Json P} {addr : SockaddrIn}
    (hstep : s.step (.receive j addr) = some (s', sent)) :
    Gated s (.receive j addr) s' sent ↔ askedByPeers s (.receive j addr) := by
  constructor
  · intro hgated
    refine ⟨fun hsearch => ?_, fun rq offer search hoffer hpending htime => ?_⟩
    · obtain ⟨L, hstored, hthread⟩ := (stored_iff hstep).mpr hsearch
      exact hgated.stored j addr L rfl hstored hthread
    · obtain ⟨hlookup, hopen⟩ := pending_eq_some.mp hpending
      exact hgated.recorded j addr rq search offer rfl hlookup
        ((recorded_iff hstep hlookup).mpr ⟨hoffer, hopen, htime⟩)
  · intro hasked
    refine ⟨?_, ?_, fun _ _ => served_of_receive hkeys hstep⟩
    · intro j' addr' L hl hstored hthread
      cases hl
      exact hasked.1 ((stored_iff hstep).mp ⟨L, hstored, hthread⟩)
    · intro j' addr' rq search offer hl hlookup hrecorded
      cases hl
      obtain ⟨hoffer, hopen, htime⟩ := (recorded_iff hstep hlookup).mp hrecorded
      exact hasked.2 rq offer search hoffer (pending_eq_some.mpr ⟨hlookup, hopen⟩) htime

theorem timeout_gated_iff {k : Nat} (hstep : s.step (.timeout k) = some (s', sent)) :
    Gated s (.timeout k) s' sent ↔ askedByPeers s (.timeout k) := by
  obtain ⟨rq, started, hthread, rfl, -⟩ := timeout_step hstep
  constructor
  · intro hgated rq' started' search hthread' hpending
    rw [hthread] at hthread'
    cases hthread'
    refine toldPresent_iff.mpr (hgated.served _ _ ?_ (verdict_isService search))
    simp [hpending]
  · intro hasked
    refine ⟨fun _ _ _ hl => (by cases hl), fun _ _ _ _ _ hl => (by cases hl), ?_⟩
    intro message a hmem _
    obtain ⟨search, hpending, hverdict⟩ := Option.map_eq_some_iff.mp (Option.mem_toList.mp hmem)
    have hpresent := toldPresent_iff.mp (hasked rq started search hthread hpending)
    rwa [hverdict] at hpresent

/-- **What the gate comes to in one step.** -/
theorem gated_iff (hkeys : SessionKeys s) (hstep : s.step l = some (s', sent)) :
    Gated s l s' sent ↔ askedByPeers s l := by
  have hquiet : ∀ l, (∀ j addr, l ≠ .receive j addr) → Gated s l s' [] :=
    fun l hl => ⟨fun j addr _ h => absurd h (hl j addr),
      fun j addr _ _ _ h => absurd h (hl j addr), fun _ _ hmem => by cases hmem⟩
  cases l with
  | receive j addr => exact receive_gated_iff hkeys hstep
  | timeout k => exact timeout_gated_iff hstep
  | push k =>
    obtain ⟨rfl, -⟩ := push_step hstep
    exact iff_of_true (hquiet _ (by simp)) trivial
  | event =>
    obtain ⟨rfl, -⟩ := event_step hstep
    exact iff_of_true (hquiet _ (by simp)) trivial
  | tick d =>
    obtain ⟨rfl, -⟩ := tick_step hstep
    exact iff_of_true (hquiet _ (by simp)) trivial

/-- **Registration gates the service in a run iff only peers ask**: every search comes
from a session, every offer in time from another session than the searcher's, and those
a verdict is for are there when their thread wakes up. -/
theorem registration_gates_iff {tr : List (ServerInput P × Sent P)}
    (h : Run (serverMachine P) {} tr s) :
    GatedRun tr ↔ StepsMeet (serverMachine P) askedByPeers {} tr := by
  constructor
  · intro hgated front e back s₁ htr hfront
    obtain ⟨s₂, hstep⟩ := (htr ▸ h).step_at hfront
    exact (gated_iff (sessionKeys_run hfront) hstep).mp
      (hgated front e.1 e.2 back s₁ s₂ htr hfront hstep)
  · intro hasked front l sent back s₁ s₂ htr hfront hstep
    exact (gated_iff (sessionKeys_run hfront) hstep).mpr
      (hasked front (l, sent) back s₁ htr hfront)

end Step

/-- Two peers register, one searches, the other offers, and the thread wakes up. -/
def tradedByPeers : List (ServerInput Rat) :=
  [.receive (ClientMessage.register 1 "peer1" "127.0.0.1" 5001 6001).toJson (loopback 5001),
   .receive (ClientMessage.register 1 "peer2" "127.0.0.1" 5002 6002).toJson (loopback 5002),
   .receive (ClientMessage.lookingFor 2 "peer1" "lamp" "old" 10).toJson (loopback 5001),
   .receive (ClientMessage.offer 2 "peer2" "lamp" 8).toJson (loopback 5002),
   .tick 60000000000,
   .timeout 0]

theorem registration_gates_iff_traded : ∃ s tr, Run (serverMachine Rat) {} tr s ∧
    (tr.map fun e => e.2.length) = [1, 1, 1, 0, 0, 1] ∧
    (GatedRun tr ↔ StepsMeet (serverMachine Rat) askedByPeers {} tr) := by
  obtain ⟨s, tr, hrun, hview⟩ := (serverMachine Rat).exec_view {} tradedByPeers
    (fun r => r.2.map fun e => e.2.length) (v := [1, 1, 1, 0, 0, 1]) (by decide +kernel)
  exact ⟨s, tr, hrun, hview, registration_gates_iff hrun⟩

/-- A search of an address that never registered. -/
def strangersSearch : Json Rat :=
  (ClientMessage.lookingFor 1 "peer1" "lamp" "old" 10).toJson

theorem stranger_served : ∃ s sent,
    Run (serverMachine Rat) {} [(.receive strangersSearch (loopback 5001), sent)] s ∧
      ¬ GatedRun [(.receive strangersSearch (loopback 5001), sent)] := by
  obtain ⟨⟨s, sent⟩, hstep⟩ : ∃ r,
      Server.step (P := Rat) {} (.receive strangersSearch (loopback 5001)) = some r :=
    Option.isSome_iff_exists.mp (by decide +kernel)
  refine ⟨s, sent, Run.one hstep, fun hgated => ?_⟩
  obtain ⟨L, hstored, hthread⟩ := (stored_iff hstep).mpr (by decide +kernel)
  have hsession := (hgated [] _ sent [] {} s rfl .start hstep).stored _ _ L rfl hstored hthread
  exact absurd hsession (by decide +kernel)

end P2PShopping
