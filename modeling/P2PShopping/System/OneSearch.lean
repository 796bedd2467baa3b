import Mathlib.Data.Finset.Insert
import P2PShopping.Server.Identifiers
import P2PShopping.System.Outcomes

/-! One search from end to end.

All sessions are those of a set of registered clients, and one of them searches
while the others do nothing but answer. Whatever the order in which the broadcast
and the offers arrive, each other client's price for the item is at every moment in
one place: in a SEARCH on its way to the client, in its OFFER, or among the offers
recorded (`Collecting`). When nothing is in flight all prices are recorded, and the
timer speaks about their minimum. -/
namespace P2PShopping
open Collections Json Runs

variable {P : Type}

/-- What a client asks for an item: the price of its first inventory entry of the name. -/
def asking (c : P2PClient P) (item : String) : Option P :=
  (c.inventory.find? (·.name = item)).map (·.price)

/-- The prices asked by these clients, with who asks them. -/
def quotes (clients : SockaddrIn → P2PClient P) (item : String) (l : List SockaddrIn) :
    List (SockaddrIn × P) :=
  l.filterMap fun a => (asking (clients a) item).map (a, ·)

theorem mem_quotes {clients : SockaddrIn → P2PClient P} {item : String} {l : List SockaddrIn}
    {a : SockaddrIn} {p : P} :
    (a, p) ∈ quotes clients item l ↔ a ∈ l ∧ asking (clients a) item = some p := by
  simp only [quotes, List.mem_filterMap, Option.map_eq_some_iff, Prod.mk.injEq]
  constructor
  · intro hquote
    obtain ⟨b, hb, q, hq, rfl, rfl⟩ := hquote
    exact ⟨hb, hq⟩
  · intro hasked
    obtain ⟨ha, hp⟩ := hasked
    exact ⟨a, ha, p, hp, rfl, rfl⟩

/-- The price in an OFFER, with its sender. -/
def quoted : ClientMessage P × SockaddrIn → Option (SockaddrIn × P)
  | (.offer _ _ _ price, a) => some (a, price)
  | _ => none

variable [Double P]

/-! ### The market -/

/-- The sessions are those of the members, and nobody else has anything pending. -/
structure Market (S : Finset SockaddrIn) (server : Server P) : Prop where
  session : ∀ a ∈ S, ∃ session,
    server.peerSessions.lookup (getPeerIdentifier a) = some (some session) ∧ session.peerAddr = a
  member : ∀ key entry, server.peerSessions.lookup key = some entry →
    ∃ a ∈ S, key = getPeerIdentifier a
  workers : ∀ w ∈ server.workers, w.2 ∈ S
  events : ∀ e ∈ server.eventQueue, e.2 ∈ S

section Market
variable {S : Finset SockaddrIn} {server : Server P}

theorem Market.sessionKeys (h : Market S server) : SessionKeys server := by
  intro key session hlookup
  obtain ⟨a, ha, rfl⟩ := h.member key (some session) hlookup
  obtain ⟨session', hsession, haddr⟩ := h.session a ha
  rw [hlookup] at hsession
  cases hsession
  rw [haddr]

theorem Market.hasSession_iff (h : Market S server) {a : SockaddrIn} :
    hasSession server a = true ↔ a ∈ S := by
  rw [P2PShopping.hasSession_iff h.sessionKeys]
  constructor
  · intro hentry
    obtain ⟨session, hlookup, -⟩ := hentry
    obtain ⟨b, hb, hsame⟩ := h.member _ _ hlookup
    rwa [getPeerIdentifier_inj hsame]
  · exact h.session a

/-- The broadcast reaches every other member, and nobody else. -/
theorem Market.mem_recipients (h : Market S server) {a b : SockaddrIn} :
    a ∈ recipients (getPeerIdentifier b) server.peerSessions.entries ↔ a ∈ S ∧ a ≠ b := by
  rw [mem_recipients_iff h.sessionKeys, h.hasSession_iff, and_comm]

theorem Market.congr {server' : Server P} (h : Market S server)
    (hsessions : server'.peerSessions = server.peerSessions)
    (hworkers : server'.workers = server.workers)
    (hevents : server'.eventQueue = server.eventQueue) : Market S server' := by
  refine ⟨?_, ?_, ?_, ?_⟩
  · rw [hsessions]
    exact h.session
  · rw [hsessions]
    exact h.member
  · rw [hworkers]
    exact h.workers
  · rw [hevents]
    exact h.events

theorem market_nobody : Market ∅ ({} : Server P) where
  session a ha := by simp at ha
  member key entry h := by cases h
  workers w hw := by cases hw
  events e he := by cases he

/-- A registration makes a member. -/
theorem Market.joined (h : Market S server) (a : SockaddrIn) :
    Market (insert a S) (server.setSession (getPeerIdentifier a) (some {peerAddr := a})) := by
  refine ⟨fun b hb => ?_, fun key entry hentry => ?_,
    fun w hw => Finset.mem_insert_of_mem (h.workers w hw),
    fun e he => Finset.mem_insert_of_mem (h.events e he)⟩
  · by_cases hba : b = a
    · subst hba
      exact ⟨{peerAddr := b}, AList.lookup_insert _, rfl⟩
    · obtain ⟨session, hsession, haddr⟩ := h.session b (Finset.mem_of_mem_insert_of_ne hb hba)
      exact ⟨session, by simpa [AList.lookup_insert_ne, hba] using hsession, haddr⟩
  · by_cases hkey : key = getPeerIdentifier a
    · exact ⟨a, Finset.mem_insert_self a S, hkey⟩
    · rw [Server.setSession_peerSessions, AList.lookup_insert_ne hkey] at hentry
      obtain ⟨b, hb, hkey⟩ := h.member key entry hentry
      exact ⟨b, Finset.mem_insert_of_mem hb, hkey⟩

/-- A member's message is one more worker. -/
theorem Market.took (h : Market S server) {m : ClientMessage P} {a : SockaddrIn} (ha : a ∈ S) :
    Market S (server.took m a) := by
  refine ⟨h.session, h.member, fun w hw => ?_, h.events⟩
  rcases List.mem_append.mp hw with hw | hw
  · exact h.workers w hw
  · obtain rfl := List.mem_singleton.mp hw
    exact ha

theorem Market.pushed (h : Market S server) {k : Nat} {events : List (P2PEvent P × SockaddrIn)}
    (hevents : ∀ e ∈ events, ∃ w ∈ server.workers, w.2 = e.2) :
    Market S {server with
      workers := server.workers.eraseIdx k
      eventQueue := server.eventQueue ++ events
      outbox := []} := by
  refine ⟨h.session, h.member, fun w hw => h.workers w (mem_of_mem_eraseIdx hw), fun e he => ?_⟩
  rcases List.mem_append.mp he with he | he
  · exact h.events e he
  · obtain ⟨w, hw, haddr⟩ := hevents e he
    exact haddr ▸ h.workers w hw

theorem Market.processed {event : P2PEvent P} {b : SockaddrIn}
    {rest : List (P2PEvent P × SockaddrIn)} {sessions : Map String (Option (PeerSession P))}
    {machine : StateMachine ServerStateType (P2PEvent P)} (h : Market S server)
    (hqueue : server.eventQueue = (event, b) :: rest)
    (hlookup : ∀ key, sessions.lookup key = visited event b (server.peerSessions.lookup key) key) :
    Market S {server with
      peerSessions := sessions
      serverStateMachine := machine
      eventQueue := rest
      outbox := []} := by
  have hb : b ∈ S := h.events (event, b) (by simp [hqueue])
  refine ⟨fun a ha => ?_, fun key entry hentry => ?_, h.workers,
    fun e he => h.events e (by simp [hqueue, he])⟩
  · obtain ⟨session, hsession, haddr⟩ := h.session a ha
    have hnow := hlookup (getPeerIdentifier a)
    rw [hsession] at hnow
    by_cases hab : a = b
    · exact ⟨session.visit event, by simpa [visited, hab] using hnow, haddr⟩
    · exact ⟨session, by simpa [visited, hab] using hnow, haddr⟩
  · have hnow := hlookup key
    rw [show sessions.lookup key = some entry from hentry] at hnow
    by_cases hkey : key = getPeerIdentifier b
    · exact ⟨b, hb, hkey⟩
    · rw [visited, if_neg hkey] at hnow
      exact h.member key entry hnow.symm

end Market

/-! ### The search -/

/-- The search is out, and each price asked is in one place. -/
structure Collecting (clients : SockaddrIn → P2PClient P) (R : List SockaddrIn) (q : Inquiry P)
    (description : String) (search : SearchRequest P) (s : System P) : Prop where
  stored : pending s.server.activeSearches q.rq = some search
  inquiry : search.inquiry = q
  offers : ∀ d ∈ s.toServer, ∃ name price, d.1 = .offer q.rq name q.item price
  searches : ∀ d ∈ s.toClient, d.1 = .search q.rq q.item (.str description) ∧ d.2 ∈ R
  conserved : (search.offers.map (fun o => (o.sellerAddr, o.price)) ++
    (s.toServer.filterMap quoted ++ quotes clients q.item (s.toClient.map Prod.snd))).Perm
      (quotes clients q.item R)

/-- What every undisturbed step keeps, from the LOOKING_FOR on. -/
structure Hunting (S : Finset SockaddrIn) (clients : SockaddrIn → P2PClient P) (q : Inquiry P)
    (name description : String) (s : System P) : Prop where
  market : Market S s.server
  idle : s.clients = clients
  others : ∀ rq, rq ≠ q.rq → pending s.server.activeSearches rq = none
  phase : (s.toServer = [(.lookingFor q.rq name q.item description q.maxPrice, q.addr)] ∧
      s.toClient = []) ∨
    ∃ R search, (∀ a, a ∈ R ↔ a ∈ S ∧ a ≠ q.addr) ∧ Collecting clients R q description search s

/-- Nobody acts, nothing is lost, offers go out and are handled within the minute of
their search, and no timer of the number fires. -/
def undisturbed (rq : Int32) (s : System P) : Move P → Bool
  | .user .. | .loseUp _ | .loseDown _ => false
  | .deliver _ sent => sent
  | .serve k =>
    match s.toServer[k]? with
    | some (.offer rq' .., _) =>
      (pending s.server.activeSearches rq').all fun search =>
        s.server.clock - search.startTime < minute
    | _ => true
  | .timeout k =>
    match s.server.timeoutThreads[k]? with
    | some (rq', _) => rq' ≠ rq
    | none => true
  | _ => true

section Steps
variable {S : Finset SockaddrIn} {clients : SockaddrIn → P2PClient P} {q : Inquiry P}
  {name description : String} {s s' : System P} {R : List SockaddrIn} {search : SearchRequest P}

/-- Only the datagrams and the search under the number matter to the collection. -/
theorem Collecting.congr (h : Collecting clients R q description search s)
    (hpending : pending s'.server.activeSearches q.rq =
      pending s.server.activeSearches q.rq)
    (hup : s'.toServer = s.toServer) (hdown : s'.toClient = s.toClient) :
    Collecting clients R q description search s' := by
  refine ⟨hpending.trans h.stored, h.inquiry, ?_, ?_, ?_⟩
  · rw [hup]
    exact h.offers
  · rw [hdown]
    exact h.searches
  · rw [hup, hdown]
    exact h.conserved

/-- An OFFER that is recorded moves its price from the network to the search. -/
theorem Collecting.offered {k : Nat} {b : SockaddrIn} {seller : String} {price : P}
    {server : Server P} (h : Collecting clients R q description search s)
    (hm : s.toServer[k]? = some (.offer q.rq seller q.item price, b))
    (hstore : server.activeSearches =
      (StoreEvent.offer q.rq s.server.clock ⟨seller, price, b⟩).apply s.server.activeSearches)
    (hearly : s.server.clock - search.startTime < minute) :
    Collecting clients R q description {search with offers := search.offers ++ [⟨seller, price, b⟩]}
      {s with server, toServer := s.toServer.eraseIdx k} := by
  refine ⟨?_, h.inquiry, fun d hd => h.offers d (mem_of_mem_eraseIdx hd), h.searches, ?_⟩
  · show pending server.activeSearches q.rq = _
    rw [hstore, pending_offer, h.stored]
    simp [hearly]
  · refine List.Perm.trans ?_ h.conserved
    have hperm := (perm_eraseIdx hm).filterMap quoted
    rw [List.filterMap_cons] at hperm
    simp only [List.map_append, List.map_cons, List.map_nil, List.append_assoc]
    exact List.Perm.append_left _ (hperm.append_right _)

/-- A SEARCH that is delivered becomes the OFFER of its client, if that has the item. -/
theorem Collecting.delivered {k : Nat} {b : SockaddrIn}
    (h : Collecting clients R q description search s)
    (hm : s.toClient[k]? = some (.search q.rq q.item (.str description), b)) :
    Collecting clients R q description search
      {s with
        toServer := s.toServer ++ ((asking (clients b) q.item).map fun price =>
          ClientMessage.offer q.rq (clients b).name q.item price).toList.map (·, b)
        toClient := s.toClient.eraseIdx k} := by
  refine ⟨h.stored, h.inquiry, ?_, fun d hd => h.searches d (mem_of_mem_eraseIdx hd), ?_⟩
  · intro d hd
    rcases List.mem_append.mp hd with hd | hd
    · exact h.offers d hd
    · cases hprice : asking (clients b) q.item with
      | none => simp [hprice] at hd
      | some price =>
        obtain rfl : d = (.offer q.rq (clients b).name q.item price, b) := by
          simpa [hprice] using hd
        exact ⟨_, price, rfl⟩
  · refine List.Perm.trans (List.Perm.append_left _ ?_) h.conserved
    have hreply : ((((asking (clients b) q.item).map fun price =>
        ClientMessage.offer q.rq (clients b).name q.item price).toList.map (·, b)).filterMap
          quoted) = ((asking (clients b) q.item).map (b, ·)).toList := by
      cases asking (clients b) q.item <;> rfl
    rw [List.filterMap_append, List.append_assoc, hreply]
    refine List.Perm.append_left _ ?_
    have hperm := ((perm_eraseIdx hm).map Prod.snd).filterMap
      fun a => (asking (clients a) q.item).map (a, ·)
    rw [List.map_cons, List.filterMap_cons] at hperm
    cases hprice : asking (clients b) q.item with
    | none => simpa [quotes, hprice] using hperm
    | some price => simpa [quotes, hprice] using hperm

/-- A registered client answers a SEARCH with what it asks. -/
theorem P2PClient.handle_search_registered {c : P2PClient P} (hstate : c.currentState = .registered)
    (rq : Int32) (item description : String) :
    c.handleReceivedMessage
        (ServerMessage.search rq item (.str description) : ServerMessage P).toJson true =
      (c, (asking c item).map fun price => .offer rq c.name item price) := by
  rw [handle_search]
  cases hfind : c.inventory.find? (·.name = item) <;>
    simp [handleSearchEvent, asking, hstate, hfind]

/-- The broadcast of the LOOKING_FOR puts every price asked into a SEARCH. -/
theorem Collecting.searched {server : Server P} {R : List SockaddrIn}
    (h : pending server.activeSearches q.rq = some search) (hinquiry : search.inquiry = q)
    (hoffers : search.offers = []) :
    Collecting clients R q description search
      {s with
        server
        toServer := []
        toClient := R.map (.search q.rq q.item (.str description), ·)} := by
  refine ⟨h, hinquiry, by simp, fun d hd => ?_, ?_⟩
  · obtain ⟨a, ha, rfl⟩ := List.mem_map.mp hd
    exact ⟨rfl, ha⟩
  · simp [hoffers, Function.comp_def]

/-- The clients that collect the offers' datagrams. -/
theorem Collecting.of_quoted (h : Collecting clients R q description search s)
    {m : ClientMessage P} {a : SockaddrIn} (hm : (m, a) ∈ s.toServer) : a ∈ R := by
  obtain ⟨name, price, rfl⟩ := h.offers _ hm
  have hquote : (a, price) ∈ quotes clients q.item R :=
    h.conserved.subset (List.mem_append_right _ (List.mem_append_left _
      (List.mem_filterMap.mpr ⟨_, hm, rfl⟩)))
  exact (mem_quotes.mp hquote).1

/-- A step in which nothing travels keeps a hunt, if the market and the pending searches stay. -/
theorem Hunting.quiet (h : Hunting S clients q name description s) {server : Server P}
    (hmarket : Market S server)
    (hpending : ∀ rq, pending server.activeSearches rq = pending s.server.activeSearches rq) :
    Hunting S clients q name description {s with server} := by
  refine ⟨hmarket, h.idle, fun rq hrq => (hpending rq).trans (h.others rq hrq), ?_⟩
  rcases h.phase with hfirst | ⟨R, search, hR, hcollecting⟩
  · exact .inl hfirst
  · exact .inr ⟨R, search, hR, hcollecting.congr (hpending _) rfl rfl⟩

/-- The LOOKING_FOR is broadcast to all other members. -/
theorem Hunting.searched {server : Server P} {sent : Sent P}
    (h : Hunting S clients q name description s) (hb : q.addr ∈ S)
    (hserved : Served s.server q.addr (.lookingFor q.rq name q.item description q.maxPrice)
      server sent) :
    Hunting S clients q name description {s with server, toServer := [], toClient := sent} ∧
      ∀ d ∈ sent, d.2 ≠ q.addr := by
  cases hserved
  refine ⟨⟨(h.market.took hb).congr rfl rfl rfl, h.idle, fun rq hrq => ?_, .inr ?_⟩, fun d hd => ?_⟩
  · exact (pending_lookingFor _ _ rq).trans (by rw [if_neg (Ne.symm hrq), h.others rq hrq])
  · refine ⟨_, _, fun a => h.market.mem_recipients, Collecting.searched
      ((pending_lookingFor _ _ q.rq).trans (if_pos rfl)) rfl rfl⟩
  · obtain ⟨a, ha, rfl⟩ := List.mem_map.mp hd
    exact (h.market.mem_recipients.mp ha).2

theorem Hunting.served {k : Nat} {m : ClientMessage P} {a : SockaddrIn} {server : Server P}
    {sent : Sent P} (h : Hunting S clients q name description s) (hb : q.addr ∈ S)
    (hm : s.toServer[k]? = some (m, a)) (hserved : Served s.server a m server sent)
    (hC : undisturbed q.rq s (.serve k) = true) :
    Hunting S clients q name description
        {s with server, toServer := s.toServer.eraseIdx k, toClient := s.toClient ++ sent} ∧
      ∀ d ∈ sent, d.2 ≠ q.addr := by
  rcases h.phase with ⟨hup, hdown⟩ | ⟨R, search, hR, hcollecting⟩
  · rw [hup, List.getElem?_singleton] at hm
    obtain ⟨rfl, rfl, rfl⟩ : k = 0 ∧ _ ∧ _ := by simpa using hm
    rw [hup, hdown]
    exact h.searched hb hserved
  · have hmem := List.mem_of_getElem? hm
    have ha : a ∈ S := ((hR a).mp (hcollecting.of_quoted hmem)).1
    obtain ⟨seller, price, rfl⟩ := hcollecting.offers _ hmem
    simp only [undisturbed, hm, hcollecting.stored, Option.all_some, decide_eq_true_eq] at hC
    cases hserved
    rw [List.append_nil]
    refine ⟨⟨(h.market.took ha).congr rfl rfl rfl, h.idle, fun rq hrq => ?_, .inr ?_⟩, by simp⟩
    · exact (pending_offer _ _ rq _ _).trans (by rw [h.others rq hrq]; rfl)
    · exact ⟨R, _, hR, hcollecting.offered hm rfl hC⟩

/-- A SEARCH finds its client registered, and is answered with what it asks. -/
theorem Hunting.delivered {k : Nat} {m : ServerMessage P} {a : SockaddrIn} {c : P2PClient P}
    {reply : Option (ClientMessage P)} (h : Hunting S clients q name description s)
    (hmembers : ∀ a ∈ S, a ≠ q.addr → (clients a).currentState = .registered)
    (hm : s.toClient[k]? = some (m, a))
    (hhandled : (s.clients a).handleReceivedMessage m.toJson true = (c, reply)) :
    Hunting S clients q name description
        {s with
          clients := Function.update s.clients a c
          toServer := s.toServer ++ reply.toList.map (·, a)
          toClient := s.toClient.eraseIdx k} ∧
      ∀ d ∈ reply.toList.map (·, a), d.2 ≠ q.addr := by
  obtain rfl := h.idle
  rcases h.phase with ⟨-, hdown⟩ | ⟨R, search, hR, hcollecting⟩
  · simp [hdown] at hm
  · obtain ⟨hsearch, ha⟩ := hcollecting.searches _ (List.mem_of_getElem? hm)
    obtain ⟨haS, hne⟩ := (hR a).mp ha
    obtain rfl : m = _ := hsearch
    rw [P2PClient.handle_search_registered (hmembers a haS hne)] at hhandled
    cases hhandled
    rw [Function.update_eq_self]
    refine ⟨⟨h.market, rfl, h.others, .inr ?_⟩, fun d hd => ?_⟩
    · exact ⟨R, search, hR, hcollecting.delivered hm⟩
    · obtain ⟨_, -, rfl⟩ := List.mem_map.mp hd
      exact hne

/-- **An undisturbed step keeps a hunt**, and neither reaches nor asks anything of the
searcher. -/
theorem Hunting.step {l : Move P} {log : Log P} (h : Hunting S clients q name description s)
    (hb : q.addr ∈ S) (hmembers : ∀ a ∈ S, a ≠ q.addr → (clients a).currentState = .registered)
    (hC : undisturbed q.rq s l = true) (hstep : (network P).step s l = some (s', log)) :
    Hunting S clients q name description s' ∧
      (∀ d ∈ log.up, d.2 ≠ q.addr) ∧ ∀ d ∈ log.down, d.2 ≠ q.addr := by
  cases step_moved hstep with
  | acted => cases hC
  | served hm hserved =>
    obtain ⟨hnext, hsent⟩ := h.served hb hm hserved hC
    exact ⟨hnext, by simp, hsent⟩
  | delivered hm _ hhandled =>
    obtain rfl : _ = true := hC
    obtain ⟨hnext, hsent⟩ := h.delivered hmembers hm hhandled
    exact ⟨hnext, hsent, by simp⟩
  | lostUp => cases hC
  | lostDown => cases hC
  | pushed hevents => exact ⟨h.quiet (h.market.pushed hevents) fun _ => rfl, by simp, by simp⟩
  | visited hqueue hlookup =>
    exact ⟨h.quiet (h.market.processed hqueue hlookup) fun _ => rfl, by simp, by simp⟩
  | @fired k rq started hthread =>
    have hrq : rq ≠ q.rq := by simpa [undisturbed, hthread] using hC
    have hnone := h.others rq hrq
    rw [hnone]
    refine ⟨?_, by simp, by simp⟩
    simp only [Option.map_none, Option.toList_none, List.append_nil]
    refine h.quiet (h.market.congr rfl rfl rfl) ?_
    intro r
    refine (pending_timer _ rq r).trans ?_
    split
    case isTrue hr => rw [← hr, hnone]
    case isFalse => rfl
  | ticked =>
    exact ⟨h.quiet (h.market.congr rfl rfl rfl) fun _ => rfl, by simp, by simp⟩

end Steps

/-! ### The outcome -/

/-- The prices the other members ask for what is searched. -/
def asked (S : Finset SockaddrIn) (clients : SockaddrIn → P2PClient P) (q : Inquiry P) : Set P :=
  {p | ∃ a ∈ S, a ≠ q.addr ∧ asking (clients a) q.item = some p}

/-- What the timer of a search is to send: that nobody has it, the least price asked,
or word to somebody who asks the least price that it is too much. -/
inductive Settled (S : Finset SockaddrIn) (clients : SockaddrIn → P2PClient P) (q : Inquiry P) :
    Sent P → Prop where
  | notAvailable : asked S clients q = ∅ →
      Settled S clients q [(.notAvailable q.rq q.item q.maxPrice, q.addr)]
  | found {p : P} : IsLeast (asked S clients q) p → p ≤ q.maxPrice →
      Settled S clients q [(.found q.rq q.item p, q.addr)]
  | negotiate {p : P} {a : SockaddrIn} : IsLeast (asked S clients q) p → q.maxPrice < p →
      a ∈ S → a ≠ q.addr → asking (clients a) q.item = some p →
      Settled S clients q [(.negotiate q.rq q.item q.maxPrice, a)]

section Outcome
variable {S : Finset SockaddrIn} {clients : SockaddrIn → P2PClient P} {q : Inquiry P}
  {name description : String} {s : System P} {R : List SockaddrIn} {search : SearchRequest P}

/-- With nothing in flight, the offers recorded are what the others ask. -/
theorem Collecting.recorded (h : Collecting clients R q description search s)
    (hR : ∀ a, a ∈ R ↔ a ∈ S ∧ a ≠ q.addr) (hup : s.toServer = []) (hdown : s.toClient = [])
    {a : SockaddrIn} {p : P} :
    (∃ offer ∈ search.offers, offer.sellerAddr = a ∧ offer.price = p) ↔
      a ∈ S ∧ a ≠ q.addr ∧ asking (clients a) q.item = some p := by
  have hall : (search.offers.map fun o => (o.sellerAddr, o.price)).Perm
      (quotes clients q.item R) := by
    simpa [hup, hdown, quotes] using h.conserved
  have hmem := hall.mem_iff (a := (a, p))
  rw [mem_quotes, hR, and_assoc] at hmem
  rw [← hmem]
  simp

theorem Collecting.settled (h : Collecting clients R q description search s)
    (hR : ∀ a, a ∈ R ↔ a ∈ S ∧ a ≠ q.addr) (hup : s.toServer = []) (hdown : s.toClient = []) :
    Settled S clients q [verdict search] := by
  have hasked : asked S clients q = {x | ∃ offer ∈ search.offers, offer.price = x} := by
    ext p
    constructor
    · intro hprice
      obtain ⟨a, ha⟩ := hprice
      obtain ⟨offer, hoffer, -, hp⟩ := (h.recorded hR hup hdown).mpr ha
      exact ⟨offer, hoffer, hp⟩
    · intro hprice
      obtain ⟨offer, hoffer, rfl⟩ := hprice
      exact ⟨_, (h.recorded hR hup hdown).mp ⟨offer, hoffer, rfl, rfl⟩⟩
  obtain rfl := h.inquiry
  have hspec := verdict_spec ⟨search.requestNumber, search.searcherName, search.itemName,
    search.maxPrice, search.searcherAddr, search.startTime⟩ search.offers
  change Verdict _ _ (verdict search) at hspec
  generalize verdict search = message at hspec ⊢
  cases hspec with
  | notAvailable hnone => exact .notAvailable (by simp [hasked, hnone])
  | found hleast hle => exact .found (hasked ▸ hleast) hle
  | @negotiate before after offer hsplit hbefore hafter hgt =>
    have hoffer : offer ∈ search.offers := by simp [hsplit]
    have hleast : IsLeast (asked S clients search.inquiry) offer.price := by
      rw [hasked]
      refine ⟨⟨offer, hoffer, rfl⟩, ?_⟩
      intro _ hprice
      obtain ⟨x, hx, rfl⟩ := hprice
      rw [hsplit] at hx
      rcases List.mem_append.mp hx with hx | hx
      · exact (hbefore x hx).le
      · rcases List.mem_cons.mp hx with rfl | hx
        · exact le_rfl
        · exact hafter x hx
    obtain ⟨ha, hne, hprice⟩ := (h.recorded hR hup hdown).mp ⟨offer, hoffer, rfl, rfl⟩
    exact .negotiate hleast hgt ha hne hprice

/-- Only what the others ask matters. -/
theorem Settled.congr {clients' : SockaddrIn → P2PClient P} {sent : Sent P}
    (h : Settled S clients q sent) (hclients : ∀ a, a ≠ q.addr → clients a = clients' a) :
    Settled S clients' q sent := by
  have hasked : asked S clients q = asked S clients' q := by
    ext p
    refine exists_congr fun a => and_congr_right fun _ => and_congr_right fun hne => ?_
    rw [hclients a hne]
  cases h with
  | notAvailable hnone => exact .notAvailable (hasked ▸ hnone)
  | found hleast hle => exact .found (hasked ▸ hleast) hle
  | negotiate hleast hgt ha hne hprice =>
    exact .negotiate (hasked ▸ hleast) hgt ha hne (hclients _ hne ▸ hprice)

/-- What an undisturbed run keeps: the hunt, and that nothing went to or from the searcher. -/
theorem Hunting.run {s₂ : System P} {tr : List (Move P × Log P)}
    (h : Hunting S clients q name description s) (hb : q.addr ∈ S)
    (hmembers : ∀ a ∈ S, a ≠ q.addr → (clients a).currentState = .registered)
    (hrun : Run (network P) s tr s₂)
    (hundisturbed : StepsMeet (network P) (undisturbed q.rq · ·) s tr) :
    Hunting S clients q name description s₂ ∧
      (∀ d ∈ sentUp tr, d.2 ≠ q.addr) ∧ ∀ d ∈ sentDown tr, d.2 ≠ q.addr := by
  refine hrun.invariant_of (undisturbed q.rq · ·)
    (fun tr s => Hunting S clients q name description s ∧
      (∀ d ∈ sentUp tr, d.2 ≠ q.addr) ∧ ∀ d ∈ sentDown tr, d.2 ≠ q.addr)
    ⟨h, by simp [sentUp], by simp [sentDown]⟩ ?_ hundisturbed
  intro tr s l s' log _ hbefore hC hstep
  obtain ⟨hhunt, hup, hdown⟩ := hbefore
  obtain ⟨hnext, hup', hdown'⟩ := hhunt.step hb hmembers hC hstep
  refine ⟨hnext, ?_, ?_⟩
  · rw [sentUp_snoc]
    exact List.forall_mem_append.mpr ⟨hup, hup'⟩
  · rw [sentDown_snoc]
    exact List.forall_mem_append.mpr ⟨hdown, hdown'⟩

/-- The members are registered, nothing is in flight and nobody is searching. -/
structure Quiet (S : Finset SockaddrIn) (s : System P) : Prop where
  registered : ∀ a ∈ S, (s.clients a).currentState = .registered
  market : Market S s.server
  toServer : s.toServer = []
  toClient : s.toClient = []
  nobody : ∀ rq, pending s.server.activeSearches rq = none

/-- A registered client's search starts a hunt. -/
theorem Quiet.searchItem {s₁ : System P} {b : SockaddrIn} {item : String} {maxPrice : P}
    {log : Log P} (h : Quiet S s) (hb : b ∈ S)
    (hstep : (network P).step s (.user b (.searchItem item description maxPrice) true) =
      some (s₁, log)) :
    Hunting S s₁.clients ⟨(s.clients b).nextRequestNumber, item, maxPrice, b⟩ (s.clients b).name
        description s₁ ∧
      (s₁.clients b).currentState = .searching ∧ ∀ a, a ≠ b → s₁.clients a = s.clients a := by
  change s.step (.user b (.searchItem item description maxPrice) true) = some (s₁, log) at hstep
  simp only [System.step] at hstep
  split at hstep
  case isFalse => cases hstep
  case isTrue =>
    simp only [UserOp.run, P2PClient.searchItem, P2PClient.request, h.registered b hb,
      ne_eq, not_true, if_false, if_true, OpResult.effect] at hstep
    cases hstep
    refine ⟨⟨h.market, rfl, fun rq _ => h.nobody rq, .inl ⟨?_, h.toClient⟩⟩, ?_, fun a hne => ?_⟩
    · simp [h.toServer]
    · simp
    · simp [hne]

/-- **One search, from end to end.** In a quiet market one member searches, and nothing
disturbs the search until all that it caused has arrived; when its timer fires after
that, one message goes out, about the least price asked by the other members. In the
meantime the searcher waits, and neither sends nor is sent anything. -/
theorem search_settled {s₁ s₂ s₃ : System P} {b : SockaddrIn} {item : String} {maxPrice : P}
    {log log' : Log P} {tr : List (Move P × Log P)} {k : Nat} (hquiet : Quiet S s) (hb : b ∈ S)
    (hsearch : (network P).step s (.user b (.searchItem item description maxPrice) true) =
      some (s₁, log))
    (hrun : Run (network P) s₁ tr s₂)
    (hundisturbed : StepsMeet (network P)
      (undisturbed (s.clients b).nextRequestNumber · ·) s₁ tr)
    (hup : s₂.toServer = []) (hdown : s₂.toClient = [])
    (htimer : (network P).step s₂ (.timeout k) = some (s₃, log'))
    (hfired : log'.fired = some (s.clients b).nextRequestNumber) :
    Settled S s.clients ⟨(s.clients b).nextRequestNumber, item, maxPrice, b⟩ log'.down ∧
      (s₂.clients b).currentState = .searching ∧ (∀ d ∈ sentUp tr, d.2 ≠ b) ∧
      ∀ d ∈ sentDown tr, d.2 ≠ b := by
  obtain ⟨hstart, hstate, hothers⟩ := hquiet.searchItem hb hsearch
  have hmembers : ∀ a ∈ S, a ≠ b → (s₁.clients a).currentState = .registered := by
    intro a ha hne
    rw [hothers a hne]
    exact hquiet.registered a ha
  obtain ⟨hhunt, hnoup, hnodown⟩ := hstart.run hb hmembers hrun hundisturbed
  refine ⟨?_, by rw [hhunt.idle, hstate], hnoup, hnodown⟩
  rcases hhunt.phase with ⟨hfirst, -⟩ | ⟨R, search, hR, hcollecting⟩
  · simp [hup] at hfirst
  · have hdue := hcollecting.settled hR hup hdown
    cases step_moved htimer with
    | fired =>
      cases hfired
      rw [hcollecting.stored]
      exact hdue.congr hothers

end Outcome

/-! ### A search for a lamp -/

def lamps (a : SockaddrIn) : List (Item Rat) :=
  if a = peer2 then [⟨"lamp", "old", 8⟩] else if a = peer3 then [⟨"lamp", "oak", 6⟩] else []

/-- Three registered peers, of which two have lamps. -/
def lampMarket : System Rat where
  server := ((({} : Server Rat).setSession (getPeerIdentifier peer1) (some {peerAddr := peer1}))
    |>.setSession (getPeerIdentifier peer2) (some {peerAddr := peer2}))
    |>.setSession (getPeerIdentifier peer3) (some {peerAddr := peer3})
  clients a := {(P2PClient.new ⟨"peer", 5000, 6000⟩).start with
                  currentState := .registered
                  inventory := lamps a}

theorem lampMarket_quiet : Quiet {peer3, peer2, peer1} lampMarket where
  registered _ _ := rfl
  market := ((market_nobody.joined peer1).joined peer2).joined peer3
  toServer := rfl
  toClient := rfl
  nobody _ := rfl

theorem search_settled_lamp : ∃ s s' tr log, Run (network Rat) lampMarket tr s ∧
    (network Rat).step s (.timeout 0) = some (s', log) ∧
      founds log.down = [(1, "lamp", 6, peer1)] ∧
      Settled {peer3, peer2, peer1} lampMarket.clients ⟨1, "lamp", 10, peer1⟩ log.down := by
  let s₁ := lampMarket.act peer1
    ((UserOp.searchItem "lamp" "old" 10).run (lampMarket.clients peer1) true)
  have hsearch : (network Rat).step lampMarket
      (.user peer1 (.searchItem "lamp" "old" 10) true) = some s₁ := rfl
  obtain ⟨s, tr, hrun, hundisturbed, hview⟩ := (network Rat).exec_view_meets (undisturbed 1) s₁.1
    [.serve 0, .deliver 1 true, .deliver 0 true, .serve 1, .serve 0, .tick 60000000000]
    (fun r => decide (r.1.toServer.length = 0 ∧ r.1.toClient.length = 0 ∧
      ((network Rat).step r.1 (.timeout 0)).map (fun r => (r.2.fired, founds r.2.down)) =
        some (some 1, [(1, "lamp", 6, peer1)])))
    (v := true) (by decide +kernel) (by decide +kernel)
  obtain ⟨hup, hdown, htimer⟩ := of_decide_eq_true hview
  obtain ⟨⟨s', log⟩, htimer, hseen⟩ := Option.map_eq_some_iff.mp htimer
  obtain ⟨hfired, hfound⟩ := Prod.mk.inj hseen
  exact ⟨s, s', _, log, (Run.one hsearch).append hrun, htimer, hfound,
    (search_settled lampMarket_quiet (by decide) hsearch hrun hundisturbed
      (List.length_eq_zero_iff.mp hup) (List.length_eq_zero_iff.mp hdown) htimer hfired).1⟩

end P2PShopping
