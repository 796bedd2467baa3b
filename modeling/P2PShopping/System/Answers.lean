import P2PShopping.System.Registration

/-! A FOUND answers its client's own current search.

Entries of different clients overwrite one another, and a stale timer may fire on
a foreign entry. None of this can misdirect a FOUND: whatever still speaks for a
search of `a` (its LOOKING_FOR in flight, the open entry with its address, the
FOUND on its way back) was made from the last LOOKING_FOR that `a` sent
(`Answering`), and `a` sends no other while one of these is left. -/
namespace P2PShopping
open Collections Json Runs

variable {P : Type}

/-- The LOOKING_FORs among the datagrams sent from `a`. -/
def searchesSent (a : SockaddrIn) (sent : List (ClientMessage P × SockaddrIn)) :
    List (ClientMessage P) :=
  (sent.filter fun d => decide (d.2 = a) && d.1.isLookingFor).map Prod.fst

/-- The last LOOKING_FOR that `a` sent. -/
def lastLookingFor (a : SockaddrIn) (tr : List (Move P × Log P)) : Option (ClientMessage P) :=
  (searchesSent a (sentUp tr)).getLast?

theorem lastLookingFor_snoc (a : SockaddrIn) (tr : List (Move P × Log P)) (l : Move P)
    (log : Log P) :
    lastLookingFor a (tr ++ [(l, log)]) =
      (searchesSent a log.up).getLast?.or (lastLookingFor a tr) := by
  simp [lastLookingFor, searchesSent, sentUp]

theorem lastLookingFor_snoc_of_nil {a : SockaddrIn} {tr : List (Move P × Log P)} {l : Move P}
    {log : Log P} (h : searchesSent a log.up = []) :
    lastLookingFor a (tr ++ [(l, log)]) = lastLookingFor a tr := by
  rw [lastLookingFor_snoc, h]
  rfl

theorem openSearches_pos {a : SockaddrIn} {m : Searches P} {rq : Int32} {search : SearchRequest P}
    (h : pending m rq = some search) (haddr : search.searcherAddr = a) : 0 < openSearches a m := by
  obtain ⟨hlookup, hopen⟩ := pending_eq_some.mp h
  exact List.countP_pos_iff.mpr ⟨⟨rq, search⟩, Map.mem_entries_iff.mpr hlookup,
    by simp [openEntry, hopen, haddr]⟩

variable [Double P]

/-- The search that `a` is waiting for, as the three things that speak for it know it. -/
structure Answering (last : Option (ClientMessage P)) (s : System P) (a : SockaddrIn) : Prop where
  inFlight : ∀ m, (m, a) ∈ s.toServer → m.isLookingFor = true → last = some m
  stored : ∀ rq search, pending s.server.activeSearches rq = some search →
    search.searcherAddr = a → ∃ name description, last = some
      (.lookingFor search.requestNumber name search.itemName description search.maxPrice)
  found : ∀ rq item price, (.found rq item price, a) ∈ s.toClient →
    ∃ name description maxPrice,
      last = some (.lookingFor rq name item description maxPrice) ∧ price ≤ maxPrice

section Steps
variable {s : System P} {a : SockaddrIn} {last : Option (ClientMessage P)}

/-- Nothing speaks for a search while the client is not waiting for one. -/
theorem answering_of_inquiries (last : Option (ClientMessage P)) (h : s.inquiries a = 0) :
    Answering last s a := by
  simp only [System.inquiries] at h
  refine ⟨fun m hm hlooking => ?_, fun rq search hsearch haddr => ?_,
    fun rq item price hfound => ?_⟩
  · have hpos : 0 < count ClientMessage.isLookingFor a s.toServer :=
      count_pos_of_mem hm hlooking
    omega
  · have hpos := openSearches_pos hsearch haddr
    omega
  · have hpos : 0 < count ServerMessage.isFound a s.toClient :=
      count_pos_of_mem hfound rfl
    omega

/-- What adds nothing that speaks for the search of `a` keeps the answer. -/
theorem Answering.mono {s' : System P} (h : Answering last s a)
    (hup : ∀ m, (m, a) ∈ s'.toServer → m.isLookingFor = true → (m, a) ∈ s.toServer)
    (hpending : ∀ rq search, pending s'.server.activeSearches rq = some search →
      search.searcherAddr = a → ∃ old, pending s.server.activeSearches rq = some old ∧
        old.searcherAddr = a ∧ search.requestNumber = old.requestNumber ∧
        search.itemName = old.itemName ∧ search.maxPrice = old.maxPrice)
    (hdown : ∀ rq item price, (.found rq item price, a) ∈ s'.toClient →
      (.found rq item price, a) ∈ s.toClient) : Answering last s' a := by
  refine ⟨fun m hm hlooking => h.inFlight m (hup m hm hlooking) hlooking, ?_,
    fun rq item price hm => h.found rq item price (hdown rq item price hm)⟩
  intro rq search hsearch haddr
  obtain ⟨old, hold, haddr', hrq, hitem, hmax⟩ := hpending rq search hsearch haddr
  rw [hrq, hitem, hmax]
  exact h.stored rq old hold haddr'

omit [Double P] in
theorem pending_self {m : Searches P} {rq : Int32} {search : SearchRequest P}
    (h : pending m rq = some search) (haddr : search.searcherAddr = a) :
    ∃ old, pending m rq = some old ∧ old.searcherAddr = a ∧
      search.requestNumber = old.requestNumber ∧ search.itemName = old.itemName ∧
      search.maxPrice = old.maxPrice :=
  ⟨search, h, haddr, rfl, rfl, rfl⟩

theorem Answering.served {b : SockaddrIn} {k : Nat} {m : ClientMessage P} {server : Server P}
    {sent : Sent P} (h : Answering last s a) (hm : s.toServer[k]? = some (m, b))
    (hserved : Served s.server b m server sent) :
    Answering last
      {s with
        server
        toServer := s.toServer.eraseIdx k
        toClient := s.toClient ++ sent} a := by
  cases hserved with
  | denied =>
    exact h.mono (fun m hm _ => mem_of_mem_eraseIdx hm) (fun _ _ => pending_self) (by simp)
  | registered =>
    exact h.mono (fun m hm _ => mem_of_mem_eraseIdx hm) (fun _ _ => pending_self) (by simp)
  | deregistered =>
    exact h.mono (fun m hm _ => mem_of_mem_eraseIdx hm) (fun _ _ => pending_self) (by simp)
  | @searched rq name item description maxPrice =>
    refine ⟨fun m hm => h.inFlight m (mem_of_mem_eraseIdx hm), ?_, ?_⟩
    · intro r search hsearch haddr
      rw [pending_lookingFor] at hsearch
      split at hsearch
      case isTrue =>
        -- The entry is this LOOKING_FOR's own, so it was the last that its sender sent.
        cases hsearch
        have hb : b = a := haddr
        subst hb
        exact ⟨name, description, h.inFlight _ (List.mem_of_getElem? hm) rfl⟩
      case isFalse => exact h.stored r search hsearch haddr
    · intro r i price hfound
      rcases List.mem_append.mp hfound with hfound | hfound
      · exact h.found r i price hfound
      · simp at hfound
  | @offered rq name item price =>
    refine h.mono (fun m hm _ => mem_of_mem_eraseIdx hm) ?_ (by simp)
    intro r search hsearch haddr
    rw [pending_offer, Option.map_eq_some_iff] at hsearch
    obtain ⟨old, hold, rfl⟩ := hsearch
    refine ⟨old, hold, ?_⟩
    split at haddr <;> split <;> exact ⟨haddr, rfl, rfl, rfl⟩
  | negotiated =>
    exact h.mono (fun m hm _ => mem_of_mem_eraseIdx hm) (fun _ _ => pending_self) (by simp)
  | accepted =>
    exact h.mono (fun m hm _ => mem_of_mem_eraseIdx hm) (fun _ _ => pending_self) (by simp)
  | refused =>
    exact h.mono (fun m hm _ => mem_of_mem_eraseIdx hm) (fun _ _ => pending_self) (by simp)

theorem Answering.fired {rq : Int32} {k : Nat} (h : Answering last s a) :
    Answering last
      {s with
        server := {s.server with
          timeoutThreads := s.server.timeoutThreads.eraseIdx k
          activeSearches := (StoreEvent.timer rq).apply s.server.activeSearches
          outbox := []}
        toClient := s.toClient ++ ((pending s.server.activeSearches rq).map verdict).toList} a := by
  refine ⟨h.inFlight, ?_, ?_⟩
  · intro r search hsearch haddr
    rw [pending_timer] at hsearch
    split at hsearch
    case isTrue => cases hsearch
    case isFalse => exact h.stored r search hsearch haddr
  · intro r item price hfound
    rcases List.mem_append.mp hfound with hfound | hfound
    · exact h.found r item price hfound
    · obtain ⟨search, hsearch, hverdict⟩ :=
        Option.map_eq_some_iff.mp (Option.mem_toList.mp hfound)
      obtain ⟨haddr, rfl, rfl, hle, -⟩ := verdict_found hverdict
      obtain ⟨name, description, hlast⟩ := h.stored rq search hsearch haddr
      exact ⟨name, description, _, hlast, hle⟩

end Steps

/-- A datagram from a client that is not a LOOKING_FOR of `a`. -/
def Elsewhere (a b : SockaddrIn) (m : Option (ClientMessage P)) : Prop :=
  ∀ x ∈ m, b = a → x.isLookingFor = false

omit [Double P] in
theorem Elsewhere.searchesSent {a b : SockaddrIn} {m : Option (ClientMessage P)}
    (h : Elsewhere a b m) : searchesSent a (m.toList.map (·, b)) = [] := by
  cases m with
  | none => rfl
  | some x =>
    have hx := h x rfl
    by_cases hb : b = a
    · simp [P2PShopping.searchesSent, hx hb]
    · simp [P2PShopping.searchesSent, hb]

/-- Such a datagram leaves the answer alone. -/
theorem Answering.elsewhere {s : System P} {a b : SockaddrIn} {last : Option (ClientMessage P)}
    {m : Option (ClientMessage P)} (h : Answering last s a) (hm : Elsewhere a b m)
    (clients : SockaddrIn → P2PClient P) (toClient : Sent P)
    (hdown : ∀ d, d ∈ toClient → d ∈ s.toClient) :
    Answering last
      {s with clients, toServer := s.toServer ++ m.toList.map (·, b), toClient} a := by
  refine h.mono ?_ (fun _ _ => pending_self) fun _ _ _ => hdown _
  intro x hx hlooking
  rcases List.mem_append.mp hx with hx | hx
  · exact hx
  · obtain ⟨y, hy, hxy⟩ := List.mem_map.mp hx
    cases hxy
    rw [hm x (Option.mem_toList.mp hy) rfl] at hlooking
    cases hlooking

/-- A search that goes out is the only thing that speaks for its sender. -/
theorem Answering.searched {s : System P} {a : SockaddrIn} {m : ClientMessage P}
    (hinquiries : s.inquiries a = 0) (clients : SockaddrIn → P2PClient P) :
    Answering (some m) {s with clients, toServer := s.toServer ++ [(m, a)]} a := by
  have h := answering_of_inquiries (some m) hinquiries
  refine ⟨fun x hx hlooking => ?_, h.stored, h.found⟩
  rcases List.mem_append.mp hx with hx | hx
  · exact h.inFlight x hx hlooking
  · cases List.mem_singleton.mp hx
    rfl

/-- **What one move keeps.** A client that sends a LOOKING_FOR was registered, and
then nothing spoke for a search of it. -/
theorem answering_step {s s' : System P} {tr : List (Move P × Log P)} {l : Move P} {log : Log P}
    {a : SockaddrIn} (hagreed : Agreed s a) (h : Answering (lastLookingFor a tr) s a)
    (hstep : (network P).step s l = some (s', log)) :
    Answering (lastLookingFor a (tr ++ [(l, log)])) s' a := by
  cases step_moved hstep with
  | @acted b op sent c m hrunning hacted =>
    by_cases hsearch : Elsewhere a b m
    · rw [lastLookingFor_snoc_of_nil hsearch.searchesSent]
      exact h.elsewhere hsearch _ _ fun _ => id
    · have hb : b = a := by
        by_contra hne
        exact hsearch fun _ _ hb => absurd hb hne
      subst hb
      cases hacted with
      | @search rq itemName description maxPrice hfrom =>
        have hzero : s.inquiries b = 0 := by
          have hsearching := hagreed.searching
          rw [hfrom] at hsearching
          simpa using hsearching
        rw [lastLookingFor_snoc]
        simp only [Option.toList_some, List.map_cons, List.map_nil, searchesSent,
          List.filter_cons, decide_true, ClientMessage.isLookingFor, Bool.and_self, if_true,
          List.filter_nil, List.getLast?_singleton, Option.some_or]
        exact Answering.searched hzero _
      | quiet | register | deregister =>
        exact absurd (by simp [Elsewhere, ClientMessage.isLookingFor]) hsearch
      | answer hoffers => exact absurd hagreed.offers hoffers
      | dropped hoffers => exact absurd hagreed.offers hoffers
  | served hm hserved =>
    rw [lastLookingFor_snoc_of_nil rfl]
    exact h.served hm hserved
  | @delivered k sent m b c reply hm hreceived =>
    have hreply : Elsewhere a b reply := by
      cases hreceived <;> simp [Elsewhere, ClientMessage.isLookingFor]
    rw [lastLookingFor_snoc_of_nil hreply.searchesSent]
    exact h.elsewhere hreply _ _ fun _ => mem_of_mem_eraseIdx
  | lostUp =>
    rw [lastLookingFor_snoc_of_nil rfl]
    exact h.mono (fun _ hm _ => mem_of_mem_eraseIdx hm) (fun _ _ => pending_self) fun _ _ _ => id
  | lostDown =>
    rw [lastLookingFor_snoc_of_nil rfl]
    exact h.mono (fun _ hm _ => hm) (fun _ _ => pending_self) fun _ _ _ => mem_of_mem_eraseIdx
  | fired =>
    rw [lastLookingFor_snoc_of_nil rfl]
    exact h.fired
  | pushed | visited | ticked =>
    rw [lastLookingFor_snoc_of_nil rfl]
    exact h.mono (fun _ hm _ => hm) (fun _ _ => pending_self) fun _ _ _ => id

theorem answering_run {peers : SockaddrIn → Option ClientConfig} {s : System P}
    {tr : List (Move P × Log P)} (h : Run (network P) (System.start peers) tr s)
    (a : SockaddrIn) : Answering (lastLookingFor a tr) s a :=
  h.invariant (fun tr s => Answering (lastLookingFor a tr) s a)
    (answering_of_inquiries _ (by simp [System.inquiries, System.start, openSearches]))
    fun _ _ _ _ _ hrun hanswering hstep =>
      answering_step (agreed_run hrun a) hanswering hstep

/-- **A FOUND answers its client's current search.** As long as it is in flight, and
so when it is delivered, its client is searching, and it has the number and the
item of the last LOOKING_FOR that the client sent and a price within its maximum. -/
theorem found_answers_current_search {peers : SockaddrIn → Option ClientConfig} {s : System P}
    {tr : List (Move P × Log P)} (h : Run (network P) (System.start peers) tr s)
    {a : SockaddrIn} {rq : Int32} {item : String} {price : P}
    (hfound : (.found rq item price, a) ∈ s.toClient) :
    (s.clients a).currentState = .searching ∧ ∃ name description maxPrice,
      lastLookingFor a tr = some (.lookingFor rq name item description maxPrice) ∧
        price ≤ maxPrice := by
  refine ⟨?_, (answering_run h a).found rq item price hfound⟩
  by_contra hne
  have hsearching := (agreed_run h a).searching
  rw [if_neg hne, System.inquiries] at hsearching
  have hpos : 0 < count ServerMessage.isFound a s.toClient :=
    count_pos_of_mem hfound rfl
  omega

/-- The search of `lampSold`. -/
theorem found_answers_current_search_lamp : ∃ s tr,
    Run (network Rat) (System.start household) tr s ∧
      (s.clients peer1).currentState = .searching ∧ ∃ name description maxPrice,
        lastLookingFor peer1 tr = some (.lookingFor 2 name "lamp" description maxPrice) ∧
          8 ≤ maxPrice := by
  obtain ⟨s, tr, hrun, hfound⟩ := (network Rat).exec_view (System.start household) lampSold
    (fun r => founds r.1.toClient) (v := [(2, "lamp", 8, peer1)]) (by decide +kernel)
  have hmem : (2, "lamp", 8, peer1) ∈ founds s.toClient := by
    rw [show founds s.toClient = _ from hfound]
    exact List.mem_singleton_self _
  exact ⟨s, tr, hrun, found_answers_current_search hrun (mem_founds.mp hmem)⟩

end P2PShopping
