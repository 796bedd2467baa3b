import P2PShopping.Server.Searches

/-! What the server does with the datagrams of clients, and on its own.

`Served` lists what becomes of a client's message: such a message prints and has
every key its handler asks for, so its handler always completes. The steps the server
takes without a datagram are described by one lemma each. -/
namespace P2PShopping
open Collections Json Handler

variable {P : Type} [Double P]

/-! ### The handlers on a client's message -/

theorem dispatch_register (rq : Int32) (name ip : String) (udpPort tcpPort : UInt16)
    (a : SockaddrIn) (s : Server P) :
    dispatch (ClientMessage.register rq name ip udpPort tcpPort).toJson a s = .ok ()
      (if (s.peerSessions.lookup (getPeerIdentifier a)).isSome then
        s.send (.registerDenied (.int rq.toInt) "Peer already registered") a
      else
        (s.setSession (getPeerIdentifier a) (some {peerAddr := a})).send
          (.registered (.int rq.toInt)) a) := by
  show (if (s.peerSessions.lookup (getPeerIdentifier a)).isSome then _ else _ :
    Handler P Unit) s = _
  split <;> rfl

theorem dispatch_deRegister (rq : Int32) (name : String) (a : SockaddrIn) (s : Server P) :
    dispatch (ClientMessage.deRegister rq name).toJson a s =
      .ok () {s with peerSessions := s.peerSessions.erase (getPeerIdentifier a)} :=
  rfl

theorem dispatch_lookingFor (rq : Int32) (name item description : String) (maxPrice : P)
    (a : SockaddrIn) (s : Server P) :
    dispatch (ClientMessage.lookingFor rq name item description maxPrice).toJson a s =
      .ok () (((s.detach rq).setSearch (newSearch rq name item maxPrice a s.clock) rq).sendAll
        (.search rq item (.str description))
        (recipients (getPeerIdentifier a) s.peerSessions.entries)) := by
  have hconverted : ∀ n, n = Int32.ofInt rq.toInt →
      dispatch (ClientMessage.lookingFor rq name item description maxPrice).toJson a s =
        broadcast (getPeerIdentifier a) (.search n item (.str description)) s.peerSessions.entries
          ((s.detach n).setSearch (newSearch n name item maxPrice a s.clock) n) := by
    intro n hn
    subst hn
    rfl
  rw [hconverted rq (Int32.ofInt_toInt rq).symm, broadcast_eq]

theorem dispatch_offer (rq : Int32) (name item : String) (price : P) (a : SockaddrIn)
    (s : Server P) :
    dispatch (ClientMessage.offer rq name item price).toJson a s =
      .ok () (recordOffer rq ⟨name, price, a⟩ s) := by
  show EStateM.Result.ok () (recordOffer (Int32.ofInt rq.toInt) _ s) = _
  rw [Int32.ofInt_toInt]

namespace Server

/-- The server once a worker has handled this message. -/
def took (s : Server P) (m : ClientMessage P) (a : SockaddrIn) : Server P :=
  {s with workers := s.workers ++ [(m.toJson, a)], outbox := []}

end Server

/-- What the server can do with a client's message, and what it sends. -/
inductive Served (s : Server P) (a : SockaddrIn) :
    ClientMessage P → Server P → Sent P → Prop where
  | denied {rq : Int32} {name ip : String} {udpPort tcpPort : UInt16} :
      (s.peerSessions.lookup (getPeerIdentifier a)).isSome = true →
      Served s a (.register rq name ip udpPort tcpPort)
        (s.took (.register rq name ip udpPort tcpPort) a)
        [(.registerDenied (.int rq.toInt) "Peer already registered", a)]
  | registered {rq : Int32} {name ip : String} {udpPort tcpPort : UInt16} :
      s.peerSessions.lookup (getPeerIdentifier a) = none →
      Served s a (.register rq name ip udpPort tcpPort)
        ((s.took (.register rq name ip udpPort tcpPort) a).setSession (getPeerIdentifier a)
          (some {peerAddr := a}))
        [(.registered (.int rq.toInt), a)]
  | deregistered {rq : Int32} {name : String} :
      Served s a (.deRegister rq name)
        {s.took (.deRegister rq name) a with
          peerSessions := s.peerSessions.erase (getPeerIdentifier a)} []
  | searched {rq : Int32} {name item description : String} {maxPrice : P} :
      Served s a (.lookingFor rq name item description maxPrice)
        {s.took (.lookingFor rq name item description maxPrice) a with
          activeSearches :=
            (StoreEvent.lookingFor ⟨rq, name, item, maxPrice, a, s.clock⟩).apply s.activeSearches
          timeoutThreads := s.timeoutThreads ++ [(rq, s.clock)]}
        ((recipients (getPeerIdentifier a) s.peerSessions.entries).map
          (.search rq item (.str description), ·))
  | offered {rq : Int32} {name item : String} {price : P} :
      Served s a (.offer rq name item price)
        {s.took (.offer rq name item price) a with
          activeSearches :=
            (StoreEvent.offer rq s.clock ⟨name, price, a⟩).apply s.activeSearches} []
  | negotiated {rq : Int32} {name item : String} {price : P} :
      Served s a (.negotiate rq name item price) (s.took (.negotiate rq name item price) a) []
  | accepted {rq : Int32} {name item : String} {price : P} :
      Served s a (.accept rq name item price) (s.took (.accept rq name item price) a) []
  | refused {rq : Int32} {name item : String} {price : P} :
      Served s a (.refuse rq name item price) (s.took (.refuse rq name item price) a) []

/-- **A client's message is served.** -/
theorem receive_served {s s' : Server P} {m : ClientMessage P} {a : SockaddrIn} {sent : Sent P}
    (h : s.step (.receive m.toJson a) = some (s', sent)) : Served s a m s' sent := by
  simp only [Server.step] at h
  cases m with
  | register rq name ip udpPort tcpPort =>
    rw [dispatch_register] at h
    cases h
    split
    case isTrue hknown => exact .denied hknown
    case isFalse hnew => exact .registered (by simpa using hnew)
  | deRegister rq name =>
    rw [dispatch_deRegister] at h
    cases h
    exact .deregistered
  | lookingFor rq name item description maxPrice =>
    rw [dispatch_lookingFor] at h
    cases h
    exact .searched
  | negotiate rq name item price =>
    cases h
    exact .negotiated
  | accept rq name item price =>
    cases h
    exact .accepted
  | refuse rq name item price =>
    cases h
    exact .refused
  | offer rq name item price =>
    rw [dispatch_offer, recordOffer_eq] at h
    cases h
    exact .offered

/-! ### Any message -/

/-- **What a step does with a message**: its handler completes, and a worker holds it, or
an exception is caught and nothing has happened. -/
theorem receive_step {s s' : Server P} {j : Json P} {addr : SockaddrIn} {sent : Sent P}
    (h : s.step (.receive j addr) = some (s', sent)) :
    (∃ s₁, MessageParser.printMessage j = .ok () ∧ Handled j addr {s with outbox := []} s₁ ∧
      s' = {s₁ with workers := s₁.workers ++ [(j, addr)], outbox := []} ∧ sent = s₁.outbox) ∨
    ∃ fault, fault.caught = true ∧
      dispatch j addr {s with outbox := []} = .error fault {s with outbox := []} ∧
      s' = {s with outbox := []} ∧ sent = [] := by
  simp only [Server.step] at h
  split at h
  case h_1 s₁ hdispatch =>
    cases h
    obtain ⟨hprint, hhandled⟩ := dispatch_ok hdispatch
    exact .inl ⟨s₁, hprint, hhandled, rfl, rfl⟩
  case h_2 fault s₁ hdispatch =>
    split at h
    case isFalse => cases h
    case isTrue hcaught =>
      cases h
      obtain rfl := dispatch_error hcaught hdispatch
      exact .inr ⟨fault, hcaught, hdispatch, rfl, rfl⟩

/-! ### The server's own steps -/

theorem push_step {s s' : Server P} {k : Nat} {sent : Sent P}
    (h : s.step (.push k) = some (s', sent)) :
    sent = [] ∧ ∃ events, (∀ e ∈ events, ∃ w ∈ s.workers, w.2 = e.2) ∧ s' =
      {s with workers := s.workers.eraseIdx k, eventQueue := s.eventQueue ++ events,
              outbox := []} := by
  simp only [Server.step] at h
  split at h
  case h_1 => cases h
  case h_2 j a hworker =>
    obtain ⟨events, haddr, hpush⟩ := pushEvent_eq j a
    rw [hpush] at h
    cases h
    exact ⟨rfl, events, fun e he => ⟨(j, a), List.mem_of_getElem? hworker, (haddr e he).symm⟩, rfl⟩

/-- The session an event finds, moved on by it. -/
def PeerSession.visit (event : P2PEvent P) (session : PeerSession P) : PeerSession P :=
  {session with stateMachine := session.stateMachine.processEvent event}

/-- What an event leaves under a key: its own sender's session moved on, or a null
pointer where there was no entry. -/
def visited (event : P2PEvent P) (a : SockaddrIn) (entry : Option (Option (PeerSession P)))
    (key : String) : Option (Option (PeerSession P)) :=
  if key = getPeerIdentifier a then some (entry.join.map (PeerSession.visit event)) else entry

/-- An event changes the sessions, entry by entry, and the server's own machine. -/
theorem processEvents_spec (event : P2PEvent P) (a : SockaddrIn) (s : Server P) :
    ∃ sessions machine,
      processEvents event a s =
        {s with peerSessions := sessions, serverStateMachine := machine} ∧
      ∀ key, sessions.lookup key = visited event a (s.peerSessions.lookup key) key := by
  unfold visited
  cases hlook : s.peerSessions.lookup (getPeerIdentifier a) with
  | none =>
    refine ⟨s.peerSessions.insert (getPeerIdentifier a) none, s.serverStateMachine,
      by simp [processEvents, hlook, Server.setSession], fun key => ?_⟩
    by_cases hkey : key = getPeerIdentifier a
    · subst hkey
      simp [hlook]
    · simp [hkey, AList.lookup_insert_ne hkey]
  | some entry =>
    cases entry with
    | none =>
      refine ⟨s.peerSessions, s.serverStateMachine, by simp [processEvents, hlook],
        fun key => ?_⟩
      by_cases hkey : key = getPeerIdentifier a
      · subst hkey
        simp [hlook]
      · simp [hkey]
    | some session =>
      refine ⟨s.peerSessions.insert (getPeerIdentifier a) (some (session.visit event)),
        s.serverStateMachine.processEvent event,
        by simp [processEvents, hlook, Server.setSession, PeerSession.visit], fun key => ?_⟩
      by_cases hkey : key = getPeerIdentifier a
      · subst hkey
        simp [hlook]
      · simp [hkey, AList.lookup_insert_ne hkey]

theorem event_step {s s' : Server P} {sent : Sent P} (h : s.step .event = some (s', sent)) :
    sent = [] ∧ ∃ event a rest sessions machine, s.eventQueue = (event, a) :: rest ∧
      s' = {s with
        peerSessions := sessions
        serverStateMachine := machine
        eventQueue := rest
        outbox := []} ∧
      ∀ key, sessions.lookup key = visited event a (s.peerSessions.lookup key) key := by
  simp only [Server.step] at h
  split at h
  case h_1 => cases h
  case h_2 event a rest hqueue =>
    obtain ⟨sessions, machine, hevent, hlookup⟩ :=
      processEvents_spec event a {s with eventQueue := rest, outbox := []}
    rw [hevent] at h
    cases h
    exact ⟨rfl, event, a, rest, sessions, machine, hqueue, rfl, hlookup⟩

theorem timeout_step {s s' : Server P} {k : Nat} {sent : Sent P}
    (h : s.step (.timeout k) = some (s', sent)) :
    ∃ rq started, s.timeoutThreads[k]? = some (rq, started) ∧
      sent = ((pending s.activeSearches rq).map verdict).toList ∧
      s' = {s with
        timeoutThreads := s.timeoutThreads.eraseIdx k
        activeSearches := (StoreEvent.timer rq).apply s.activeSearches
        outbox := []} := by
  simp only [Server.step] at h
  split at h
  case h_1 => cases h
  case h_2 rq started hthread =>
    rw [processOffersAfterTimeout_eq] at h
    cases h
    exact ⟨rq, started, hthread, rfl, rfl⟩

theorem tick_step {s s' : Server P} {d : Nat} {sent : Sent P}
    (h : s.step (.tick d) = some (s', sent)) : sent = [] ∧ s' = {s with clock := s.clock + d} := by
  cases h
  exact ⟨rfl, rfl⟩

end P2PShopping
