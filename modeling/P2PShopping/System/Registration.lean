import P2PShopping.System.Counting

/-! Registration agreement.

Client and server each keep their own idea of whether the client is registered,
and only datagrams connect the two. What keeps them together is a count: of the
client believing that it is registered, a REGISTERED on its way to it and a
DE_REGISTER on its way from it there is at most one, and as long as there is one
the server holds the client's session (`Agreed`). A second count does the same for
the client's search: its LOOKING_FOR, the open entry and the FOUND. -/
namespace P2PShopping
open Collections Json Runs

variable {P : Type} [Double P]

/-- The client takes itself for registered. -/
def active : P2PStateType → Bool
  | .registered | .searching => true
  | _ => false

namespace System

/-- What can still speak for a registration of `a`. -/
def claims (s : System P) (a : SockaddrIn) : Nat :=
  count ClientMessage.isDeRegister a s.toServer + count ServerMessage.isRegistered a s.toClient +
    if active (s.clients a).currentState then 1 else 0

/-- What can still speak for the search of `a`. -/
def inquiries (s : System P) (a : SockaddrIn) : Nat :=
  count ClientMessage.isLookingFor a s.toServer + openSearches a s.server.activeSearches +
    count ServerMessage.isFound a s.toClient

/-- The server holds a session of `a`, under its key and with its address. -/
def HoldsSession (s : System P) (a : SockaddrIn) : Prop :=
  ∃ session, s.server.peerSessions.lookup (getPeerIdentifier a) = some (some session) ∧
    session.peerAddr = a

end System

/-- What every move keeps, for each address. -/
structure Agreed (s : System P) (a : SockaddrIn) : Prop where
  offers : (s.clients a).offers = []
  state : (s.clients a).currentState ∈
    [P2PStateType.unregistered, .registering, .registered, .searching]
  /-- A REGISTER or its answer is in flight only while the client waits. -/
  registering : count ClientMessage.isRegister a s.toServer +
    count ServerMessage.isRegistered a s.toClient ≤
      if (s.clients a).currentState = .registering then 1 else 0
  searching : s.inquiries a ≤ if (s.clients a).currentState = .searching then 1 else 0
  claim : s.claims a ≤ 1
  session : 0 < s.claims a → s.HoldsSession a

/-- A move that adds nothing in flight for `a`, leaves its client's state and keeps
its session keeps the agreement. -/
theorem Agreed.mono {s s' : System P} {a : SockaddrIn} (h : Agreed s a)
    (hoffers : (s'.clients a).offers = (s.clients a).offers)
    (hstate : (s'.clients a).currentState = (s.clients a).currentState)
    (hregister : count ClientMessage.isRegister a s'.toServer ≤
      count ClientMessage.isRegister a s.toServer)
    (hregistered : count ServerMessage.isRegistered a s'.toClient ≤
      count ServerMessage.isRegistered a s.toClient)
    (hderegister : count ClientMessage.isDeRegister a s'.toServer ≤
      count ClientMessage.isDeRegister a s.toServer)
    (hinquiries : s'.inquiries a ≤ s.inquiries a)
    (hsession : s.HoldsSession a → s'.HoldsSession a) : Agreed s' a := by
  have hclaims : s'.claims a ≤ s.claims a := by
    simp only [System.claims, hstate]
    omega
  refine ⟨hoffers.trans h.offers, hstate ▸ h.state, ?_, ?_, hclaims.trans h.claim,
    fun hpos => hsession (h.session (hpos.trans_le hclaims))⟩
  · rw [hstate]
    exact (Nat.add_le_add hregister hregistered).trans h.registering
  · rw [hstate]
    exact hinquiries.trans h.searching

theorem agreed_start (peers : SockaddrIn → Option ClientConfig) (a : SockaddrIn) :
    Agreed (System.start peers : System P) a := by
  have hclient : ((System.start peers : System P).clients a).currentState = .unregistered ∧
      ((System.start peers : System P).clients a).offers = [] := by
    simp only [System.start]
    cases peers a <;> exact ⟨rfl, rfl⟩
  obtain ⟨hstate, hoffers⟩ := hclient
  have hclaims : (System.start peers : System P).claims a = 0 := by
    simp only [System.claims, hstate]
    rfl
  refine ⟨hoffers, by simp [hstate], by simp [System.start], ?_, by omega, fun hpos => by omega⟩
  simp [System.inquiries, System.start, openSearches]

/-! ### One lemma for each kind of move -/

section Moves
variable {s : System P} {a : SockaddrIn}

/-- What another client does is not in flight for `a`. -/
theorem Agreed.acted_other {b : SockaddrIn} {c : P2PClient P} {m : Option (ClientMessage P)}
    (h : Agreed s a) (hne : b ≠ a) :
    Agreed
      {s with
        clients := Function.update s.clients b c
        toServer := s.toServer ++ m.toList.map (·, b)} a := by
  have hcount : ∀ kind, count kind a (m.toList.map (·, b)) = 0 := by
    intro kind
    cases m <;> simp [hne]
  have hclient : Function.update s.clients b c a = s.clients a :=
    Function.update_of_ne (Ne.symm hne) _ _
  refine h.mono ?_ ?_ ?_ ?_ ?_ ?_ id
  · exact congrArg P2PClient.offers hclient
  · exact congrArg P2PClient.currentState hclient
  · simp [hcount]
  · exact le_rfl
  · simp [hcount]
  · simp [System.inquiries, hcount]

theorem Agreed.acted {c : P2PClient P} {m : Option (ClientMessage P)} (h : Agreed s a)
    (hacted : Acted (s.clients a) c m) :
    Agreed
      {s with
        clients := Function.update s.clients a c
        toServer := s.toServer ++ m.toList.map (·, a)} a := by
  have ⟨hoffers, _, hregistering, hsearching, hclaim, hsession⟩ := h
  simp only [System.inquiries, System.claims] at hsearching hclaim hsession
  cases hacted with
  | quiet hstate hoffers' =>
    refine h.mono ?_ ?_ ?_ ?_ ?_ ?_ id <;> simp [hstate, hoffers', System.inquiries]
  | register hfrom hto hoffers' =>
    simp only [hfrom, reduceCtorEq, if_false] at hregistering hsearching
    simp only [hfrom, active] at hclaim hsession
    refine ⟨by simp [hoffers', hoffers], by simp [hto], ?_, ?_, ?_, ?_⟩
    · simp [hto, ClientMessage.isRegister]
      omega
    · simp [System.inquiries, hto, ClientMessage.isLookingFor]
      omega
    · simpa [System.claims, hto, ClientMessage.isDeRegister, active] using hclaim
    · intro hpos
      apply hsession
      simpa [System.claims, hto, ClientMessage.isDeRegister, active] using hpos
  | deregister hfrom hto hoffers' =>
    simp only [hfrom, reduceCtorEq, if_false] at hregistering hsearching
    simp only [hfrom, active, if_true] at hclaim hsession
    refine ⟨by simp [hoffers', hoffers], by simp [hto], ?_, ?_, ?_, ?_⟩
    · simp [hto, ClientMessage.isRegister]
      omega
    · simp [System.inquiries, hto, ClientMessage.isLookingFor]
      omega
    · simp [System.claims, hto, ClientMessage.isDeRegister, active]
      omega
    · intro _
      exact hsession (by omega)
  | search hfrom hto hoffers' =>
    simp only [hfrom, reduceCtorEq, if_false] at hregistering hsearching
    simp only [hfrom, active, if_true] at hclaim hsession
    refine ⟨by simp [hoffers', hoffers], by simp [hto], ?_, ?_, ?_, ?_⟩
    · simp [hto, ClientMessage.isRegister]
      omega
    · simp [System.inquiries, hto, ClientMessage.isLookingFor]
      omega
    · simpa [System.claims, hto, ClientMessage.isDeRegister, active] using hclaim
    · intro _
      exact hsession (by omega)
  | answer hoffers' => exact absurd hoffers hoffers'
  | dropped hoffers' => exact absurd hoffers hoffers'

/-- A message the server has handled: it left the network, and the server sent
nothing that `a` would count. -/
theorem Agreed.served_quiet {k : Nat} {server : Server P} {sent : Sent P} (h : Agreed s a)
    (hregistered : count ServerMessage.isRegistered a sent = 0)
    (hfound : count ServerMessage.isFound a sent = 0)
    (hsearches : openSearches a server.activeSearches ≤ openSearches a s.server.activeSearches)
    (hsession : s.HoldsSession a → ∃ session,
      server.peerSessions.lookup (getPeerIdentifier a) = some (some session) ∧
        session.peerAddr = a) :
    Agreed
      {s with
        server
        toServer := s.toServer.eraseIdx k
        toClient := s.toClient ++ sent} a := by
  have hup := fun kind : ClientMessage P → Bool => count_eraseIdx_le kind a s.toServer k
  refine h.mono rfl rfl (hup _) ?_ (hup _) ?_ hsession
  · simp [hregistered]
  · have hlooking := hup ClientMessage.isLookingFor
    simp only [System.inquiries, count_append, hfound]
    omega

/-- A REGISTER of `a` that is granted: it becomes a REGISTERED and a session. -/
theorem Agreed.granted {k : Nat} {rq : Int32} {name ip : String} {udpPort tcpPort : UInt16}
    (h : Agreed s a) (hm : s.toServer[k]? = some (.register rq name ip udpPort tcpPort, a))
    (hnew : s.server.peerSessions.lookup (getPeerIdentifier a) = none) :
    Agreed
      {s with
        server := (s.server.took (.register rq name ip udpPort tcpPort) a).setSession
          (getPeerIdentifier a) (some {peerAddr := a})
        toServer := s.toServer.eraseIdx k
        toClient := s.toClient ++ [(.registered (.int rq.toInt), a)]} a := by
  have hregister := count_eraseIdx ClientMessage.isRegister a hm
  have hderegister := count_eraseIdx ClientMessage.isDeRegister a hm
  have hlooking := count_eraseIdx ClientMessage.isLookingFor a hm
  have hclaims : s.claims a = 0 := by
    by_contra hpos
    obtain ⟨session, hlookup, -⟩ := h.session (Nat.pos_of_ne_zero hpos)
    rw [hnew] at hlookup
    cases hlookup
  obtain ⟨hoffers, hstate, hregistering, hsearching, -, -⟩ := h
  simp only [System.inquiries, System.claims] at hsearching hclaims
  simp only [ClientMessage.isRegister, ClientMessage.isDeRegister, ClientMessage.isLookingFor,
    and_self, if_true, Bool.false_eq_true, and_false, if_false] at hregister hderegister hlooking
  refine ⟨hoffers, hstate, ?_, ?_, ?_, ?_⟩
  · simp [ServerMessage.isRegistered]
    omega
  · simp [System.inquiries, ServerMessage.isFound, Server.took]
    omega
  · simp [System.claims, ServerMessage.isRegistered]
    omega
  · intro _
    exact ⟨_, AList.lookup_insert _, rfl⟩

/-- A DE_REGISTER of `a` that is handled: nothing speaks for a registration any more. -/
theorem Agreed.left {k : Nat} {rq : Int32} {name : String} (h : Agreed s a)
    (hm : s.toServer[k]? = some (.deRegister rq name, a)) :
    Agreed
      {s with
        server := {s.server.took (.deRegister rq name) a with
          peerSessions := s.server.peerSessions.erase (getPeerIdentifier a)}
        toServer := s.toServer.eraseIdx k} a := by
  have hregister := count_eraseIdx ClientMessage.isRegister a hm
  have hderegister := count_eraseIdx ClientMessage.isDeRegister a hm
  have hlooking := count_eraseIdx ClientMessage.isLookingFor a hm
  obtain ⟨hoffers, hstate, hregistering, hsearching, hclaim, -⟩ := h
  simp only [System.inquiries, System.claims] at hsearching hclaim
  simp only [ClientMessage.isRegister, ClientMessage.isDeRegister, ClientMessage.isLookingFor,
    and_self, if_true, Bool.false_eq_true, and_false, if_false] at hregister hderegister hlooking
  refine ⟨hoffers, hstate, ?_, ?_, ?_, ?_⟩
  · simp only
    omega
  · simp only [System.inquiries, Server.took]
    omega
  · simp only [System.claims]
    omega
  · intro hpos
    simp only [System.claims] at hpos
    omega

/-- A LOOKING_FOR of anybody: an own one becomes an open search. -/
theorem Agreed.searched {b : SockaddrIn} {k : Nat} {rq : Int32}
    {name item description : String} {maxPrice : P} (h : Agreed s a)
    (hm : s.toServer[k]? = some (.lookingFor rq name item description maxPrice, b)) :
    Agreed
      {s with
        server := {s.server.took (.lookingFor rq name item description maxPrice) b with
          activeSearches := (StoreEvent.lookingFor
            ⟨rq, name, item, maxPrice, b, s.server.clock⟩).apply s.server.activeSearches
          timeoutThreads := s.server.timeoutThreads ++ [(rq, s.server.clock)]}
        toServer := s.toServer.eraseIdx k
        toClient := s.toClient ++
          (recipients (getPeerIdentifier b) s.server.peerSessions.entries).map
            (.search rq item (.str description), ·)} a := by
  have hup := fun kind : ClientMessage P → Bool => count_eraseIdx_le kind a s.toServer k
  have hlooking := count_eraseIdx ClientMessage.isLookingFor a hm
  have hopen := openSearches_lookingFor a ⟨rq, name, item, maxPrice, b, s.server.clock⟩
    s.server.activeSearches
  simp only [ClientMessage.isLookingFor, and_true] at hlooking hopen
  refine h.mono rfl rfl (hup _) ?_ (hup _) ?_ id
  · rw [count_append, count_map _ _ _ _ rfl, Nat.add_zero]
  · simp only [System.inquiries]
    rw [count_append, count_map _ _ _ _ rfl]
    omega

theorem Agreed.served {b : SockaddrIn} {k : Nat} {m : ClientMessage P} {server : Server P}
    {sent : Sent P} (h : Agreed s a) (hm : s.toServer[k]? = some (m, b))
    (hserved : Served s.server b m server sent) :
    Agreed
      {s with
        server
        toServer := s.toServer.eraseIdx k
        toClient := s.toClient ++ sent} a := by
  cases hserved with
  | denied hknown =>
    exact h.served_quiet (by simp [ServerMessage.isRegistered]) (by simp [ServerMessage.isFound])
      le_rfl id
  | registered hnew =>
    by_cases hb : b = a
    · subst hb
      exact h.granted hm hnew
    · refine h.served_quiet (by simp [hb]) (by simp [hb]) le_rfl ?_
      intro hheld
      obtain ⟨session, hlookup, haddr⟩ := hheld
      have hkey : getPeerIdentifier a ≠ getPeerIdentifier b := by simpa using Ne.symm hb
      exact ⟨session, (AList.lookup_insert_ne hkey).trans hlookup, haddr⟩
  | deregistered =>
    by_cases hb : b = a
    · subst hb
      rw [List.append_nil]
      exact h.left hm
    · refine h.served_quiet rfl rfl le_rfl ?_
      intro hheld
      obtain ⟨session, hlookup, haddr⟩ := hheld
      have hkey : getPeerIdentifier a ≠ getPeerIdentifier b := by simpa using Ne.symm hb
      exact ⟨session, (AList.lookup_erase_ne hkey).trans hlookup, haddr⟩
  | searched => exact h.searched hm
  | offered => exact h.served_quiet rfl rfl (openSearches_offer a _ _ _ _).le id
  | negotiated => exact h.served_quiet rfl rfl le_rfl id
  | accepted => exact h.served_quiet rfl rfl le_rfl id
  | refused => exact h.served_quiet rfl rfl le_rfl id

theorem Agreed.delivered_other {b : SockaddrIn} {k : Nat} {c : P2PClient P}
    {reply : Option (ClientMessage P)} (h : Agreed s a) (hne : b ≠ a) :
    Agreed
      {s with
        clients := Function.update s.clients b c
        toServer := s.toServer ++ reply.toList.map (·, b)
        toClient := s.toClient.eraseIdx k} a := by
  have hdown := fun kind : ServerMessage P → Bool => count_eraseIdx_le kind a s.toClient k
  refine (h.acted_other (c := c) (m := reply) hne).mono rfl rfl le_rfl (hdown _) le_rfl ?_ id
  have hfound := hdown ServerMessage.isFound
  simp only [System.inquiries]
  omega

/-- The client moves on to REGISTERED, with nothing else in flight and a session that is held. -/
theorem Agreed.moved_on {k : Nat} (h : Agreed s a)
    (hregistering : count ClientMessage.isRegister a s.toServer +
      count ServerMessage.isRegistered a (s.toClient.eraseIdx k) = 0)
    (hsearching : count ClientMessage.isLookingFor a s.toServer +
      openSearches a s.server.activeSearches +
        count ServerMessage.isFound a (s.toClient.eraseIdx k) = 0)
    (hderegister : count ClientMessage.isDeRegister a s.toServer = 0) (hclaims : 0 < s.claims a) :
    Agreed
      {s with
        clients := Function.update s.clients a {s.clients a with currentState := .registered}
        toClient := s.toClient.eraseIdx k} a := by
  refine ⟨by simp [h.offers], by simp, ?_, ?_, ?_, fun _ => h.session hclaims⟩
  · rw [hregistering]
    exact Nat.zero_le _
  · rw [System.inquiries, hsearching]
    exact Nat.zero_le _
  · simp only [System.claims, Function.update_self, active, if_true]
    omega

/-- A REGISTERED is handled by a client that still waits for it. -/
theorem Agreed.confirmed {k : Nat} {rq : Json P} (h : Agreed s a)
    (hm : s.toClient[k]? = some (.registered rq, a)) :
    Agreed
      {s with
        clients := Function.update s.clients a {s.clients a with currentState := .registered}
        toClient := s.toClient.eraseIdx k} a := by
  have hregistered := count_eraseIdx ServerMessage.isRegistered a hm
  have hfound := count_eraseIdx ServerMessage.isFound a hm
  have hregistering := h.registering
  have hsearching := h.searching
  have hclaim := h.claim
  simp only [ServerMessage.isRegistered, ServerMessage.isFound, and_self, if_true,
    Bool.false_eq_true, and_false, if_false] at hregistered hfound
  have hstate : (s.clients a).currentState = .registering := by
    by_contra hne
    rw [if_neg hne] at hregistering
    omega
  simp only [System.inquiries, System.claims, hstate, reduceCtorEq, if_false, if_true]
    at hregistering hsearching hclaim
  refine h.moved_on (by omega) (by omega) (by omega) ?_
  simp only [System.claims]
  omega

/-- A FOUND is handled by a client that still searches. -/
theorem Agreed.answered {k : Nat} {rq : Int32} {itemName : String} {price : P} (h : Agreed s a)
    (hm : s.toClient[k]? = some (.found rq itemName price, a)) :
    Agreed
      {s with
        clients := Function.update s.clients a {s.clients a with currentState := .registered}
        toClient := s.toClient.eraseIdx k} a := by
  have hregistered := count_eraseIdx ServerMessage.isRegistered a hm
  have hfound := count_eraseIdx ServerMessage.isFound a hm
  have hregistering := h.registering
  have hsearching := h.searching
  have hclaim := h.claim
  simp only [ServerMessage.isRegistered, ServerMessage.isFound, and_self, if_true,
    Bool.false_eq_true, and_false, if_false] at hregistered hfound
  simp only [System.inquiries, System.claims] at hsearching hclaim
  have hstate : (s.clients a).currentState = .searching := by
    by_contra hne
    rw [if_neg hne] at hsearching
    omega
  simp only [hstate, active, reduceCtorEq, if_false, if_true] at hregistering hsearching hclaim
  refine h.moved_on (by omega) (by omega) (by omega) ?_
  simp only [System.claims, hstate, active, if_true]
  omega

theorem Agreed.delivered {k : Nat} {m : ServerMessage P} {c : P2PClient P}
    {reply : Option (ClientMessage P)} (h : Agreed s a) (hm : s.toClient[k]? = some (m, a))
    (hreceived : Received (s.clients a) m c reply) :
    Agreed
      {s with
        clients := Function.update s.clients a c
        toServer := s.toServer ++ reply.toList.map (·, a)
        toClient := s.toClient.eraseIdx k} a := by
  have hdown := fun kind : ServerMessage P → Bool => count_eraseIdx_le kind a s.toClient k
  have hfound := hdown ServerMessage.isFound
  cases hreceived with
  | registered => simpa using h.confirmed hm
  | found => simpa using h.answered hm
  | offer hstate =>
    refine h.mono (by simp) (by simp) ?_ (hdown _) ?_ ?_ id
    · simp [ClientMessage.isRegister]
    · simp [ClientMessage.isDeRegister]
    · simp [System.inquiries, ClientMessage.isLookingFor]
      omega
  | ignored =>
    refine h.mono (by simp) (by simp) ?_ (hdown _) ?_ ?_ id
    · simp
    · simp
    · simp [System.inquiries]
      omega

theorem Agreed.lostUp {k : Nat} (h : Agreed s a) :
    Agreed {s with toServer := s.toServer.eraseIdx k} a := by
  have hup := fun kind : ClientMessage P → Bool => count_eraseIdx_le kind a s.toServer k
  have hlooking := hup ClientMessage.isLookingFor
  refine h.mono rfl rfl (hup _) le_rfl (hup _) ?_ id
  simp only [System.inquiries]
  omega

theorem Agreed.lostDown {k : Nat} (h : Agreed s a) :
    Agreed {s with toClient := s.toClient.eraseIdx k} a := by
  have hdown := fun kind : ServerMessage P → Bool => count_eraseIdx_le kind a s.toClient k
  have hfound := hdown ServerMessage.isFound
  refine h.mono rfl rfl le_rfl (hdown _) le_rfl ?_ id
  simp only [System.inquiries]
  omega

/-- The server alone has moved, on to something that still has the session. -/
theorem Agreed.server {server : Server P} (h : Agreed s a)
    (hsearches : server.activeSearches = s.server.activeSearches)
    (hsession : s.HoldsSession a → {s with server}.HoldsSession a) :
    Agreed {s with server} a :=
  h.mono rfl rfl le_rfl le_rfl le_rfl (by simp only [System.inquiries, hsearches]; exact le_rfl)
    hsession

/-- An event moves a session on; it never replaces one by a null pointer. -/
theorem holdsSession_visited {event : P2PEvent P} {b : SockaddrIn} {server : Server P}
    (hlookup : ∀ key, server.peerSessions.lookup key =
      visited event b (s.server.peerSessions.lookup key) key)
    (h : s.HoldsSession a) : {s with server}.HoldsSession a := by
  obtain ⟨session, hsession, haddr⟩ := h
  have hnow := hlookup (getPeerIdentifier a)
  rw [hsession] at hnow
  by_cases hb : a = b
  · exact ⟨session.visit event, by simpa [visited, hb] using hnow, haddr⟩
  · exact ⟨session, by simpa [visited, hb] using hnow, haddr⟩

theorem Agreed.fired {rq : Int32} {k : Nat} (h : Agreed s a) :
    Agreed
      {s with
        server := {s.server with
          timeoutThreads := s.server.timeoutThreads.eraseIdx k
          activeSearches := (StoreEvent.timer rq).apply s.server.activeSearches
          outbox := []}
        toClient := s.toClient ++ ((pending s.server.activeSearches rq).map verdict).toList} a := by
  have hopen := openSearches_timer a rq s.server.activeSearches
  have hfound := count_found_verdict a s.server.activeSearches rq
  refine h.mono rfl rfl le_rfl ?_ le_rfl ?_ id
  · simp only [count_append, count_registered_verdict]
    exact le_rfl
  · simp only [System.inquiries, count_append]
    omega

end Moves

/-- **No move breaks the agreement.** -/
theorem Agreed.step {s s' : System P} {l : Move P} {log : Log P} {a : SockaddrIn}
    (h : Agreed s a) (hstep : (network P).step s l = some (s', log)) : Agreed s' a := by
  cases step_moved hstep with
  | @acted b op sent c m hrunning hacted =>
    by_cases hb : b = a
    · subst hb
      exact h.acted hacted
    · exact h.acted_other hb
  | served hm hserved => exact h.served hm hserved
  | @delivered k sent m b c reply hm hreceived =>
    by_cases hb : b = a
    · subst hb
      exact h.delivered hm hreceived
    · exact h.delivered_other hb
  | lostUp => exact h.lostUp
  | lostDown => exact h.lostDown
  | pushed => exact h.server rfl id
  | visited _ hlookup => exact h.server rfl (holdsSession_visited hlookup)
  | fired => exact h.fired
  | ticked => exact h.server rfl id

theorem agreed_run {peers : SockaddrIn → Option ClientConfig} {s : System P}
    {tr : List (Move P × Log P)} (h : Run (network P) (System.start peers) tr s)
    (a : SockaddrIn) : Agreed s a :=
  h.invariant (fun _ s => Agreed s a) (agreed_start peers a)
    fun _ _ _ _ _ _ hagreed hstep => hagreed.step hstep

/-- **Registration agreement.** In every reachable state, the server holds the
session of every client that takes itself for registered. -/
theorem registered_holds_session {peers : SockaddrIn → Option ClientConfig} {s : System P}
    {tr : List (Move P × Log P)} (h : Run (network P) (System.start peers) tr s)
    (a : SockaddrIn)
    (hstate : (s.clients a).currentState ∈ [P2PStateType.registered, .searching, .negotiating]) :
    s.HoldsSession a := by
  have hagreed := agreed_run h a
  apply hagreed.session
  have hactive : active (s.clients a).currentState = true := by
    have hreached := hagreed.state
    simp only [List.mem_cons, List.not_mem_nil, or_false] at hstate hreached
    rcases hstate with hstate | hstate | hstate
    · rw [hstate]
      rfl
    · rw [hstate]
      rfl
    · rw [hstate] at hreached
      simp at hreached
  simp only [System.claims, hactive, if_true]
  omega

/-- A client registers, and its REGISTERED arrives. -/
theorem registered_holds_session_peer1 : ∃ s tr,
    Run (network Rat) (System.start household) tr s ∧ s.HoldsSession peer1 := by
  obtain ⟨s, tr, hrun, hstate⟩ := (network Rat).exec_view (System.start household)
    (registration peer1) (fun r => (r.1.clients peer1).currentState) (v := .registered) rfl
  have hstate : (s.clients peer1).currentState = .registered := hstate
  exact ⟨s, tr, hrun, registered_holds_session hrun peer1 (by simp [hstate])⟩

end P2PShopping
