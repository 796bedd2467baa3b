import P2PShopping.System.Outcomes
import P2PShopping.System.Registration

/-! The system at rest.

Of the answers a waiting client can get only REGISTERED and FOUND move it on: it
drops a REGISTER-DENIED and a NEGOTIATE, and a NOT_AVAILABLE only prints. So a
client that waits is attended (`Attended`) as long as one of these two can still
come, which every step keeps that answers none of the other ways and overwrites no
open search. At rest nothing can still come, so nobody waits. -/
namespace P2PShopping
open Collections Json Runs

variable {P : Type} [Double P]

/-- Nothing is in flight, queued or pending. -/
def System.atRest (s : System P) : Bool :=
  s.toServer.isEmpty && s.toClient.isEmpty && s.server.workers.isEmpty &&
    s.server.eventQueue.isEmpty && s.server.timeoutThreads.isEmpty

/-- The network loses only what no running client is there to receive. -/
def lossless (s : System P) : Move P → Bool
  | .loseUp _ => false
  | .loseDown k =>
    match s.toClient[k]? with
    | some (_, a) => !(s.clients a).running
    | none => true
  | _ => true

/-- A REGISTER is handled only from an address without an entry, a LOOKING_FOR only
on a number without an open search, and a timer fires on an open search only if it
has an offer within its maximum. -/
def answerable (s : System P) : Move P → Bool
  | .serve k =>
    match s.toServer[k]? with
    | some (.register .., a) =>
      (s.server.peerSessions.lookup (getPeerIdentifier a)).isNone
    | some (.lookingFor rq .., _) => (pending s.server.activeSearches rq).isNone
    | _ => true
  | .timeout k =>
    match s.server.timeoutThreads[k]? with
    | some (rq, _) =>
      (pending s.server.activeSearches rq).all fun search =>
        search.offers.any fun offer => offer.price ≤ search.maxPrice
    | none => true
  | _ => true

/-- What a waiting client waits for can still come. -/
structure Attended (s : System P) (a : SockaddrIn) : Prop where
  registering : (s.clients a).currentState = .registering →
    0 < count ClientMessage.isRegister a s.toServer + count ServerMessage.isRegistered a s.toClient
  searching : (s.clients a).currentState = .searching → 0 < s.inquiries a

section Moves
variable {s : System P} {a : SockaddrIn}

theorem Attended.mono {s' : System P} (h : Attended s a)
    (hstate : (s'.clients a).currentState = (s.clients a).currentState)
    (hregister : count ClientMessage.isRegister a s.toServer +
        count ServerMessage.isRegistered a s.toClient ≤
      count ClientMessage.isRegister a s'.toServer +
        count ServerMessage.isRegistered a s'.toClient)
    (hinquiries : s.inquiries a ≤ s'.inquiries a) : Attended s' a :=
  ⟨fun hreg => (h.registering (hstate ▸ hreg)).trans_le hregister,
    fun hsearch => (h.searching (hstate ▸ hsearch)).trans_le hinquiries⟩

theorem Attended.acted_other {b : SockaddrIn} {c : P2PClient P} {m : Option (ClientMessage P)}
    (h : Attended s a) (hne : b ≠ a) :
    Attended
      {s with
        clients := Function.update s.clients b c
        toServer := s.toServer ++ m.toList.map (·, b)} a := by
  refine h.mono (congrArg P2PClient.currentState (Function.update_of_ne (Ne.symm hne) _ _)) ?_ ?_
  · simp
  · simp [System.inquiries]

theorem Attended.acted {c : P2PClient P} {m : Option (ClientMessage P)} (hagreed : Agreed s a)
    (h : Attended s a) (hacted : Acted (s.clients a) c m) :
    Attended
      {s with
        clients := Function.update s.clients a c
        toServer := s.toServer ++ m.toList.map (·, a)} a := by
  cases hacted with
  | quiet hstate => refine h.mono (by simp [hstate]) ?_ ?_ <;> simp [System.inquiries]
  | register hfrom hto =>
    refine ⟨fun _ => Nat.add_pos_left ?_ _, by simp [hto]⟩
    exact count_pos_of_mem (List.mem_append_right _ (List.mem_singleton_self _)) rfl
  | deregister hfrom hto => exact ⟨by simp [hto], by simp [hto]⟩
  | search hfrom hto =>
    refine ⟨by simp [hto], fun _ => ?_⟩
    refine Nat.add_pos_left (Nat.add_pos_left ?_ _) _
    exact count_pos_of_mem (List.mem_append_right _ (List.mem_singleton_self _)) rfl
  | answer hoffers => exact absurd hagreed.offers hoffers
  | dropped hoffers => exact absurd hagreed.offers hoffers

theorem Attended.served {b : SockaddrIn} {k : Nat} {m : ClientMessage P} {server : Server P}
    {sent : Sent P} (h : Attended s a) (hm : s.toServer[k]? = some (m, b))
    (hserved : Served s.server b m server sent) (hanswer : answerable s (.serve k) = true) :
    Attended
      {s with
        server
        toServer := s.toServer.eraseIdx k
        toClient := s.toClient ++ sent} a := by
  have hregister := count_eraseIdx ClientMessage.isRegister a hm
  have hlooking := count_eraseIdx ClientMessage.isLookingFor a hm
  simp only [answerable, hm] at hanswer
  cases hserved with
  | denied hknown =>
    rw [Option.isNone_iff_eq_none] at hanswer
    rw [hanswer] at hknown
    cases hknown
  | registered =>
    simp only [ClientMessage.isRegister, ClientMessage.isLookingFor, and_true, and_false,
      Bool.false_eq_true, if_false] at hregister hlooking
    refine h.mono rfl ?_ ?_
    · simp [ServerMessage.isRegistered]
      omega
    · simp [System.inquiries, ServerMessage.isFound, Server.took]
      omega
  | @searched rq name item description maxPrice =>
    have hopen := openSearches_lookingFor_fresh a ⟨rq, name, item, maxPrice, b, s.server.clock⟩
      (Option.isNone_iff_eq_none.mp hanswer)
    simp only [ClientMessage.isRegister, ClientMessage.isLookingFor, and_true, and_false,
      Bool.false_eq_true, if_false] at hregister hlooking
    refine h.mono rfl ?_ ?_
    · simp
      omega
    · simp only [System.inquiries, count_append, hopen]
      omega
  | offered =>
    simp only [ClientMessage.isRegister, ClientMessage.isLookingFor, and_false,
      Bool.false_eq_true, if_false] at hregister hlooking
    refine h.mono rfl ?_ ?_
    · simp
      omega
    · simp only [System.inquiries, openSearches_offer, count_append]
      omega
  | deregistered | negotiated | accepted | refused =>
    simp only [ClientMessage.isRegister, ClientMessage.isLookingFor, and_false,
      Bool.false_eq_true, if_false] at hregister hlooking
    refine h.mono rfl ?_ ?_
    · simp
      omega
    · simp [System.inquiries, Server.took]
      omega

/-- What is in flight to others does not attend `a`. -/
theorem Attended.taken {b : SockaddrIn} {k : Nat} {m : ServerMessage P} (h : Attended s a)
    (hm : s.toClient[k]? = some (m, b))
    (hother : b = a → m.isRegistered = false ∧ m.isFound = false) :
    Attended {s with toClient := s.toClient.eraseIdx k} a := by
  have hregistered := count_eraseIdx ServerMessage.isRegistered a hm
  have hfound := count_eraseIdx ServerMessage.isFound a hm
  have hnone : (if b = a ∧ m.isRegistered = true then 1 else 0) = 0 ∧
      (if b = a ∧ m.isFound = true then 1 else 0) = 0 := by
    by_cases hb : b = a
    · simp [hother hb]
    · simp [hb]
  refine h.mono rfl ?_ ?_
  · simp only
    omega
  · simp only [System.inquiries]
    omega

theorem Attended.delivered {k : Nat} {m : ServerMessage P} {c : P2PClient P}
    {reply : Option (ClientMessage P)} (h : Attended s a) (hm : s.toClient[k]? = some (m, a))
    (hreceived : Received (s.clients a) m c reply)
    (hreadable : ∀ rq, m = .registered rq → ∃ n, getInt rq = .ok n) :
    Attended
      {s with
        clients := Function.update s.clients a c
        toServer := s.toServer ++ reply.toList.map (·, a)
        toClient := s.toClient.eraseIdx k} a := by
  cases hreceived with
  | registered => exact ⟨by simp, by simp⟩
  | found => exact ⟨by simp, by simp⟩
  | offer =>
    refine (h.taken hm fun _ => ⟨rfl, rfl⟩).mono (by simp) ?_ ?_
    · simp [ClientMessage.isRegister]
    · simp [System.inquiries, ClientMessage.isLookingFor]
  | ignored hfound hregistered =>
    have hkind : m.isRegistered = false ∧ m.isFound = false := by
      cases m with
      | registered rq =>
        obtain ⟨n, hn⟩ := hreadable rq rfl
        exact absurd hn (hregistered rq n rfl)
      | found rq itemName price => exact absurd rfl (hfound rq itemName price)
      | registerDenied | search | notAvailable | negotiate => exact ⟨rfl, rfl⟩
    refine (h.taken hm fun _ => hkind).mono (by simp) ?_ ?_ <;> simp [System.inquiries]

theorem Attended.fired {rq : Int32} {k : Nat} (h : Attended s a)
    (hanswer : ∀ search, pending s.server.activeSearches rq = some search →
      ∃ offer ∈ search.offers, offer.price ≤ search.maxPrice) :
    Attended
      {s with
        server := {s.server with
          timeoutThreads := s.server.timeoutThreads.eraseIdx k
          activeSearches := (StoreEvent.timer rq).apply s.server.activeSearches
          outbox := []}
        toClient := s.toClient ++ ((pending s.server.activeSearches rq).map verdict).toList} a := by
  have hopen := openSearches_timer a rq s.server.activeSearches
  have hfound := count_found_verdict_eq a hanswer
  refine h.mono rfl ?_ ?_
  · simp only [count_append]
    omega
  · simp only [System.inquiries, count_append, hfound]
    omega

end Moves

/-! ### Runs -/

/-- What a run without loss and with an answer to every request keeps. -/
structure Waiting (s : System P) : Prop where
  readable : ∀ rq a, (.registered rq, a) ∈ s.toClient → ∃ n, getInt rq = .ok n
  attended : ∀ a, (s.clients a).running = true → Attended s a

/-- The server's REGISTEREDs carry the number of a client's message. -/
theorem readable_step {s s' : System P} {l : Move P} {log : Log P}
    (h : ∀ rq a, (.registered rq, a) ∈ s.toClient → ∃ n, getInt rq = .ok n)
    (hstep : (network P).step s l = some (s', log)) :
    ∀ rq a, (.registered rq, a) ∈ s'.toClient → ∃ n, getInt rq = .ok n := by
  intro v a hm
  cases step_moved hstep with
  | served _ hserved =>
    rcases List.mem_append.mp hm with hold | hnew
    · exact h v a hold
    · cases hserved with
      | @registered rq =>
        obtain ⟨rfl, -⟩ : v = .int rq.toInt ∧ a = _ := by simpa using hnew
        exact ⟨_, rfl⟩
      | denied | searched => simp at hnew
      | deregistered | offered | negotiated | accepted | refused => cases hnew
  | @fired k r started =>
    rcases List.mem_append.mp hm with hold | hnew
    · exact h v a hold
    · have hzero := count_registered_verdict a s.server.activeSearches r
      have hpos : 0 < count ServerMessage.isRegistered a
          ((pending s.server.activeSearches r).map verdict).toList := count_pos_of_mem hnew rfl
      omega
  | delivered => exact h v a (mem_of_mem_eraseIdx hm)
  | lostDown => exact h v a (mem_of_mem_eraseIdx hm)
  | acted | lostUp | pushed | visited | ticked => exact h v a hm

theorem attended_step {s s' : System P} {l : Move P} {log : Log P} {a : SockaddrIn}
    (hagreed : Agreed s a) (hwaiting : Waiting s) (hlossless : lossless s l = true)
    (hanswer : answerable s l = true) (hstep : (network P).step s l = some (s', log))
    (hrunning : (s'.clients a).running = true) : Attended s' a := by
  cases step_moved hstep with
  | @acted b op sent c m hb hacted =>
    by_cases hne : b = a
    · subst hne
      exact (hwaiting.attended b hb).acted hagreed hacted
    · have hsame : Function.update s.clients b c a = s.clients a :=
        Function.update_of_ne (Ne.symm hne) _ _
      exact (hwaiting.attended a (hsame ▸ hrunning)).acted_other hne
  | served hm hserved => exact (hwaiting.attended a hrunning).served hm hserved hanswer
  | @delivered k sent m b c reply hm hreceived =>
    by_cases hne : b = a
    · subst hne
      have hb : (s.clients b).running = true := by
        have hc : c.running = true := by simpa using hrunning
        cases hreceived <;> exact hc
      refine (hwaiting.attended b hb).delivered hm hreceived fun rq hrq => ?_
      exact hwaiting.readable rq b (hrq ▸ List.mem_of_getElem? hm)
    · have hsame : Function.update s.clients b c a = s.clients a :=
        Function.update_of_ne (Ne.symm hne) _ _
      have hattended := hwaiting.attended a (hsame ▸ hrunning)
      exact (hattended.taken hm fun hba => absurd hba hne).acted_other hne
  | lostUp => cases hlossless
  | @lostDown k =>
    cases hm : s.toClient[k]? with
    | none =>
      have hsame : s.toClient.eraseIdx k = s.toClient :=
        List.eraseIdx_of_length_le (List.getElem?_eq_none_iff.mp hm)
      rw [hsame]
      exact hwaiting.attended a hrunning
    | some d =>
      obtain ⟨m, b⟩ := d
      simp only [lossless, hm, Bool.not_eq_true'] at hlossless
      refine (hwaiting.attended a hrunning).taken hm fun hba => ?_
      have hrunning : (s.clients a).running = true := hrunning
      rw [hba, hrunning] at hlossless
      cases hlossless
  | @fired k rq started hthread =>
    refine (hwaiting.attended a hrunning).fired fun search hsearch => ?_
    simpa [answerable, hthread, hsearch] using hanswer
  | pushed | visited | ticked =>
    have h := hwaiting.attended a hrunning
    exact ⟨h.registering, h.searching⟩

theorem waiting_start (peers : SockaddrIn → Option ClientConfig) :
    Waiting (System.start peers : System P) := by
  refine ⟨fun rq a hm => (by cases hm), fun a _ => ?_⟩
  have hstate : ((System.start peers : System P).clients a).currentState = .unregistered := by
    simp only [System.start]
    cases peers a <;> rfl
  exact ⟨by simp [hstate], by simp [hstate]⟩

/-- **Nobody is left waiting at rest**, in a run without loss in which no REGISTER is
denied, no open search is overwritten, and no search times out without an
acceptable offer. -/
theorem at_rest_of_answerable {peers : SockaddrIn → Option ClientConfig} {s : System P}
    {tr : List (Move P × Log P)} (h : Run (network P) (System.start peers) tr s)
    (hlossless : StepsMeet (network P) (lossless · ·) (System.start peers) tr)
    (hanswer : StepsMeet (network P) (answerable · ·) (System.start peers) tr)
    (hrest : s.atRest = true) (a : SockaddrIn) (hrunning : (s.clients a).running = true) :
    (s.clients a).currentState ∈ [P2PStateType.unregistered, .registered] := by
  have hwaiting : Waiting s := by
    refine h.invariant_of (fun s l => lossless s l = true ∧ answerable s l = true)
      (fun _ s => Waiting s) (waiting_start peers) ?_
      fun front e back s₁ htr hrun =>
        ⟨hlossless front e back s₁ htr hrun, hanswer front e back s₁ htr hrun⟩
    intro tr s l s' log hrun hwaiting hC hstep
    exact ⟨readable_step hwaiting.readable hstep, fun a =>
      attended_step (agreed_run hrun a) hwaiting hC.1 hC.2 hstep⟩
  simp only [System.atRest, Bool.and_eq_true, List.isEmpty_iff] at hrest
  obtain ⟨⟨⟨⟨hup, hdown⟩, -⟩, -⟩, hthreads⟩ := hrest
  have hattended := hwaiting.attended a hrunning
  have hstate := (agreed_run h a).state
  simp only [List.mem_cons, List.not_mem_nil, or_false] at hstate ⊢
  rcases hstate with hstate | hstate | hstate | hstate
  · exact .inl hstate
  · have hpos := hattended.registering hstate
    simp [hup, hdown] at hpos
  · exact .inr hstate
  · -- An open search would have its timer pending.
    have hpos := hattended.searching hstate
    simp only [System.inquiries, hup, hdown, count_nil, Nat.zero_add, Nat.add_zero] at hpos
    obtain ⟨rq, search, hsearch⟩ := exists_pending_of_openSearches hpos
    obtain ⟨thread, hmem, -⟩ :=
      current_has_timer h rq _ (current_eq_some.mpr ⟨search, hsearch, rfl⟩)
    rw [hthreads] at hmem
    cases hmem

/-- The lamp is sold, and everything that is left is handled. -/
def lampSoldToRest : List (Move Rat) :=
  lampSold ++ [.deliver 0 true] ++ List.replicate 4 (.push 0) ++ List.replicate 4 .event

theorem at_rest_of_answerable_lamp : ∃ s tr,
    Run (network Rat) (System.start household) tr s ∧
      (s.clients peer1).currentState ∈ [P2PStateType.unregistered, .registered] := by
  obtain ⟨s, tr, hrun, hC, hview⟩ := (network Rat).exec_view_meets
    (fun s l => lossless s l && answerable s l) (System.start household) lampSoldToRest
    (fun r => r.1.atRest && (r.1.clients peer1).running) (v := true)
    (by decide +kernel) (by decide +kernel)
  simp only [Bool.and_eq_true] at hC hview
  exact ⟨s, tr, hrun, at_rest_of_answerable hrun
    (fun front e back s₁ htr hfront => (hC front e back s₁ htr hfront).1)
    (fun front e back s₁ htr hfront => (hC front e back s₁ htr hfront).2) hview.1 _ hview.2⟩

/-- Nobody has a lamp, and the client learns it. -/
def lampMissed : List (Move Rat) :=
  registration peer1 ++
    [.user peer1 (.searchItem "lamp" "old" 10) true, .serve 0, .tick 60000000000, .timeout 0,
     .deliver 0 true, .push 0, .push 0, .event, .event]

/-- The NOT_AVAILABLE leaves its client searching for good. -/
theorem left_searching : ∃ s tr, Run (network Rat) (System.start household) tr s ∧
    StepsMeet (network Rat) (lossless · ·) (System.start household) tr ∧ s.atRest = true ∧
    (s.clients peer1).running = true ∧
    (s.clients peer1).currentState ∉ [P2PStateType.unregistered, .registered] := by
  obtain ⟨s, tr, hrun, hlossless, hview⟩ := (network Rat).exec_view_meets lossless
    (System.start household) lampMissed
    (fun r => decide (r.1.atRest = true ∧ (r.1.clients peer1).running = true ∧
      (r.1.clients peer1).currentState ∉ [P2PStateType.unregistered, .registered]))
    (v := true) (by decide +kernel) (by decide +kernel)
  exact ⟨s, tr, hrun, hlossless, of_decide_eq_true hview⟩

end P2PShopping
