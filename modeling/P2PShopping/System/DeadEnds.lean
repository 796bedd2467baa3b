import P2PShopping.Server.Identifiers
import P2PShopping.System.Answers

/-! Where the protocol leads nowhere.

Two things follow from the agreement of the peers that no single handler shows. Nobody
ever lists an offer, because no message of the server that would become one can be parsed:
the commands that answer offers are refused in every reachable state, and nothing of a
negotiation is ever sent (`negotiation_unreachable`). And an event that is processed when
its sender has no session leaves a null pointer that nothing removes: its peer can neither
register nor say goodbye again, no search reaches it, and all that is still sent to it are
the two messages a client cannot parse (`null_session_final`). -/
namespace P2PShopping
open Collections Json Runs

variable {P : Type} [Double P]

/-! ### Negotiation -/

section Negotiation

/-- The commands that answer an offer. -/
def UserOp.negotiates : UserOp P → Bool
  | .negotiateOffer .. | .acceptOffer .. | .refuseOffer .. => true
  | _ => false

def ClientMessage.negotiates : ClientMessage P → Bool
  | .negotiate .. | .accept .. | .refuse .. => true
  | _ => false

omit [Double P] in
theorem answerOffer_unlisted {c : P2PClient P} (hoffers : c.offers = []) (requestNumber : Int32)
    (agrees : Offer P → Bool) (next : P2PStateType) (message : ClientMessage P) (sent : Bool) :
    (c.answerOffer requestNumber agrees next message sent).effect = (c, none) :=
  (c.answerOffer_cases requestNumber agrees next message sent).resolve_right
    fun hlisted => hlisted hoffers

/-- Without a listed offer they come to nothing. -/
theorem negotiation_refused {c : P2PClient P} (hoffers : c.offers = []) {op : UserOp P}
    (hop : op.negotiates = true) (sent : Bool) : op.run c sent = (c, none) := by
  cases op with
  | negotiateOffer rq itemName counterPrice =>
    simp only [UserOp.run, P2PClient.negotiateOffer]
    split
    · rfl
    · exact answerOffer_unlisted hoffers ..
  | acceptOffer rq itemName price => exact answerOffer_unlisted hoffers ..
  | refuseOffer rq itemName price => exact answerOffer_unlisted hoffers ..
  | registerWithServer | deregister | searchItem | addItem | removeItem | quit => cases hop

theorem sent_not_negotiation {s s' : System P} {l : Move P} {log : Log P}
    (hagreed : ∀ a, Agreed s a) (hstep : (network P).step s l = some (s', log)) :
    ∀ d ∈ log.up, d.1.negotiates = false := by
  intro d hd
  cases step_moved hstep with
  | @acted a op sent c m hrunning hacted =>
    cases hacted with
    | quiet | dropped => cases hd
    | register | deregister | search =>
      obtain rfl := List.mem_singleton.mp hd
      rfl
    | answer hoffers => exact absurd (hagreed a).offers hoffers
  | delivered hm hreceived =>
    cases hreceived with
    | registered | found | ignored => cases hd
    | offer =>
      obtain rfl := List.mem_singleton.mp hd
      rfl
  | served | lostUp | lostDown | pushed | visited | fired | ticked => cases hd

variable {peers : SockaddrIn → Option ClientConfig} {s : System P} {tr : List (Move P × Log P)}

/-- **Negotiation is unreachable.** In every reachable state of the system no client lists
an offer or negotiates, `negotiate`, `accept` and `refuse` change nothing and send nothing,
and nothing of the kind has ever been sent. -/
theorem negotiation_unreachable (h : Run (network P) (System.start peers) tr s) :
    (∀ a, (s.clients a).offers = [] ∧ (s.clients a).currentState ≠ .negotiating ∧
      ∀ op : UserOp P, op.negotiates = true → ∀ sent,
        op.run (s.clients a) sent = (s.clients a, none)) ∧
      ∀ d ∈ sentUp tr, d.1.negotiates = false := by
  constructor
  · intro a
    have hagreed := agreed_run h a
    refine ⟨hagreed.offers, fun hstate => ?_, fun op hop sent =>
      negotiation_refused hagreed.offers hop sent⟩
    have hreached := hagreed.state
    rw [hstate] at hreached
    simp at hreached
  · refine h.invariant (fun tr _ => ∀ d ∈ sentUp tr, d.1.negotiates = false) (by simp [sentUp]) ?_
    intro tr s l s' log hrun ih hstep d hd
    rw [sentUp_snoc] at hd
    rcases List.mem_append.mp hd with hd | hd
    · exact ih d hd
    · exact sent_not_negotiation (agreed_run hrun) hstep d hd

end Negotiation

/-- The seller's price is above the searcher's maximum, so the server asks it to negotiate. -/
def lampTooDear : List (Move Rat) :=
  registration peer1 ++ registration peer2 ++
    [.user peer2 (.addItem "lamp" "old" 12) true, .user peer1 (.searchItem "lamp" "old" 10) true,
     .serve 0, .deliver 0 true, .serve 0, .tick 60000000000, .timeout 0, .deliver 0 true]

theorem negotiation_unreachable_dear : ∃ s tr,
    Run (network Rat) (System.start household) tr s ∧
      (sentDown tr).map (·.1.isFound) = [false, false, false, false] ∧
      (s.clients peer2).offers = [] := by
  obtain ⟨s, tr, hrun, hview⟩ := (network Rat).exec_view (System.start household) lampTooDear
    (fun r => (sentDown r.2).map (·.1.isFound)) (v := [false, false, false, false])
    (by decide +kernel)
  exact ⟨s, tr, hrun, hview, ((negotiation_unreachable hrun).1 peer2).1⟩

/-! ### The null session -/

section Null
variable {s s' : System P} {a : SockaddrIn} {l : Move P} {log : Log P}

/-- The messages of the server that no client can parse. -/
def ServerMessage.isMute : ServerMessage P → Bool
  | .registerDenied .. | .negotiate .. => true
  | .registered _ | .search .. | .notAvailable .. | .found .. => false

/-- The server holds a null pointer for `a`. -/
def System.NullFor (s : System P) (a : SockaddrIn) : Prop :=
  s.server.peerSessions.lookup (getPeerIdentifier a) = some none

/-- Who has a null pointer for a session has nothing in flight that could speak for one. -/
theorem claims_of_null (hagreed : Agreed s a) (hnull : s.NullFor a) :
    s.claims a = 0 := by
  by_contra hclaims
  obtain ⟨session, hsession, -⟩ := hagreed.session (Nat.pos_of_ne_zero hclaims)
  rw [System.NullFor, hsession] at hnull
  cases hnull

theorem state_of_null (hagreed : Agreed s a) (hnull : s.NullFor a) :
    (s.clients a).currentState = .unregistered ∨ (s.clients a).currentState = .registering := by
  have hclaims := claims_of_null hagreed hnull
  have hstate := hagreed.state
  simp only [List.mem_cons, List.not_mem_nil, or_false] at hstate
  rcases hstate with hstate | hstate | hstate | hstate
  · exact .inl hstate
  · exact .inr hstate
  · simp [System.claims, hstate, active] at hclaims
  · simp [System.claims, hstate, active] at hclaims

/-- What another address does leaves the entry alone, and `a` itself is known already. -/
theorem served_null {b : SockaddrIn} {k : Nat} {m : ClientMessage P} {server : Server P}
    {sent : Sent P} (hagreed : Agreed s a) (hnull : s.NullFor a)
    (hm : s.toServer[k]? = some (m, b)) (hserved : Served s.server b m server sent) :
    server.peerSessions.lookup (getPeerIdentifier a) = some none := by
  cases hserved with
  | denied | searched | offered | negotiated | accepted | refused => exact hnull
  | registered hnew =>
    have hother : getPeerIdentifier a ≠ getPeerIdentifier b := by
      intro hsame
      rw [← hsame, show s.server.peerSessions.lookup (getPeerIdentifier a) = some none from hnull]
        at hnew
      cases hnew
    exact (AList.lookup_insert_ne hother).trans hnull
  | @deregistered rq name =>
    have hother : getPeerIdentifier a ≠ getPeerIdentifier b := by
      intro hsame
      obtain rfl := getPeerIdentifier_inj hsame
      have hgoodbye : 0 < count ClientMessage.isDeRegister a s.toServer :=
        count_pos_of_mem (List.mem_of_getElem? hm) rfl
      have hclaims := claims_of_null hagreed hnull
      rw [System.claims] at hclaims
      omega
    exact (AList.lookup_erase_ne hother).trans hnull

theorem null_step (hagreed : Agreed s a) (hnull : s.NullFor a)
    (hstep : (network P).step s l = some (s', log)) : s'.NullFor a := by
  cases step_moved hstep with
  | served hm hserved => exact served_null hagreed hnull hm hserved
  | @visited event b rest sessions machine hqueue hlookup =>
    have hnow := hlookup (getPeerIdentifier a)
    have hbefore : s.server.peerSessions.lookup (getPeerIdentifier a) = some none := hnull
    rw [hbefore] at hnow
    refine hnow.trans ?_
    unfold visited
    split
    · rfl
    · rfl
  | acted | delivered | lostUp | lostDown | pushed | fired | ticked => exact hnull

/-- It waits for no answer of the server. -/
theorem inquiries_of_null (hagreed : Agreed s a) (hnull : s.NullFor a) : s.inquiries a = 0 := by
  have hinquiries := hagreed.searching
  have hstate : (s.clients a).currentState ≠ .searching := by
    rcases state_of_null hagreed hnull with hstate | hstate <;> rw [hstate] <;> decide
  rw [if_neg hstate] at hinquiries
  omega

/-- What a timer says to it is a NEGOTIATE. -/
theorem verdict_of_null (hagreed : Agreed s a) (hnull : s.NullFor a) {rq : Int32}
    {search : SearchRequest P} (hpending : pending s.server.activeSearches rq = some search)
    {m : ServerMessage P} (hm : verdict search = (m, a)) : m.isMute = true := by
  have hsearcher : search.searcherAddr ≠ a := by
    intro haddr
    have hpos := openSearches_pos hpending haddr
    have hinquiries := inquiries_of_null hagreed hnull
    rw [System.inquiries] at hinquiries
    omega
  unfold verdict at hm
  split at hm
  case h_1 => exact absurd (Prod.mk.inj hm).2 hsearcher
  case h_2 lowestOffer _ =>
    split at hm
    case isTrue => exact absurd (Prod.mk.inj hm).2 hsearcher
    case isFalse =>
      rw [← (Prod.mk.inj hm).1]
      rfl

/-- What the server sends to it in one move. -/
theorem down_of_null (hagreed : Agreed s a) (hkeys : SessionKeys s.server) (hnull : s.NullFor a)
    (hstep : (network P).step s l = some (s', log)) {m : ServerMessage P}
    (hm : (m, a) ∈ log.down) : m.isMute = true := by
  cases step_moved hstep with
  | @served k _ b _ _ _ hserved =>
    cases hserved with
    | denied =>
      rw [(Prod.mk.inj (List.mem_singleton.mp hm)).1]
      rfl
    | registered hnew =>
      rw [← (Prod.mk.inj (List.mem_singleton.mp hm)).2, hnull] at hnew
      cases hnew
    | searched =>
      obtain ⟨addr, hrecipient, hsent⟩ := List.mem_map.mp hm
      rw [(Prod.mk.inj hsent).2] at hrecipient
      obtain ⟨session, hsession, -⟩ :=
        (hasSession_iff hkeys).mp (hasSession_of_recipient hkeys hrecipient)
      rw [hnull] at hsession
      cases hsession
    | deregistered | offered | negotiated | accepted | refused => cases hm
  | fired =>
    obtain ⟨search, hpending, hverdict⟩ := Option.map_eq_some_iff.mp (Option.mem_toList.mp hm)
    exact verdict_of_null hagreed hnull hpending hverdict
  | acted | delivered | lostUp | lostDown | pushed | visited | ticked => cases hm

variable {peers : SockaddrIn → Option ClientConfig} {front : List (Move P × Log P)}

/-- **A null session is final.** Once the server holds a null pointer for an address, it
keeps it whatever anybody does; the client there is never registered again; and whatever
the server still sends to it is a REGISTER-DENIED or a NEGOTIATE. -/
theorem null_session_final (h : Run (network P) (System.start peers) front s)
    (hnull : s.NullFor a) {tr : List (Move P × Log P)} (hrun : Run (network P) s tr s') :
    s'.NullFor a ∧ ((s'.clients a).currentState = .unregistered ∨
      (s'.clients a).currentState = .registering) ∧
      ∀ m, (m, a) ∈ sentDown tr → m.isMute = true := by
  have hinv : s'.NullFor a ∧ ∀ m, (m, a) ∈ sentDown tr → m.isMute = true := by
    refine hrun.invariant (fun tr s' => s'.NullFor a ∧
      ∀ m, (m, a) ∈ sentDown tr → m.isMute = true) ⟨hnull, by simp [sentDown]⟩ ?_
    rintro tr s₁ l s₂ log hrun ⟨hnull, hmute⟩ hstep
    have hagreed := agreed_run (h.append hrun) a
    refine ⟨null_step hagreed hnull hstep, fun m hm => ?_⟩
    rw [sentDown_snoc] at hm
    rcases List.mem_append.mp hm with hm | hm
    · exact hmute m hm
    · exact down_of_null hagreed (sessionKeys_run (server_run (h.append hrun))) hnull hstep hm
  exact ⟨hinv.1, state_of_null (agreed_run (h.append hrun) a) hinv.1, hinv.2⟩

end Null

/-- The event of the REGISTER is processed after the DE_REGISTER has been handled. -/
def goodbyeOvertakes : List (Move Rat) :=
  registration peer1 ++ [.user peer1 .deregister true, .serve 0, .push 0, .event]

theorem null_session_final_goodbye : ∃ s front,
    Run (network Rat) (System.start household) front s ∧ s.NullFor peer1 ∧
      ∀ s' tr, Run (network Rat) s tr s' →
        (s'.clients peer1).currentState ≠ .registered ∧
          ∀ rq item description, (.search rq item description, peer1) ∉ sentDown tr := by
  obtain ⟨s, front, hrun, hview⟩ := (network Rat).exec_view (System.start household)
    goodbyeOvertakes (fun r => (r.1.server.peerSessions.lookup (getPeerIdentifier peer1)).map
      Option.isNone) (v := some true) (by decide +kernel)
  have hnull : s.NullFor peer1 := by
    obtain ⟨session, hlookup, hnone⟩ := Option.map_eq_some_iff.mp hview
    rw [System.NullFor, hlookup, Option.isNone_iff_eq_none.mp hnone]
  refine ⟨s, front, hrun, hnull, fun s' tr hrun' => ?_⟩
  obtain ⟨-, hstate, hmute⟩ := null_session_final hrun hnull hrun'
  constructor
  · rcases hstate with hstate | hstate <;> rw [hstate] <;> decide
  · intro rq item description hsearch
    cases hmute _ hsearch

end P2PShopping
