import Mathlib.Data.Multiset.AddSub
import P2PShopping.Library.Traces
import P2PShopping.Server.Evaluation
import P2PShopping.Server.Rejection

/-! Messages the workers may reorder.

The worker pool hands messages to its threads, so two that arrive close together may be
handled in either order. What handling does to the sessions, the searches and the
threads is a change under one key in each of two tables (`Tables.serve`), and messages
of different peers about different requests use different keys. Every well-formed message
is handled, so the order does not show (`reordered_same_outcome`). -/
namespace P2PShopping
open Collections Json Handler Runs Traces

variable {P : Type} [Double P]

/-! ### Handling messages -/

/-- A message, where it came from and when it is handled. -/
structure Handling (P : Type) where
  message : Json P
  clientAddr : SockaddrIn
  now : Int

/-- The server when a message is given to its handler. -/
def Server.atTime (s : Server P) (now : Int) : Server P := {s with clock := now, outbox := []}

@[simp] theorem Server.atTime_peerSessions (s : Server P) (now : Int) :
    (s.atTime now).peerSessions = s.peerSessions := rfl

@[simp] theorem Server.atTime_activeSearches (s : Server P) (now : Int) :
    (s.atTime now).activeSearches = s.activeSearches := rfl

@[simp] theorem Server.atTime_clock (s : Server P) (now : Int) : (s.atTime now).clock = now := rfl

/-- Run the handler at its time. A fault that is not caught ends the server. -/
def Server.handle (s : Server P) (m : Handling P) : Option (Server P) :=
  ((s.atTime m.now).step (.receive m.message m.clientAddr)).map Prod.fst

def Server.handleAll (s : Server P) (ms : List (Handling P)) : Option (Server P) :=
  ms.foldlM Server.handle s

/-- What a well-formed message asks for. -/
inductive Request (P : Type) where
  | register
  | deregister
  | lookingFor (L : LookingFor P)
  | offer (rq : Int32) (offer : OfferInfo P)

/-- A message is well formed if it prints, with one of the four commands, and the keys
its handler reads are there and convert. -/
def requestOf (m : Handling P) : Option (Request P) :=
  match commandOf m.message with
  | some "REGISTER" =>
    (do let _ ← getString (← m.message.index "name")
        let _ ← m.message.index "rq"
        return .register : Except Fault (Request P)).toOption
  | some "DE_REGISTER" =>
    (do let _ ← m.message.index "name"
        return .deregister : Except Fault (Request P)).toOption
  | some "LOOKING_FOR" =>
    (do let L ← readLookingFor m.message m.clientAddr m.now
        let _ ← m.message.index "description"
        return .lookingFor L : Except Fault (Request P)).toOption
  | some "OFFER" =>
    (do let r ← readOffer m.message m.clientAddr
        return .offer r.1 r.2 : Except Fault (Request P)).toOption
  | _ => none

/-- The request number a LOOKING_FOR or an OFFER concerns. -/
def Request.rq? : Request P → Option Int32
  | .lookingFor L => some L.rq
  | .offer rq _ => some rq
  | .register | .deregister => none

/-- Different senders, and not both about one request number. -/
def Independent (m m' : Handling P) : Prop :=
  m.clientAddr ≠ m'.clientAddr ∧
    ∀ rq, (requestOf m).bind Request.rq? = some rq → (requestOf m').bind Request.rq? ≠ some rq

/-! ### The tables -/

/-- What a server holds, as functions of the keys and a bag of threads. -/
@[ext] structure Tables (P : Type) [Double P] where
  sessions : String → Option (Option (PeerSession P))
  searches : Int32 → Option (SearchRequest P)
  threads : Multiset (Int32 × Int)

def Server.tables (s : Server P) : Tables P where
  sessions key := s.peerSessions.lookup key
  searches rq := s.activeSearches.lookup rq
  threads := s.timeoutThreads

/-- What a request leaves under the key of its sender. -/
def Request.session (a : SockaddrIn) (entry : Option (Option (PeerSession P))) :
    Request P → Option (Option (PeerSession P))
  | .register => entry <|> some (some {peerAddr := a})
  | .deregister => none
  | .lookingFor _ | .offer .. => entry

/-- What a request leaves under the number it concerns. -/
def Request.search (now : Int) (entry : Option (SearchRequest P)) :
    Request P → Option (SearchRequest P)
  | .lookingFor L => some L.request
  | .offer _ o => entry.map (·.join now o)
  | .register | .deregister => entry

/-- The threads a request starts. -/
def Request.threads (now : Int) : Request P → Multiset (Int32 × Int)
  | .lookingFor L => {(L.rq, now)}
  | .register | .deregister | .offer .. => 0

/-- Serve a request of `a` at a time. -/
def Tables.serve (t : Tables P) (a : SockaddrIn) (now : Int) (r : Request P) : Tables P where
  sessions := modifyAt t.sessions (getPeerIdentifier a) (r.session a)
  searches :=
    match r.rq? with
    | some rq => modifyAt t.searches rq (r.search now)
    | none => t.searches
  threads := r.threads now + t.threads

theorem Tables.serve_sessions (t : Tables P) (a : SockaddrIn) (now : Int) (r : Request P) :
    (t.serve a now r).sessions =
      modifyAt t.sessions (getPeerIdentifier a) fun entry => r.session a entry := rfl

/-- **Requests of different peers about different numbers commute.** -/
theorem Tables.serve_comm (t : Tables P) {a a' : SockaddrIn} {now now' : Int} {r r' : Request P}
    (haddr : a ≠ a') (hrq : ∀ rq, r.rq? = some rq → r'.rq? ≠ some rq) :
    (t.serve a now r).serve a' now' r' = (t.serve a' now' r').serve a now r := by
  have hkey : getPeerIdentifier a ≠ getPeerIdentifier a' := by simpa using haddr
  ext1
  · simp only [Tables.serve]
    exact modifyAt_comm t.sessions hkey _ _
  · simp only [Tables.serve]
    cases hr : r.rq? with
    | none => rfl
    | some rq =>
      cases hr' : r'.rq? with
      | none => rfl
      | some rq' =>
        have hne : rq ≠ rq' := by
          intro h
          subst h
          exact hrq rq hr hr'
        exact modifyAt_comm t.searches hne _ _
  · simp only [Tables.serve]
    rw [← Multiset.add_assoc, Multiset.add_comm (r'.threads now'), Multiset.add_assoc]

/-! ### The handlers on the tables -/

/-- How a message comes to ask for what it asks. -/
inductive Asks (m : Handling P) : Request P → Prop where
  | register {name : String} {rq : Json P} : commandOf m.message = some "REGISTER" →
      m.message.Reads getString "name" name → m.message.index "rq" = .ok rq → Asks m .register
  | deregister {name : Json P} : commandOf m.message = some "DE_REGISTER" →
      m.message.index "name" = .ok name → Asks m .deregister
  | lookingFor {L : LookingFor P} {description : Json P} :
      commandOf m.message = some "LOOKING_FOR" →
      readLookingFor m.message m.clientAddr m.now = .ok L →
      m.message.index "description" = .ok description → Asks m (.lookingFor L)
  | offer {rq : Int32} {offer : OfferInfo P} : commandOf m.message = some "OFFER" →
      readOffer m.message m.clientAddr = .ok (rq, offer) → Asks m (.offer rq offer)

theorem requestOf_asks {m : Handling P} {r : Request P} (h : requestOf m = some r) : Asks m r := by
  unfold requestOf at h
  split at h
  case h_1 hcommand =>
    simp only [toOption_eq_some, bind_eq_ok, pure_eq_ok, Except.ok.injEq] at h
    obtain ⟨v, hv, name, hname, rq, hrq, rfl⟩ := h
    exact .register hcommand ⟨v, hv, hname⟩ hrq
  case h_2 hcommand =>
    simp only [toOption_eq_some, bind_eq_ok, pure_eq_ok, Except.ok.injEq] at h
    obtain ⟨name, hname, rfl⟩ := h
    exact .deregister hcommand hname
  case h_3 hcommand =>
    simp only [toOption_eq_some, bind_eq_ok, pure_eq_ok, Except.ok.injEq] at h
    obtain ⟨L, hread, description, hdescription, rfl⟩ := h
    exact .lookingFor hcommand hread hdescription
  case h_4 hcommand =>
    simp only [toOption_eq_some, bind_eq_ok, pure_eq_ok, Except.ok.injEq] at h
    obtain ⟨⟨rq, offer⟩, hread, rfl⟩ := h
    exact .offer hcommand hread
  case h_5 => cases h

section Maps
variable (m : Searches P) (rq : Int32)
omit [Double P]

theorem lookup_insert_eq_modifyAt (search : SearchRequest P) :
    (fun r => (m.insert rq search).lookup r) =
      modifyAt (fun r => m.lookup r) rq fun _ => some search :=
  Map.lookup_insert_eq_update m rq search

theorem lookup_offer_eq_modifyAt (now : Int) (offer : OfferInfo P) :
    (fun r => ((StoreEvent.offer rq now offer).apply m).lookup r) =
      modifyAt (fun r => m.lookup r) rq (·.map (·.join now offer)) := by
  funext r
  by_cases hr : r = rq
  · subst hr
    rw [lookup_offer, modifyAt_self]
  · rw [lookup_apply_of_ne (e := .offer rq now offer) hr, modifyAt_of_ne _ hr]

end Maps

section Handlers
variable {s s' : Server P} {m : Handling P}

/-- A handler that completes makes a step. The worker it leaves and what it sends are not
in the tables. -/
theorem handle_of_ok
    (h : dispatch m.message m.clientAddr (s.atTime m.now) = .ok () s') :
    ∃ s'', s.handle m = some s'' ∧ s''.tables = s'.tables := by
  refine ⟨(s'.finish m.message m.clientAddr).flush.1, ?_, rfl⟩
  have hclean : {s.atTime m.now with outbox := []} = s.atTime m.now := rfl
  rw [Server.handle, Server.step, hclean, h]
  rfl

/-- A new peer gets a session, and a known one is denied: his entry stays. -/
theorem handle_register (hasks : Asks m .register) :
    ∃ s', s.handle m = some s' ∧ s'.tables = s.tables.serve m.clientAddr m.now .register := by
  cases hasks with
  | register hcommand hname hrq =>
    obtain ⟨s', hs', htables⟩ := handle_of_ok (s := s) (m := m)
      ((dispatch_eq hcommand rfl).trans (handleRegister_eq hname hrq))
    refine ⟨s', hs', htables.trans ?_⟩
    split
    case isTrue hknown =>
      obtain ⟨entry, hentry⟩ := Option.isSome_iff_exists.mp hknown
      rw [Server.atTime_peerSessions] at hentry
      ext1
      · rw [Tables.serve_sessions, modifyAt_eq_self]
        · rfl
        · simp [Server.tables, Request.session, hentry]
      · rfl
      · exact (Multiset.zero_add _).symm
    case isFalse hnew =>
      ext1
      · rw [Tables.serve_sessions, modifyAt]
        have hentry : s.tables.sessions (getPeerIdentifier m.clientAddr) = none := by
          simpa [Server.tables] using hnew
        rw [hentry]
        exact Map.lookup_insert_eq_update s.peerSessions _ _
      · rfl
      · exact (Multiset.zero_add _).symm

theorem handle_deregister (hasks : Asks m .deregister) :
    ∃ s', s.handle m = some s' ∧ s'.tables = s.tables.serve m.clientAddr m.now .deregister := by
  cases hasks with
  | deregister hcommand hname =>
    obtain ⟨s', hs', htables⟩ := handle_of_ok (s := s) (m := m)
      ((dispatch_eq hcommand rfl).trans (handleDeregister_eq hname))
    refine ⟨s', hs', htables.trans ?_⟩
    ext1
    · exact Map.lookup_erase_eq_update s.peerSessions _
    · rfl
    · exact (Multiset.zero_add _).symm

theorem handle_offer {rq : Int32} {offer : OfferInfo P} (hasks : Asks m (.offer rq offer)) :
    ∃ s', s.handle m = some s' ∧
      s'.tables = s.tables.serve m.clientAddr m.now (.offer rq offer) := by
  cases hasks with
  | offer hcommand hread =>
    obtain ⟨s', hs', htables⟩ := handle_of_ok (s := s) (m := m)
      ((dispatch_eq hcommand rfl).trans (handleOffer_eq hread))
    refine ⟨s', hs', htables.trans ?_⟩
    rw [recordOffer_eq]
    ext1
    · rw [Tables.serve_sessions, modifyAt_eq_self rfl]
      rfl
    · exact lookup_offer_eq_modifyAt s.activeSearches rq m.now offer
    · exact (Multiset.zero_add _).symm

/-- A search is stored and broadcast. -/
theorem handle_search {L : LookingFor P} (hasks : Asks m (.lookingFor L)) :
    ∃ s', s.handle m = some s' ∧
      s'.tables = s.tables.serve m.clientAddr m.now (.lookingFor L) := by
  cases hasks with
  | lookingFor hcommand hread hdescription =>
    obtain ⟨s', hs', htables⟩ := handle_of_ok (s := s) (m := m)
      ((dispatch_eq hcommand rfl).trans (handleLookingFor_broadcast hread hdescription))
    refine ⟨s', hs', htables.trans ?_⟩
    ext1
    · rw [Tables.serve_sessions, modifyAt_eq_self rfl]
      rfl
    · exact lookup_insert_eq_modifyAt s.activeSearches L.rq L.request
    · exact (Multiset.coe_add ..).symm.trans (Multiset.add_comm ..)

/-- **A well-formed request is served**, whatever the server holds. -/
theorem handle_asks {r : Request P} (hasks : Asks m r) :
    ∃ s', s.handle m = some s' ∧ s'.tables = s.tables.serve m.clientAddr m.now r := by
  cases r with
  | register => exact handle_register hasks
  | deregister => exact handle_deregister hasks
  | offer rq offer => exact handle_offer hasks
  | lookingFor L => exact handle_search hasks

end Handlers

/-! ### Sequences of messages -/

def Tables.after (t : Tables P) (m : Handling P) : Tables P :=
  match requestOf m with
  | some r => t.serve m.clientAddr m.now r
  | none => t

theorem Tables.after_comm (t : Tables P) {m m' : Handling P} (h : Independent m m') :
    (t.after m).after m' = (t.after m').after m := by
  obtain ⟨haddr, hrq⟩ := h
  unfold Tables.after
  cases hr : requestOf m with
  | none => rfl
  | some r =>
    cases hr' : requestOf m' with
    | none => rfl
    | some r' =>
      rw [hr, hr'] at hrq
      exact t.serve_comm haddr hrq

section Sequences
variable {s s' : Server P} {ms ms' : List (Handling P)}

/-- **A sequence of well-formed messages is handled to its end**, and its effect is that
of its requests, one after another. -/
theorem handleAll_spec (hwell : ∀ m ∈ ms, (requestOf m).isSome = true) :
    ∃ s', s.handleAll ms = some s' ∧ s'.tables = ms.foldl Tables.after s.tables := by
  induction ms generalizing s with
  | nil => exact ⟨s, rfl, rfl⟩
  | cons m ms ih =>
    obtain ⟨hm, hwell⟩ := List.forall_mem_cons.mp hwell
    obtain ⟨r, hr⟩ := Option.isSome_iff_exists.mp hm
    obtain ⟨s₁, hhandle, htables⟩ := handle_asks (s := s) (requestOf_asks hr)
    have hstep : s.handleAll (m :: ms) = s₁.handleAll ms := by
      rw [Server.handleAll, List.foldlM_cons, hhandle]
      rfl
    have hafter : s.tables.after m = s₁.tables := by rw [Tables.after, hr, htables]
    rw [hstep, List.foldl_cons, hafter]
    exact ih hwell

/-- The same sessions, the same searches with their offers in order, and the same threads. -/
structure SameTables (s s' : Server P) : Prop where
  sessions : ∀ key, s.peerSessions.lookup key = s'.peerSessions.lookup key
  searches : ∀ rq, s.activeSearches.lookup rq = s'.activeSearches.lookup rq
  threads : s.timeoutThreads.Perm s'.timeoutThreads

theorem sameTables_iff : SameTables s s' ↔ s.tables = s'.tables := by
  constructor
  · intro h
    ext1
    · exact funext h.sessions
    · exact funext h.searches
    · exact Multiset.coe_eq_coe.mpr h.threads
  · intro h
    exact ⟨congrFun (congrArg Tables.sessions h), congrFun (congrArg Tables.searches h),
      Multiset.coe_eq_coe.mp (congrArg Tables.threads h)⟩

/-- Both sequences are handled to their ends, and it does not show which one was. -/
def SameOutcome (s : Server P) (ms ms' : List (Handling P)) : Prop :=
  ∃ s₁ s₂, s.handleAll ms = some s₁ ∧ s.handleAll ms' = some s₂ ∧ SameTables s₁ s₂

/-- **Independent messages commute**: from every state, two sequences of well-formed
messages that differ by swaps of independent neighbours have the same outcome. -/
theorem reordered_same_outcome (hwell : ∀ m ∈ ms, (requestOf m).isSome = true)
    (h : Reordered Independent ms ms') : SameOutcome s ms ms' := by
  have hwell' : ∀ m ∈ ms', (requestOf m).isSome = true :=
    fun m hm => hwell m (h.perm.mem_iff.mpr hm)
  obtain ⟨s₁, hs₁, htables₁⟩ := handleAll_spec (s := s) hwell
  obtain ⟨s₂, hs₂, htables₂⟩ := handleAll_spec (s := s) hwell'
  refine ⟨s₁, s₂, hs₁, hs₂, sameTables_iff.mpr ?_⟩
  rw [htables₁, htables₂]
  exact h.foldl_eq (fun t m m' hind => t.after_comm hind) s.tables

end Sequences

/-- Peer 2 leaves. -/
def goodbye : Handling Rat := ⟨(ClientMessage.deRegister 2 "peer2").toJson, loopback 5002, 1⟩

/-- Peer 1 searches. -/
def lampWanted : Handling Rat :=
  ⟨(ClientMessage.lookingFor 1 "peer1" "lamp" "old" 10).toJson, loopback 5001, 2⟩

theorem goodbye_independent : Independent goodbye lampWanted := by
  have hnumber : (requestOf goodbye).bind Request.rq? = none := by decide +kernel
  refine ⟨by decide, fun rq hrq => ?_⟩
  rw [hnumber] at hrq
  cases hrq

theorem goodbye_wellFormed : ∀ m ∈ [goodbye, lampWanted], (requestOf m).isSome = true := by
  simp only [List.forall_mem_cons, List.not_mem_nil, false_implies, implies_true, and_true]
  decide +kernel

/-- A search of peer 2, who has no session, has left a null pointer. Peer 2 leaves before
the search of peer 1 or after it. -/
theorem reordered_same_outcome_null : ∃ s tr, Run (serverMachine Rat) {} tr s ∧
    (s.peerSessions.lookup "127.0.0.1:5002").map Option.isNone = some true ∧
    SameOutcome s [goodbye, lampWanted] [lampWanted, goodbye] := by
  obtain ⟨s, tr, hrun, hnull⟩ := (serverMachine Rat).exec_view {}
    (processed (.lookingFor 1 "peer2" "lamp" "old" 10) (loopback 5002))
    (fun r => (r.1.peerSessions.lookup "127.0.0.1:5002").map Option.isNone) (v := some true)
    (by decide +kernel)
  exact ⟨s, tr, hrun, hnull,
    reordered_same_outcome goodbye_wellFormed (.one goodbye_independent)⟩

end P2PShopping
