import P2PShopping.Library.Simulation
import P2PShopping.Server.Congruence
import P2PShopping.Server.Windows
import P2PShopping.Wire.Schema

/-! Copies of an OFFER.

UDP may deliver a datagram twice. A second REGISTER is denied and a second DE_REGISTER
finds nothing, but an OFFER is appended to the offers of its search as often as it comes,
and each copy has a worker that pushes an event of its own. Nobody notices: the copy is
not cheaper than the original and stands behind it, so the first minimum is where it was,
and its event changes no session that a handler looks at. Whatever the threads do after a
copy, the server without it can do the same and sends the same (`copy_unnoticed`), unless
a new search with the number has been stored between the two, or the seller leaves before
the event: then that leaves a null pointer. -/
namespace P2PShopping
open Collections Json Handler Runs

variable {P : Type} [Double P]

/-! ### Searches with repeated offers -/

/-- The same search, with some of its offers repeated. -/
structure SearchRequest.Repeated (search search' : SearchRequest P) : Prop where
  rest : search' = {search with offers := search'.offers}
  offers : Repeats search.offers search'.offers

section Repeated
variable {search search' : SearchRequest P} {offer : OfferInfo P} {now : Int}

omit [Double P] in
theorem SearchRequest.Repeated.refl (search : SearchRequest P) : search.Repeated search :=
  ⟨rfl, .refl _⟩

omit [Double P] in
theorem SearchRequest.Repeated.join (h : search.Repeated search') (now : Int)
    (offer : OfferInfo P) : (search.join now offer).Repeated (search'.join now offer) := by
  obtain ⟨offers', rfl⟩ : ∃ offers', search' = {search with offers := offers'} := ⟨_, h.rest⟩
  by_cases hopen : search.offersProcessed = false ∧ now - search.startTime < minute
  · rw [SearchRequest.join, if_pos hopen, SearchRequest.join, if_pos hopen]
    exact ⟨rfl, h.offers.snoc⟩
  · rw [SearchRequest.join, if_neg hopen, SearchRequest.join, if_neg hopen]
    exact h

omit [Double P] in
/-- An offer that is there already, if the search is open, may be made again. -/
theorem SearchRequest.repeated_join
    (h : search.offersProcessed = false → now - search.startTime < minute → offer ∈ search.offers) :
    search.Repeated (search.join now offer) := by
  by_cases hopen : search.offersProcessed = false ∧ now - search.startTime < minute
  · rw [SearchRequest.join, if_pos hopen]
    exact ⟨rfl, (Repeats.refl _).again (h hopen.1 hopen.2)⟩
  · rw [SearchRequest.join, if_neg hopen]
    exact .refl _

theorem SearchRequest.Repeated.verdict_eq (h : search.Repeated search') :
    verdict search' = verdict search := by
  obtain ⟨offers', rfl⟩ : ∃ offers', search' = {search with offers := offers'} := ⟨_, h.rest⟩
  rw [verdict, verdict, h.offers.argmin_eq]

end Repeated

/-- What is under a number, with offers repeated. -/
abbrev RepeatedEntry : Option (SearchRequest P) → Option (SearchRequest P) → Prop :=
  Option.Rel SearchRequest.Repeated

section Entry
variable {entry entry' : Option (SearchRequest P)}

omit [Double P] in
theorem RepeatedEntry.refl (entry : Option (SearchRequest P)) : RepeatedEntry entry entry := by
  cases entry with
  | none => exact .none
  | some search => exact .some (.refl search)

omit [Double P] in
theorem RepeatedEntry.join (h : RepeatedEntry entry entry') (now : Int) (offer : OfferInfo P) :
    RepeatedEntry (entry.map (·.join now offer)) (entry'.map (·.join now offer)) := by
  cases h with
  | none => exact .none
  | some h => exact .some (h.join now offer)

omit [Double P] in
theorem RepeatedEntry.timed (h : RepeatedEntry entry entry') :
    RepeatedEntry (timed entry) (timed entry') := by
  cases h with
  | none => exact .none
  | @some search search' h =>
    obtain ⟨offers', rfl⟩ : ∃ offers', search' = {search with offers := offers'} := ⟨_, h.rest⟩
    have hnil : offers' = [] ↔ search.offers = [] := h.offers.eq_nil_iff
    simp only [P2PShopping.timed, Option.bind_some, hnil]
    split_ifs
    · exact .some h
    · exact .none
    · exact .some ⟨rfl, h.offers⟩

theorem RepeatedEntry.verdicts (h : RepeatedEntry entry entry') :
    (entry'.filter fun search => !search.offersProcessed).map verdict =
      (entry.filter fun search => !search.offersProcessed).map verdict := by
  cases h with
  | none => rfl
  | @some search search' h =>
    have hprocessed : search'.offersProcessed = search.offersProcessed := by rw [h.rest]
    cases hopen : search.offersProcessed with
    | true => simp [Option.filter, hprocessed, hopen]
    | false => simp [Option.filter, hprocessed, hopen, h.verdict_eq]

end Entry

section Store
variable {m m' : Searches P}
omit [Double P]

/-- Whatever happens to the searches, repeated offers stay no more than that. -/
theorem repeated_apply (h : ∀ rq, RepeatedEntry (m.lookup rq) (m'.lookup rq)) (e : StoreEvent P)
    (rq : Int32) : RepeatedEntry ((e.apply m).lookup rq) ((e.apply m').lookup rq) := by
  by_cases hrq : rq = e.number
  case neg =>
    rw [lookup_apply_of_ne hrq, lookup_apply_of_ne hrq]
    exact h rq
  case pos =>
    subst hrq
    cases e with
    | lookingFor L =>
      rw [StoreEvent.number, StoreEvent.apply, StoreEvent.apply, AList.lookup_insert,
        AList.lookup_insert]
      exact .refl _
    | offer rq now offer =>
      rw [StoreEvent.number, lookup_offer, lookup_offer]
      exact (h rq).join now offer
    | timer rq =>
      rw [StoreEvent.number, lookup_timer, lookup_timer]
      exact (h rq).timed

theorem repeated_pending [Double P] (h : ∀ rq, RepeatedEntry (m.lookup rq) (m'.lookup rq))
    (rq : Int32) : (pending m' rq).map verdict = (pending m rq).map verdict :=
  (h rq).verdicts

end Store

/-! ### An offer that has been made -/

/-- The search, if an offer could still join it at that time, has been made this one. -/
def Heard (offer : OfferInfo P) (now : Int) (entry : Option (SearchRequest P)) : Prop :=
  ∀ search ∈ entry, search.offersProcessed = false → now - search.startTime < minute →
    offer ∈ search.offers

section Heard
variable {s s' : Server P} {l : ServerInput P} {sent : Sent P} {rq : Int32} {offer : OfferInfo P}
  {now later : Int} {entry : Option (SearchRequest P)} {tr : List (ServerInput P × Sent P)}

omit [Double P] in
/-- It has, if the offer came while it was open. -/
theorem heard_of_join (hlater : now ≤ later) :
    Heard offer later (entry.map (·.join now offer)) := by
  intro search hsearch hopen htime
  obtain ⟨search, rfl, rfl⟩ := Option.map_eq_some_iff.mp hsearch
  unfold SearchRequest.join at hopen htime ⊢
  split at hopen
  case isTrue hjoins =>
    rw [if_pos hjoins]
    exact List.mem_append_right _ (List.mem_singleton_self offer)
  case isFalse hout =>
    rw [if_neg hout] at htime
    exact absurd ⟨hopen, by omega⟩ hout

omit [Double P] in
theorem Heard.join (h : Heard offer later entry) (other : OfferInfo P) :
    Heard offer later (entry.map (·.join now other)) := by
  intro search hsearch hopen htime
  obtain ⟨search, hentry, rfl⟩ := Option.map_eq_some_iff.mp hsearch
  unfold SearchRequest.join at hopen htime ⊢
  split at hopen
  case isTrue hjoins =>
    rw [if_pos hjoins] at htime ⊢
    exact List.mem_append_left _ (h search hentry hopen htime)
  case isFalse hout =>
    rw [if_neg hout] at htime ⊢
    exact h search hentry hopen htime

omit [Double P] in
theorem heard_timed : Heard offer later (timed entry) := by
  intro search hsearch hopen
  obtain ⟨search, -, htimed⟩ := Option.bind_eq_some_iff.mp hsearch
  split_ifs at htimed with hprocessed
  · cases htimed
    rw [hprocessed] at hopen
    cases hopen
  · cases htimed
    cases hopen

omit [Double P] in
theorem Heard.apply {m : Searches P} {e : StoreEvent P} (h : Heard offer later (m.lookup rq))
    (hnew : ∀ L, e = .lookingFor L → L.rq ≠ rq) : Heard offer later ((e.apply m).lookup rq) := by
  by_cases hrq : rq = e.number
  case neg =>
    rw [lookup_apply_of_ne hrq]
    exact h
  case pos =>
    subst hrq
    cases e with
    | lookingFor L => exact absurd rfl (hnew L rfl)
    | offer rq now other =>
      rw [StoreEvent.number, lookup_offer]
      exact h.join other
    | timer rq =>
      rw [StoreEvent.number, lookup_timer]
      exact heard_timed

/-- The step stores no search with this number. -/
def keepsSearch (rq : Int32) (s : Server P) (l : ServerInput P) : Bool :=
  match storeEvent? s l with
  | some (.lookingFor L) => L.rq ≠ rq
  | _ => true

theorem heard_step (h : Heard offer later (s.activeSearches.lookup rq))
    (hkeeps : keepsSearch rq s l = true) (hstep : s.step l = some (s', sent)) :
    Heard offer later (s'.activeSearches.lookup rq) := by
  rw [(store_step hstep).store]
  cases hevent : storeEvent? s l with
  | none => exact h
  | some e =>
    refine h.apply fun L hL => ?_
    simpa [keepsSearch, hevent, hL] using hkeeps

theorem heard_run (h : Heard offer later (s.activeSearches.lookup rq))
    (hrun : Run (serverMachine P) s tr s')
    (hkeeps : StepsMeet (serverMachine P) (keepsSearch rq · ·) s tr) :
    Heard offer later (s'.activeSearches.lookup rq) :=
  hrun.invariant_of (keepsSearch rq · ·)
    (fun _ s => Heard offer later (s.activeSearches.lookup rq)) h
    (fun _ _ _ _ _ _ hheard hC hstep => heard_step hheard hC hstep) hkeeps

/-- The server once a worker has handled this OFFER. -/
def Server.offered (s : Server P) (j : Json P) (a : SockaddrIn) (rq : Int32)
    (offer : OfferInfo P) : Server P :=
  {s with
    activeSearches := (StoreEvent.offer rq s.clock offer).apply s.activeSearches
    workers := s.workers ++ [(j, a)]
    outbox := []}

/-- An OFFER moves nothing but its search, and sends nothing. -/
theorem offer_step {j : Json P} {a : SockaddrIn} (hoffer : offerOf j a = some (rq, offer)) :
    s.step (.receive j a) = some (s.offered j a rq offer, []) := by
  obtain ⟨hcommand, hread⟩ := offerOf_eq_some.mp hoffer
  rw [Server.step, dispatch_eq hcommand rfl, handleOffer_eq hread, recordOffer_eq]
  rfl

end Heard

/-! ### A server with a copy and the server without it -/

/-- What handlers see of a peer's entry. -/
def Server.contact (s : Server P) (peerId : String) : Option (Option SockaddrIn) :=
  (s.peerSessions.lookup peerId).map (Option.map PeerSession.peerAddr)

/-- Where the copy is in the second server: with its worker, in the queue as an event, or
processed. -/
inductive CopyAt (j : Json P) (a : SockaddrIn) (workers workers' : List (Json P × SockaddrIn))
    (queue queue' : List (P2PEvent P × SockaddrIn)) : Prop where
  | held : workers'.Perm ((j, a) :: workers) → queue' = queue →
      CopyAt j a workers workers' queue queue'
  | queued {event : P2PEvent P} {front back : List (P2PEvent P × SockaddrIn)} :
      event.type = .offer → workers'.Perm workers → queue = front ++ back →
      queue' = front ++ (event, a) :: back → CopyAt j a workers workers' queue queue'
  | processed : workers'.Perm workers → queue' = queue → CopyAt j a workers workers' queue queue'

/-- The second server has had a copy of the OFFER `j` of `a`, and the first has not. -/
structure Copied (j : Json P) (a : SockaddrIn) (s t : Server P) : Prop where
  contacts : ∀ peerId, s.contact peerId = t.contact peerId
  threads : s.timeoutThreads = t.timeoutThreads
  clock : s.clock = t.clock
  searches : ∀ rq, RepeatedEntry (s.activeSearches.lookup rq) (t.activeSearches.lookup rq)
  copy : CopyAt j a s.workers t.workers s.eventQueue t.eventQueue

section Contacts
variable {s t : Server P} {peerId : String} {session : Option (PeerSession P)}

theorem contact_setSession : (s.setSession peerId session).contact =
    Function.update s.contact peerId (some (session.map PeerSession.peerAddr)) := by
  funext key
  rw [Server.contact, Server.setSession_peerSessions,
    congrFun (Map.lookup_insert_eq_update s.peerSessions peerId session) key,
    Function.update_apply, Function.update_apply]
  split_ifs <;> rfl

theorem contact_eraseSession :
    ({s with peerSessions := s.peerSessions.erase peerId} : Server P).contact =
      Function.update s.contact peerId none := by
  funext key
  rw [Server.contact, congrFun (Map.lookup_erase_eq_update s.peerSessions peerId) key,
    Function.update_apply, Function.update_apply]
  split_ifs <;> rfl

/-- A broadcast reaches the same addresses, in some order. -/
theorem recipients_perm (h : ∀ peerId, s.contact peerId = t.contact peerId) (searcherId : String) :
    (recipients searcherId s.peerSessions.entries).Perm
      (recipients searcherId t.peerSessions.entries) := by
  have hrecipients : ∀ s : Server P, recipients searcherId s.peerSessions.entries =
      (s.peerSessions.entries.map fun e => (e.1, e.2.map PeerSession.peerAddr)).filterMap
        fun e => if e.1 ≠ searcherId then e.2 else none := by
    intro s
    rw [List.filterMap_map]
    rfl
  rw [hrecipients s, hrecipients t]
  exact (Map.perm_map_entries (Option.map PeerSession.peerAddr) h).filterMap _

end Contacts

section Copied
variable {j : Json P} {a : SockaddrIn} {s t : Server P}

/-- A copy shows in nothing a handler does, but for the order of a broadcast. -/
theorem congruent_copied : Congruent fun s t => Copied j a s t ∧ s.outbox.Perm t.outbox where
  clock h := h.1.clock
  known h peerId := by
    simpa [Server.contact] using congrArg Option.isSome (h.1.contacts peerId)
  send message addr h := ⟨{h.1 with}, h.2.append_right _⟩
  broadcast searcherId message h :=
    ⟨{h.1 with}, h.2.append ((recipients_perm h.1.contacts searcherId).map _)⟩
  setSession peerId session h := by
    refine ⟨{h.1 with contacts := congrFun ?_}, h.2⟩
    rw [contact_setSession, contact_setSession, funext h.1.contacts]
  eraseSession peerId h := by
    refine ⟨{h.1 with contacts := congrFun ?_}, h.2⟩
    rw [contact_eraseSession, contact_eraseSession, funext h.1.contacts]
  detach rq h := by
    refine ⟨{h.1 with threads := ?_}, h.2⟩
    rw [Server.detach_timeoutThreads, Server.detach_timeoutThreads, h.1.threads, h.1.clock]
  setSearch search rq h := by
    refine ⟨{h.1 with searches := fun k => ?_}, h.2⟩
    by_cases hk : k = rq
    · subst hk
      simp only [Server.setSearch_activeSearches, AList.lookup_insert]
      exact .refl _
    · simp only [Server.setSearch_activeSearches, AList.lookup_insert_ne hk]
      exact h.1.searches k
  recordOffer rq offer h := by
    rw [recordOffer_eq, recordOffer_eq]
    refine ⟨{h.1 with searches := ?_}, h.2⟩
    simp only [h.1.clock]
    exact repeated_apply h.1.searches _

/-! ### Where the copy goes -/

section CopyAt
variable {workers workers' : List (Json P × SockaddrIn)}
  {queue queue' rest' : List (P2PEvent P × SockaddrIn)}

theorem CopyAt.handled (h : CopyAt j a workers workers' queue queue') (w : Json P × SockaddrIn) :
    CopyAt j a (workers ++ [w]) (workers' ++ [w]) queue queue' := by
  cases h with
  | held hworkers hqueue => exact .held (hworkers.append_right [w]) hqueue
  | queued htype hworkers hqueue hqueue' =>
    exact .queued htype (hworkers.append_right [w]) hqueue hqueue'
  | processed hworkers hqueue => exact .processed (hworkers.append_right [w]) hqueue

/-- A worker that pushes has the copy, or works for both. -/
theorem CopyAt.pushed {k : Nat} {w : Json P × SockaddrIn}
    (h : CopyAt j a workers workers' queue queue') (hk : workers'[k]? = some w) :
    (w = (j, a) ∧ (workers'.eraseIdx k).Perm workers ∧ queue' = queue) ∨
      ∃ k', workers[k']? = some w ∧ ∀ events, CopyAt j a (workers.eraseIdx k')
        (workers'.eraseIdx k) (queue ++ events) (queue' ++ events) := by
  cases h with
  | held hworkers hqueue =>
    subst hqueue
    have htaken := (perm_eraseIdx hk).trans hworkers
    -- Of two workers with the same message, either may be said to have the copy.
    by_cases hw : w = (j, a)
    · subst hw
      exact .inl ⟨rfl, htaken.cons_inv, rfl⟩
    · have hmem := (List.mem_cons.mp (htaken.mem_iff.mp (List.mem_cons_self ..))).resolve_left hw
      obtain ⟨k', hk'⟩ := List.mem_iff_getElem?.mp hmem
      refine .inr ⟨k', hk', fun events => .held ?_ rfl⟩
      refine (htaken.trans ?_).cons_inv
      exact ((perm_eraseIdx hk').symm.cons (j, a)).trans (.swap w (j, a) _)
  | @queued event front back htype hworkers hqueue hqueue' =>
    obtain ⟨k', hk', hrest⟩ := perm_take hworkers hk
    subst hqueue hqueue'
    exact .inr ⟨k', hk', fun events => .queued htype hrest (List.append_assoc ..) (by simp)⟩
  | processed hworkers hqueue =>
    obtain ⟨k', hk', hrest⟩ := perm_take hworkers hk
    subst hqueue
    exact .inr ⟨k', hk', fun events => .processed hrest rfl⟩

/-- The event that is popped is that of the copy, or one of both. -/
theorem CopyAt.popped {event : P2PEvent P} {b : SockaddrIn}
    (h : CopyAt j a workers workers' queue ((event, b) :: rest')) :
    (event.type = .offer ∧ b = a ∧ CopyAt j a workers workers' queue rest') ∨
      ∃ rest, queue = (event, b) :: rest ∧ CopyAt j a workers workers' rest rest' := by
  cases h with
  | held hworkers hqueue => exact .inr ⟨rest', hqueue.symm, .held hworkers rfl⟩
  | @queued copied front back htype hworkers hqueue hqueue' =>
    cases front with
    | nil =>
      cases hqueue'
      exact .inl ⟨htype, rfl, .processed hworkers hqueue.symm⟩
    | cons first front =>
      obtain ⟨rfl, rfl⟩ := List.cons.inj hqueue'
      exact .inr ⟨front ++ back, hqueue, .queued htype hworkers rfl rfl⟩
  | processed hworkers hqueue => exact .inr ⟨rest', hqueue.symm, .processed hworkers rfl⟩

end CopyAt

end Copied

/-! ### One step -/

section Taken
variable {s : Server P} {k : Nat} {m : Json P} {a : SockaddrIn}

theorem push_taken (h : s.workers[k]? = some (m, a)) :
    s.step (.push k) = some ({s with
      workers := s.workers.eraseIdx k
      eventQueue := s.eventQueue ++ ((MessageParser.parseMessage m).map (·, a)).toList
      outbox := []}, []) := by
  simp only [Server.step, h, pushEvent]
  cases MessageParser.parseMessage m with
  | none => simp [Server.flush]
  | some event => rfl

theorem timeout_taken {rq : Int32} {started : Int} (h : s.timeoutThreads[k]? = some (rq, started)) :
    s.step (.timeout k) = some ({s with
      timeoutThreads := s.timeoutThreads.eraseIdx k
      activeSearches := (StoreEvent.timer rq).apply s.activeSearches
      outbox := []}, ((pending s.activeSearches rq).map verdict).toList) := by
  simp only [Server.step, h, processOffersAfterTimeout_eq]
  rfl

/-- An event leaves its sender an entry, and everybody's address as it was. -/
theorem event_taken {event : P2PEvent P} {rest : List (P2PEvent P × SockaddrIn)}
    (h : s.eventQueue = (event, a) :: rest) :
    ∃ sessions machine, s.step .event = some ({s with
        peerSessions := sessions
        serverStateMachine := machine
        eventQueue := rest
        outbox := []}, []) ∧
      ∀ key, (sessions.lookup key).map (Option.map PeerSession.peerAddr) =
        if key = getPeerIdentifier a then some (s.contact key).join else s.contact key := by
  obtain ⟨sessions, machine, hevent, hlookup⟩ :=
    processEvents_spec event a {s with eventQueue := rest, outbox := []}
  refine ⟨sessions, machine, by simp only [Server.step, h, hevent]; rfl, fun key => ?_⟩
  rw [hlookup, visited]
  split_ifs with hkey
  · show some _ = some (Option.join (Option.map _ (s.peerSessions.lookup key)))
    rcases s.peerSessions.lookup key with - | - | session <;> rfl
  · rfl

end Taken

/-- What is seen of a step: a datagram that is handled, a timer or the time that passes,
and what is sent. A push and an event send nothing. -/
def visible : ServerInput P × Sent P → Option (ServerInput P × Sent P)
  | (.push _, _) => none
  | (.event, _) => none
  | e => some e

/-- The same, but for the order of what is sent. -/
def SameStep (e e' : ServerInput P × Sent P) : Prop := e.1 = e'.1 ∧ e.2.Perm e'.2

/-- An OFFER event of `a` is processed only while `a` has an entry. -/
def sellerKnown (a : SockaddrIn) (s : Server P) : ServerInput P → Bool
  | .event =>
    match s.eventQueue with
    | (event, b) :: _ =>
      event.type ≠ .offer || b ≠ a || (s.peerSessions.lookup (getPeerIdentifier a)).isSome
    | [] => true
  | _ => true

theorem offer_event {j : Json P} {a : SockaddrIn} {r : Int32 × OfferInfo P} {event : P2PEvent P}
    (hoffer : offerOf j a = some r) (hparse : MessageParser.parseMessage j = some event) :
    event.type = .offer := by
  obtain ⟨-, v, hv, hget⟩ := commandOf_eq_some.mp (offerOf_eq_some.mp hoffer).1
  rw [getString_eq_ok] at hget
  subst hget
  have hmember := index_eq_ok.mp hv
  cases j with
  | obj members =>
    obtain ⟨hschema, -⟩ := readMessage_schema.mp (parseMessage_eq_some.mp hparse)
    obtain ⟨word, hword, hlookup⟩ := hschema.command
    rw [hmember] at hword
    cases hword
    exact (Option.some.inj hlookup).symm
  | _ => cases hmember

section Step
variable {j : Json P} {a : SockaddrIn} {s t t' : Server P} {sent : Sent P}

/-- The server without the copy answers a step with a step or with none. -/
def Answers (j : Json P) (a : SockaddrIn) (s t' : Server P) (e : ServerInput P × Sent P) : Prop :=
  ∃ e' s', (serverMachine P).Does s s' e' ∧ Copied j a s' t' ∧
    Option.Rel SameStep (visible e) (e'.bind visible)

theorem Copied.receive (h : Copied j a s t) {m : Json P} {b : SockaddrIn}
    (hstep : t.step (.receive m b) = some (t', sent)) : Answers j a s t' (.receive m b, sent) := by
  have hsame := congruent_copied.dispatch m b {s with outbox := []} {t with outbox := []}
    ⟨{h with}, .refl _⟩
  simp only [Server.step] at hstep
  generalize hs : dispatch m b {s with outbox := []} = result,
    dispatch m b {t with outbox := []} = result' at hsame hstep
  cases hsame with
  | @ok _ s₁ t₁ h₁ =>
    cases hstep
    have htaken : s.step (.receive m b) = some (s₁.finish m b).flush := by
      simp only [Server.step, hs]
    exact ⟨some (.receive m b, s₁.outbox), _, htaken, {h₁.1 with copy := h₁.1.copy.handled _},
      .some ⟨rfl, h₁.2.symm⟩⟩
  | @error fault s₁ t₁ h₁ =>
    simp only at hstep
    split_ifs at hstep with hcaught
    cases hstep
    have htaken : s.step (.receive m b) = some s₁.flush := by
      simp only [Server.step, hs, hcaught, if_true]
    exact ⟨some (.receive m b, s₁.outbox), _, htaken, {h₁.1 with}, .some ⟨rfl, h₁.2.symm⟩⟩

theorem Copied.push (hoffer : (offerOf j a).isSome = true) (h : Copied j a s t) {k : Nat}
    (hstep : t.step (.push k) = some (t', sent)) : Answers j a s t' (.push k, sent) := by
  cases hk : t.workers[k]? with
  | none =>
    simp only [Server.step, hk] at hstep
    cases hstep
  | some w =>
    obtain ⟨m, b⟩ := w
    rw [push_taken hk] at hstep
    cases hstep
    rcases h.copy.pushed hk with ⟨hown, hworkers, hqueue⟩ | ⟨k', hk', hcopy⟩
    · -- The worker has the copy, whose event is now the last in the queue.
      cases hown
      refine ⟨none, s, rfl, {h with copy := ?_}, .none⟩
      cases hparse : MessageParser.parseMessage j with
      | none => exact .processed hworkers (by simp [hqueue])
      | some event =>
        obtain ⟨r, hr⟩ := Option.isSome_iff_exists.mp hoffer
        exact .queued (offer_event hr hparse) hworkers (List.append_nil _).symm (by simp [hqueue])
    · exact ⟨some (.push k', []), _, push_taken hk', {h with copy := hcopy _}, .none⟩

theorem Copied.event (h : Copied j a s t) (hknown : sellerKnown a t .event = true)
    (hstep : t.step .event = some (t', sent)) : Answers j a s t' (.event, sent) := by
  cases hqueue : t.eventQueue with
  | nil =>
    simp only [Server.step, hqueue] at hstep
    cases hstep
  | cons first rest =>
    obtain ⟨event, b⟩ := first
    obtain ⟨sessions, machine, ht, hcontact⟩ := event_taken hqueue
    rw [ht] at hstep
    cases hstep
    have hcopy := h.copy
    rw [hqueue] at hcopy
    rcases hcopy.popped with ⟨htype, rfl, hcopy⟩ | ⟨rest', hqueue', hcopy⟩
    · -- The event of the copy: its sender has an entry, which keeps its address.
      refine ⟨none, s, rfl, {h with contacts := fun key => ?_, copy := hcopy}, .none⟩
      refine (h.contacts key).trans (Eq.trans ?_ (hcontact key).symm)
      split_ifs with hkey
      · subst hkey
        have hentry : (t.peerSessions.lookup (getPeerIdentifier b)).isSome = true := by
          simpa [sellerKnown, hqueue, htype] using hknown
        obtain ⟨entry, hentry⟩ := Option.isSome_iff_exists.mp hentry
        simp [Server.contact, hentry]
      · rfl
    · obtain ⟨sessions', machine', hs, hcontact'⟩ := event_taken hqueue'
      refine ⟨some (.event, []), _, hs, {h with contacts := fun key => ?_, copy := hcopy}, .none⟩
      refine (hcontact' key).trans (Eq.trans ?_ (hcontact key).symm)
      rw [h.contacts]

theorem Copied.timeout (h : Copied j a s t) {k : Nat}
    (hstep : t.step (.timeout k) = some (t', sent)) : Answers j a s t' (.timeout k, sent) := by
  cases hk : t.timeoutThreads[k]? with
  | none =>
    simp only [Server.step, hk] at hstep
    cases hstep
  | some thread =>
    obtain ⟨rq, started⟩ := thread
    rw [timeout_taken hk, repeated_pending h.searches] at hstep
    cases hstep
    refine ⟨some (.timeout k, _), _, timeout_taken (h.threads ▸ hk), {h with
      threads := ?_, searches := repeated_apply h.searches _}, .some ⟨rfl, .refl _⟩⟩
    simp only [h.threads]

theorem Copied.tick (h : Copied j a s t) {d : Nat} (hstep : t.step (.tick d) = some (t', sent)) :
    Answers j a s t' (.tick d, sent) := by
  cases hstep
  refine ⟨some (.tick d, []), _, rfl, {h with clock := ?_}, .some ⟨rfl, .refl _⟩⟩
  simp only [h.clock]

end Step

/-- **The server with a copy is simulated by the server without it.** -/
def withoutCopy (j : Json P) (a : SockaddrIn) (hoffer : (offerOf j a).isSome = true) :
    WeakSimulation (serverMachine P) (serverMachine P) (ServerInput P × Sent P) where
  related t s := Copied j a s t
  guard := (sellerKnown a · ·)
  seen := visible
  seen' := visible
  agree := SameStep
  step {t t' s l sent} h hknown hstep := by
    cases l with
    | receive m b => exact h.receive hstep
    | push k => exact h.push hoffer hstep
    | event => exact h.event hknown hstep
    | timeout k => exact h.timeout hstep
    | tick d => exact h.tick hstep

section Copy
variable {j : Json P} {a : SockaddrIn} {rq : Int32} {offer : OfferInfo P}
  {s s₀ s₁ t t₀ t₁ : Server P} {sent sent' : Sent P}
  {between after : List (ServerInput P × Sent P)}

/-- What has been heard can be heard again. -/
theorem copied_of_heard (hoffer : offerOf j a = some (rq, offer))
    (hheard : Heard offer s.clock (s.activeSearches.lookup rq))
    (hstep : s.step (.receive j a) = some (t, sent)) : Copied j a s t := by
  rw [offer_step hoffer] at hstep
  cases hstep
  refine ⟨fun _ => rfl, rfl, rfl, fun k => ?_, .held (List.perm_append_singleton ..) rfl⟩
  rw [Server.offered]
  by_cases hk : k = rq
  case neg =>
    rw [lookup_apply_of_ne (e := .offer rq s.clock offer) hk]
    exact .refl _
  case pos =>
    subst hk
    rw [lookup_offer]
    cases hentry : s.activeSearches.lookup k with
    | none => exact .none
    | some search => exact .some (SearchRequest.repeated_join (hheard search hentry))

/-- **A copy of an OFFER is not noticed.** After it the server does, step by step, what it
can also do without it, and sends the same, if no search has been stored under the number
since the original and the seller has an entry whenever an OFFER event of his is
processed. -/
theorem copy_unnoticed (hoffer : offerOf j a = some (rq, offer))
    (hfirst : s₀.step (.receive j a) = some (s₁, sent))
    (hbetween : Run (serverMachine P) s₁ between t₀)
    (hkeeps : StepsMeet (serverMachine P) (keepsSearch rq · ·) s₁ between)
    (hcopy : t₀.step (.receive j a) = some (t₁, sent'))
    (hafter : Run (serverMachine P) t₁ after t)
    (hknown : StepsMeet (serverMachine P) (sellerKnown a · ·) t₁ after) :
    sent' = [] ∧ ∃ after' s, Run (serverMachine P) t₀ after' s ∧
      List.Forall₂ SameStep (after.filterMap visible) (after'.filterMap visible) := by
  have hheard : Heard offer t₀.clock (t₀.activeSearches.lookup rq) := by
    rw [offer_step hoffer] at hfirst
    cases hfirst
    refine heard_run ?_ hbetween hkeeps
    rw [Server.offered, lookup_offer]
    have hlater := clock_le_run hbetween
    exact heard_of_join hlater
  have hcopied := copied_of_heard hoffer hheard hcopy
  constructor
  · rw [offer_step hoffer] at hcopy
    cases hcopy
    rfl
  · obtain ⟨after', s, hrun, -, hsame⟩ :=
      (withoutCopy j a (by rw [hoffer]; rfl)).run hcopied hafter hknown
    exact ⟨after', s, hrun, hsame⟩

end Copy

/-- Peer 2's OFFER of a lamp. -/
def lampAtEight : Json Rat := (ClientMessage.offer 1 "peer2" "lamp" 8).toJson

/-- Both peers have registered, and peer 1 has asked for a lamp. -/
def lampSought : List (ServerInput Rat) :=
  processed (.register 1 "peer1" "127.0.0.1" 5001 6001) (loopback 5001) ++
    processed (.register 1 "peer2" "127.0.0.1" 5002 6002) (loopback 5002) ++
    processed (.lookingFor 1 "peer1" "lamp" "old" 10) (loopback 5001)

/-- Both workers push, both events are processed, and the minute is over. -/
def minuteOver : List (ServerInput Rat) :=
  [.push 0, .event, .push 0, .event, .tick 60000000000, .timeout 0]

/-- The server once it has handled that OFFER. -/
def Server.offeredLamp (s : Server Rat) : Server Rat :=
  s.offered lampAtEight (loopback 5002) 1 ⟨"peer2", 8, loopback 5002⟩

def Server.later (s : Server Rat) : Server Rat := {s with clock := s.clock + 5}

/-- The OFFER of peer 2 comes twice, and peer 1 gets one FOUND. -/
theorem copy_unnoticed_lamp : ∃ t₀ t₁ t after,
    Server.step t₀ (.receive lampAtEight (loopback 5002)) = some (t₁, []) ∧
    Run (serverMachine Rat) t₁ after t ∧
    after.map (·.2.map Prod.snd) = [[], [], [], [], [], [loopback 5001]] ∧
    ∃ after' s, Run (serverMachine Rat) t₀ after' s ∧
      List.Forall₂ SameStep (after.filterMap visible) (after'.filterMap visible) := by
  have hoffer : offerOf lampAtEight (loopback 5002) = some (1, ⟨"peer2", 8, loopback 5002⟩) := rfl
  obtain ⟨s, _, _, hview⟩ := (serverMachine Rat).exec_view {} lampSought
    (fun r => (((serverMachine Rat).exec r.1.offeredLamp.later.offeredLamp minuteOver).map
        fun q => q.2.map (·.2.map Prod.snd),
      (serverMachine Rat).execMeets (sellerKnown (loopback 5002))
        r.1.offeredLamp.later.offeredLamp minuteOver))
    (v := (some [[], [], [], [], [], [loopback 5001]], true)) (by decide +kernel)
  obtain ⟨hsent, hknown⟩ := Prod.mk.inj hview
  obtain ⟨⟨t, after⟩, hexec, hsent⟩ := Option.map_eq_some_iff.mp hsent
  have hbetween : (serverMachine Rat).exec s.offeredLamp [.tick 5] =
      some (s.offeredLamp.later, [(.tick 5, [])]) := rfl
  obtain ⟨-, hunnoticed⟩ := copy_unnoticed hoffer (offer_step hoffer) (Machine.exec_run hbetween)
    (Machine.exec_stepsMeet (C := keepsSearch 1) hbetween rfl) (offer_step hoffer)
    (Machine.exec_run hexec) (Machine.exec_stepsMeet hexec hknown)
  exact ⟨_, _, t, after, offer_step hoffer, Machine.exec_run hexec, hsent, hunnoticed⟩

end P2PShopping
