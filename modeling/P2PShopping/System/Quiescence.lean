import P2PShopping.Library.Progress
import P2PShopping.System.Rest

/-! Traffic dies out.

One LOOKING_FOR becomes a SEARCH to every other session, each of these may become an
OFFER, and everything that reaches the server becomes an event; a message that the server
denies or a client ignores becomes nothing. Whatever users have started therefore ends:
what a datagram can still cause is bounded by the number of peers that a broadcast can
reach (`System.toCome`), every step of the system that no user asked for uses some of it
up, in any order, and where nothing can go on, nothing is left to be done
(`traffic_dies_out`). -/
namespace P2PShopping
open Collections Json Runs

variable {P : Type} [Double P]

/-! ### Who a broadcast can reach -/

/-- A session that a broadcast sends to. -/
def reached (e : Sigma fun _ : String => Option (PeerSession P)) : Bool := e.2.isSome

def Server.audience (s : Server P) : Nat := s.peerSessions.entries.countP reached

/-- Including those whose REGISTER is on its way. -/
def System.audience (s : System P) : Nat :=
  s.server.audience + s.toServer.countP (·.1.isRegister)

theorem recipients_length (searcherId : String)
    (sessions : List (Sigma fun _ : String => Option (PeerSession P))) :
    (recipients searcherId sessions).length ≤ sessions.countP reached := by
  induction sessions with
  | nil => exact Nat.le_refl 0
  | cons entry rest ih =>
    obtain ⟨peerId, session⟩ := entry
    rw [recipients] at ih ⊢
    cases session with
    | none =>
      rw [List.filterMap_cons_none (by simp), List.countP_cons_of_neg (by simp [reached])]
      exact ih
    | some session =>
      rw [List.countP_cons_of_pos (by simp [reached])]
      by_cases hsearcher : peerId = searcherId
      · rw [List.filterMap_cons_none (by simp [hsearcher])]
        exact ih.trans (Nat.le_succ _)
      · rw [List.filterMap_cons_some (b := session.peerAddr) (by simp [hsearcher])]
        exact Nat.succ_le_succ ih

/-- An event makes no session and takes none away. -/
theorem processEvents_audience (event : P2PEvent P) (a : SockaddrIn) (s : Server P) :
    (processEvents event a s).audience = s.audience := by
  cases hlook : s.peerSessions.lookup (getPeerIdentifier a) with
  | none =>
    have hinsert := Map.countP_insert reached s.peerSessions (getPeerIdentifier a) none
    rw [Map.erase_of_lookup hlook] at hinsert
    simp only [processEvents, hlook]
    exact hinsert
  | some entry =>
    cases entry with
    | none => simp only [processEvents, hlook]
    | some session =>
      have herase := Map.countP_erase_of_lookup reached hlook
      simp only [processEvents, hlook]
      exact (Map.countP_insert reached s.peerSessions (getPeerIdentifier a) _).trans herase

/-! ### What is still to come -/

/-- What a datagram for the server can cause if a broadcast reaches `n` peers: the worker's
two steps and an answer, or the timer with its verdict and `n` searches. -/
def ClientMessage.toCome (n : Nat) : ClientMessage P → Nat
  | .lookingFor .. => 5 + 5 * n
  | _ => 4

/-- A SEARCH may be answered by an OFFER. -/
def ServerMessage.toCome : ServerMessage P → Nat
  | .search .. => 5
  | _ => 1

def System.toCome (s : System P) : Nat :=
  (s.toServer.map (·.1.toCome s.audience)).sum + (s.toClient.map (·.1.toCome)).sum +
    2 * s.server.workers.length + s.server.eventQueue.length + 2 * s.server.timeoutThreads.length

/-- The moves that nobody has to ask for. -/
def Move.own : Move P → Bool
  | .user .. => false
  | _ => true

/-- The moves that handle something. -/
def Move.working : Move P → Bool
  | .serve _ | .deliver .. | .push _ | .event | .timeout _ => true
  | _ => false

omit [Double P] in
theorem ClientMessage.toCome_mono {n n' : Nat} (h : n ≤ n') (m : ClientMessage P) :
    m.toCome n ≤ m.toCome n' := by
  cases m with
  | lookingFor =>
    show 5 + 5 * n ≤ 5 + 5 * n'
    omega
  | register | deRegister | negotiate | accept | refuse | offer => exact Nat.le_refl 4

omit [Double P] in
/-- Fewer peers to reach, less to come. -/
theorem toServer_mono {n n' : Nat} (h : n ≤ n') (l : List (ClientMessage P × SockaddrIn)) :
    (l.map (·.1.toCome n)).sum ≤ (l.map (·.1.toCome n')).sum :=
  sum_map_le (fun d => d.1.toCome_mono h) l

/-! ### One move -/

section Move
variable {s s' : System P}

/-- It is enough to weigh what a move leaves by the peers that could be reached before it. -/
theorem toCome_of_audience {c : Nat} (haudience : s'.audience ≤ s.audience)
    (h : (s'.toServer.map (·.1.toCome s.audience)).sum + (s'.toClient.map (·.1.toCome)).sum +
      2 * s'.server.workers.length + s'.server.eventQueue.length +
      2 * s'.server.timeoutThreads.length + c ≤ s.toCome) : s'.toCome + c ≤ s.toCome := by
  have hmono := toServer_mono haudience s'.toServer
  rw [System.toCome]
  omega

theorem served_audience {k : Nat} {m : ClientMessage P} {a : SockaddrIn} {server : Server P}
    {sent : Sent P} (hm : s.toServer[k]? = some (m, a))
    (hserved : Served s.server a m server sent) :
    server.audience + (s.toServer.eraseIdx k).countP (·.1.isRegister) ≤ s.audience := by
  have htaken := countP_eraseIdx hm (·.1.isRegister)
  rw [System.audience]
  cases hserved with
  | denied | searched | offered | negotiated | accepted | refused =>
    show s.server.audience + _ ≤ _
    omega
  | registered hnew =>
    have hinsert := Map.countP_insert reached s.server.peerSessions (getPeerIdentifier a)
      (some {peerAddr := a})
    rw [Map.erase_of_lookup hnew] at hinsert
    have hone : (s.server.peerSessions.insert (getPeerIdentifier a)
        (some {peerAddr := a})).entries.countP reached = s.server.audience + 1 := hinsert
    show (s.server.peerSessions.insert (getPeerIdentifier a)
      (some {peerAddr := a})).entries.countP reached + _ ≤ _
    have hregister : (s.toServer.eraseIdx k).countP (·.1.isRegister) + 1 =
      s.toServer.countP (·.1.isRegister) := htaken
    omega
  | deregistered =>
    have herase := Map.countP_erase_le reached s.server.peerSessions (getPeerIdentifier a)
    show (s.server.peerSessions.erase (getPeerIdentifier a)).entries.countP reached + _ ≤
      s.server.peerSessions.entries.countP reached + _
    omega

/-- What a served datagram causes is less than what it could have caused. -/
theorem served_toCome {m : ClientMessage P} {a : SockaddrIn} {server : Server P} {sent : Sent P}
    (hserved : Served s.server a m server sent) :
    (sent.map (·.1.toCome)).sum + 2 * server.workers.length + server.eventQueue.length +
      2 * server.timeoutThreads.length + 1 ≤
    m.toCome s.audience + 2 * s.server.workers.length + s.server.eventQueue.length +
      2 * s.server.timeoutThreads.length := by
  cases hserved with
  | denied =>
    simp only [Server.took, List.length_append, List.length_singleton, List.map_singleton,
      List.sum_singleton, ServerMessage.toCome, ClientMessage.toCome]
    omega
  | registered =>
    simp only [Server.took, Server.setSession, List.length_append, List.length_singleton,
      List.map_singleton, List.sum_singleton, ServerMessage.toCome, ClientMessage.toCome]
    omega
  | deregistered | offered | negotiated | accepted | refused =>
    simp only [Server.took, List.length_append, List.length_singleton, List.map_nil,
      List.sum_nil, ClientMessage.toCome]
    omega
  | @searched rq name item description maxPrice =>
    have hreached := recipients_length (getPeerIdentifier a) s.server.peerSessions.entries
    have haudience : s.server.peerSessions.entries.countP reached ≤ s.audience :=
      Nat.le_add_right _ _
    have hsearches : (((recipients (getPeerIdentifier a) s.server.peerSessions.entries).map
        ((ServerMessage.search rq item (.str description) : ServerMessage P), ·)).map
          (·.1.toCome)).sum =
        (recipients (getPeerIdentifier a) s.server.peerSessions.entries).length * 5 := by
      simp [Function.comp_def, ServerMessage.toCome]
    simp only [Server.took, List.length_append, List.length_singleton, hsearches,
      ClientMessage.toCome]
    omega

theorem push_toCome {server server' : Server P} {k : Nat} {sent : Sent P}
    (h : server.step (.push k) = some (server', sent)) :
    sent = [] ∧ server'.audience = server.audience ∧
      2 * server'.workers.length + server'.eventQueue.length +
        2 * server'.timeoutThreads.length + 1 ≤
      2 * server.workers.length + server.eventQueue.length + 2 * server.timeoutThreads.length := by
  simp only [Server.step] at h
  split at h
  case h_1 => cases h
  case h_2 j a hworker =>
    have hlength : (server.workers.eraseIdx k).length + 1 = server.workers.length := by
      rw [List.length_eraseIdx_of_lt (List.getElem?_eq_some_iff.mp hworker).1]
      have hlt := (List.getElem?_eq_some_iff.mp hworker).1
      omega
    unfold pushEvent at h
    split at h
    case h_1 event =>
      cases h
      refine ⟨rfl, rfl, ?_⟩
      simp only [List.length_append, List.length_singleton]
      omega
    case h_2 =>
      cases h
      refine ⟨rfl, rfl, ?_⟩
      simp only
      omega

theorem event_toCome {server server' : Server P} {sent : Sent P}
    (h : server.step .event = some (server', sent)) :
    sent = [] ∧ server'.audience = server.audience ∧
      2 * server'.workers.length + server'.eventQueue.length +
        2 * server'.timeoutThreads.length + 1 ≤
      2 * server.workers.length + server.eventQueue.length + 2 * server.timeoutThreads.length := by
  simp only [Server.step] at h
  split at h
  case h_1 => cases h
  case h_2 event a rest hqueue =>
    have haudience := processEvents_audience event a {server with eventQueue := rest, outbox := []}
    obtain ⟨sessions, machine, hprocessed, -⟩ :=
      processEvents_spec event a {server with eventQueue := rest, outbox := []}
    rw [hprocessed] at h haudience
    cases h
    refine ⟨rfl, haudience, ?_⟩
    simp only [hqueue, List.length_cons]
    omega

theorem verdict_toCome (search : SearchRequest P) : (verdict search).1.toCome = 1 := by
  unfold verdict
  split
  · rfl
  · split
    · rfl
    · rfl

theorem timeout_toCome {server server' : Server P} {k : Nat} {sent : Sent P}
    (h : server.step (.timeout k) = some (server', sent)) :
    server'.audience = server.audience ∧
      (sent.map (·.1.toCome)).sum + 2 * server'.workers.length + server'.eventQueue.length +
        2 * server'.timeoutThreads.length + 1 ≤
      2 * server.workers.length + server.eventQueue.length + 2 * server.timeoutThreads.length := by
  obtain ⟨rq, started, hthread, rfl, rfl⟩ := timeout_step h
  refine ⟨rfl, ?_⟩
  have hlt := (List.getElem?_eq_some_iff.mp hthread).1
  have hlength := List.length_eraseIdx_of_lt hlt
  have hverdict : (((pending server.activeSearches rq).map verdict).toList.map
      (·.1.toCome)).sum ≤ 1 := by
    cases pending server.activeSearches rq with
    | none => exact Nat.zero_le 1
    | some search =>
      simp only [Option.map_some, Option.toList_some, List.map_singleton, List.sum_singleton,
        verdict_toCome, Nat.le_refl]
  simp only [hlength]
  omega

/-- Only a SEARCH is answered, and by an OFFER. -/
theorem received_toCome (n : Nat) {c c' : P2PClient P} {m : ServerMessage P}
    {reply : Option (ClientMessage P)} (h : Received c m c' reply) :
    (reply.toList.map (·.toCome n)).sum + 1 ≤ m.toCome ∧
      reply.toList.countP (·.isRegister) = 0 := by
  cases h with
  | registered | found => exact ⟨Nat.le_refl 1, rfl⟩
  | offer => exact ⟨Nat.le_refl 5, rfl⟩
  | ignored =>
    refine ⟨?_, rfl⟩
    cases m with
    | search => exact Nat.le_add_left 1 4
    | registered | registerDenied | notAvailable | found | negotiate => exact Nat.le_refl 1

/-- **A move that no user asked for uses up some of what is still to come.** -/
theorem toCome_step {l : Move P} {log : Log P} (h : (network P).step s l = some (s', log))
    (hown : l.own = true) : s'.toCome + (if l.working then 1 else 0) ≤ s.toCome := by
  change s.step l = some (s', log) at h
  cases l with
  | user a op sent => cases hown
  | serve k =>
    simp only [System.step] at h
    split at h
    case h_1 => cases h
    case h_2 m a hm =>
      obtain ⟨server, sent, hserver, rfl, -⟩ := System.serverStep_eq_some h
      have hserved := receive_served hserver
      have htaken := sum_map_eraseIdx hm (·.1.toCome s.audience)
      simp only at htaken
      have hless := served_toCome (s := s) hserved
      refine toCome_of_audience (served_audience hm hserved) ?_
      simp only [List.map_append, List.sum_append, System.toCome, Move.working, if_true]
      omega
  | deliver k sent =>
    simp only [System.step] at h
    split at h
    case h_1 => cases h
    case h_2 m a hm =>
      cases h
      have htaken := sum_map_eraseIdx hm (·.1.toCome)
      simp only at htaken
      obtain ⟨hreply, hfew⟩ := received_toCome s.audience ((s.clients a).handle_received sent m)
      refine toCome_of_audience ?_ ?_
      · simp only [System.audience, List.countP_append, List.countP_map, Function.comp_def, hfew,
          Nat.add_zero, Nat.le_refl]
      · simp only [List.map_append, List.sum_append, List.map_map, Function.comp_def,
          System.toCome, Move.working, if_true]
        omega
  | loseUp k =>
    cases h
    have htaken := sum_map_eraseIdx_le s.toServer k (·.1.toCome s.audience)
    have hfewer := countP_eraseIdx_le s.toServer k (·.1.isRegister)
    refine toCome_of_audience ?_ ?_
    · simp only [System.audience]
      omega
    · simp only [System.toCome, Move.working, Bool.false_eq_true, if_false]
      omega
  | loseDown k =>
    cases h
    have htaken := sum_map_eraseIdx_le s.toClient k (·.1.toCome)
    refine toCome_of_audience (Nat.le_refl _) ?_
    simp only [System.toCome, Move.working, Bool.false_eq_true, if_false]
    omega
  | push k =>
    obtain ⟨server, sent, hserver, rfl, -⟩ := System.serverStep_eq_some h
    obtain ⟨rfl, haudience, hless⟩ := push_toCome hserver
    refine toCome_of_audience ?_ ?_
    · simp only [System.audience, haudience, Nat.le_refl]
    · simp only [List.append_nil, System.toCome, Move.working, if_true]
      omega
  | event =>
    obtain ⟨server, sent, hserver, rfl, -⟩ := System.serverStep_eq_some h
    obtain ⟨rfl, haudience, hless⟩ := event_toCome hserver
    refine toCome_of_audience ?_ ?_
    · simp only [System.audience, haudience, Nat.le_refl]
    · simp only [List.append_nil, System.toCome, Move.working, if_true]
      omega
  | timeout k =>
    obtain ⟨server, sent, hserver, rfl, -⟩ := System.serverStep_eq_some h
    obtain ⟨haudience, hless⟩ := timeout_toCome hserver
    refine toCome_of_audience ?_ ?_
    · simp only [System.audience, haudience, Nat.le_refl]
    · simp only [List.map_append, List.sum_append, System.toCome, Move.working, if_true]
      omega
  | tick d =>
    simp only [System.step] at h
    obtain ⟨server, sent, hserver, rfl, -⟩ := System.serverStep_eq_some h
    obtain ⟨rfl, rfl⟩ := tick_step hserver
    refine toCome_of_audience (Nat.le_refl _) ?_
    simp only [List.append_nil, System.toCome, Move.working, Bool.false_eq_true, if_false,
      Nat.add_zero, Nat.le_refl]

end Move

/-! ### The end of it -/

theorem atRest_iff {s : System P} : s.atRest = true ↔ s.toServer = [] ∧ s.toClient = [] ∧
    s.server.workers = [] ∧ s.server.eventQueue = [] ∧ s.server.timeoutThreads = [] := by
  simp [System.atRest, and_assoc]

/-- The server takes every message of a client. -/
theorem receive_goes (s : Server P) (m : ClientMessage P) (a : SockaddrIn) :
    ∃ r, s.step (.receive m.toJson a) = some r := by
  cases m with
  | register rq name ip udpPort tcpPort => simp [Server.step, dispatch_register]
  | deRegister rq name => simp [Server.step, dispatch_deRegister]
  | lookingFor rq name item description maxPrice => simp [Server.step, dispatch_lookingFor]
  | offer rq name item price => simp [Server.step, dispatch_offer]
  | negotiate rq name item price => exact ⟨_, rfl⟩
  | accept rq name item price => exact ⟨_, rfl⟩
  | refuse rq name item price => exact ⟨_, rfl⟩

theorem serverStep_goes {s : System P} {input : ServerInput P} {log : Log P}
    (h : ∃ r, s.server.step input = some r) : ∃ r, s.serverStep input log = some r := by
  obtain ⟨⟨server, down⟩, hstep⟩ := h
  exact ⟨_, by simp only [System.serverStep, hstep]; rfl⟩

/-- As long as something is to be done, some move can do it. -/
theorem works_on {s : System P} (h : ¬ s.atRest = true) :
    ∃ l s' log, l.own = true ∧ l.working = true ∧ (network P).step s l = some (s', log) := by
  have hgo : ∀ l : Move P, l.own = true → l.working = true → (∃ r, s.step l = some r) →
      ∃ l s' log, l.own = true ∧ l.working = true ∧ (network P).step s l = some (s', log) := by
    intro l hown hworking hstep
    obtain ⟨⟨s', log⟩, hstep⟩ := hstep
    exact ⟨l, s', log, hown, hworking, hstep⟩
  cases hclient : s.toClient with
  | cons d rest => exact hgo (.deliver 0 true) rfl rfl ⟨_, by simp only [System.step, hclient]; rfl⟩
  | nil =>
    cases hworkers : s.server.workers with
    | cons w rest =>
      exact hgo (.push 0) rfl rfl
        (serverStep_goes ⟨_, by simp only [Server.step, hworkers]; rfl⟩)
    | nil =>
      cases hevents : s.server.eventQueue with
      | cons e rest =>
        exact hgo .event rfl rfl (serverStep_goes ⟨_, by simp only [Server.step, hevents]; rfl⟩)
      | nil =>
        cases hthreads : s.server.timeoutThreads with
        | cons t rest =>
          exact hgo (.timeout 0) rfl rfl
            (serverStep_goes ⟨_, by simp only [Server.step, hthreads]; rfl⟩)
        | nil =>
          cases hserver : s.toServer with
          | cons d rest =>
            refine hgo (.serve 0) rfl rfl ?_
            simp only [System.step, hserver]
            exact serverStep_goes (receive_goes s.server d.1 d.2)
          | nil => exact absurd (atRest_iff.mpr ⟨hserver, hclient, hworkers, hevents, hthreads⟩) h

/-- At rest nothing can be done. -/
theorem rest_stuck {s : System P} (h : s.atRest = true) {l : Move P} (hl : l.working = true) :
    (network P).step s l = none := by
  obtain ⟨htoServer, htoClient, hworkers, hevents, hthreads⟩ := atRest_iff.mp h
  have hserver : ∀ {input : ServerInput P} {log : Log P}, s.server.step input = none →
      s.serverStep input log = none := by
    intro input log hnone
    simp only [System.serverStep, hnone]
  cases l with
  | user | loseUp | loseDown | tick => cases hl
  | serve k =>
    show s.step (.serve k) = none
    simp only [System.step, htoServer, List.getElem?_nil]
  | deliver k sent =>
    show s.step (.deliver k sent) = none
    simp only [System.step, htoClient, List.getElem?_nil]
  | push k => exact hserver (by simp only [Server.step, hworkers, List.getElem?_nil])
  | event => exact hserver (by simp only [Server.step, hevents])
  | timeout k => exact hserver (by simp only [Server.step, hthreads, List.getElem?_nil])

/-- No user does anything. -/
def Unasked (s : System P) (tr : List (Move P × Log P)) : Prop :=
  StepsMeet (network P) (fun _ l => l.own = true) s tr

variable (P) in
def dyingOut : Potential (network P) fun _ l => l.own = true where
  inv _ := True
  size := System.toCome
  cost e := if e.1.working then 1 else 0
  step := fun _ hown hstep => ⟨trivial, toCome_step hstep hown⟩

/-- **Whatever users have started comes to an end.** From every state of the system, in
every order, with or without losses: without further commands the system handles no more
than `toCome` datagrams, events and timers; it can go on until nothing is on its way,
queued or pending; and it is stuck just then. -/
theorem traffic_dies_out (s : System P) :
    (∃ tr s', Run (network P) s tr s' ∧ Unasked s tr ∧ s'.atRest = true) ∧
      ∀ tr s', Run (network P) s tr s' → Unasked s tr →
        s'.toCome + tr.countP (·.1.working) ≤ s.toCome ∧
          ((∀ l, l.working = true → (network P).step s' l = none) ↔ s'.atRest = true) := by
  constructor
  · refine (dyingOut P).ends (·.atRest = true) ?_ trivial
    intro s _ hbusy
    obtain ⟨l, s', log, hown, hworking, hstep⟩ := works_on hbusy
    refine ⟨l, s', log, hown, hstep, ?_⟩
    simp [dyingOut, hworking]
  · intro tr s' hrun hunasked
    constructor
    · have htotal := ((dyingOut P).total trivial hrun hunasked).2
      have hcount := (dyingOut P).count_le (·.1.working)
        (fun e he => by simp [dyingOut, he]) tr
      show (dyingOut P).size s' + _ ≤ (dyingOut P).size s
      omega
    · refine ⟨fun hstuck => ?_, fun hrest l hl => rest_stuck hrest hl⟩
      by_contra hbusy
      obtain ⟨l, s'', log, -, hworking, hstep⟩ := works_on hbusy
      rw [hstuck l hworking] at hstep
      cases hstep

end P2PShopping
