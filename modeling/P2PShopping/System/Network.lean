import P2PShopping.Client.Client
import P2PShopping.Library.Simulation
import P2PShopping.Server.Requests

/-! One server, its clients, and the network between them.

Datagrams in flight are two bags; any of them may be taken next, so the network
reorders and delays as it likes. `loseUp` and `loseDown` take a datagram that is
never handled: lost on the way, or cut off by the receive buffer and rejected by
`json::parse`. Nothing is duplicated or forged. -/
namespace P2PShopping
open Collections Json Runs

variable {P : Type} [Double P]

structure System (P : Type) [Double P] where
  server : Server P := {}
  clients : SockaddrIn → P2PClient P
  toServer : List (ClientMessage P × SockaddrIn) := []
  toClient : Sent P := []

inductive Move (P : Type) where
  | user (a : SockaddrIn) (op : UserOp P) (sent : Bool)
  /-- A worker takes the `k`-th datagram for the server. -/
  | serve (k : Nat)
  /-- The `k`-th datagram for a client is handled there. The receive loop may be in
  its last round, so the client need not be running. -/
  | deliver (k : Nat) (sent : Bool)
  | loseUp (k : Nat)
  | loseDown (k : Nat)
  | push (k : Nat)
  | event
  | timeout (k : Nat)
  | tick (d : Nat)

/-- What a move shows: the datagram the server handled, the request number of the
timeout thread that woke up, and the datagrams that were sent. -/
structure Log (P : Type) where
  served : Option (ClientMessage P × SockaddrIn) := none
  fired : Option Int32 := none
  up : List (ClientMessage P × SockaddrIn) := []
  down : Sent P := []

namespace System

/-- A client has moved on, and sent what it sent. -/
def act (s : System P) (a : SockaddrIn) (effect : P2PClient P × Option (ClientMessage P)) :
    System P × Log P :=
  let up := effect.2.toList.map (·, a)
  ({s with clients := Function.update s.clients a effect.1, toServer := s.toServer ++ up}, {up})

def serverStep (s : System P) (input : ServerInput P) (log : Log P) : Option (System P × Log P) :=
  match s.server.step input with
  | none => none
  | some (server, down) =>
    some ({s with server, toClient := s.toClient ++ down}, {log with down})

def step (s : System P) : Move P → Option (System P × Log P)
  | .user a op sent =>
    if (s.clients a).running then some (s.act a (op.run (s.clients a) sent)) else none
  | .serve k =>
    match s.toServer[k]? with
    | none => none
    | some (m, a) =>
      {s with toServer := s.toServer.eraseIdx k}.serverStep (.receive m.toJson a)
        {served := some (m, a)}
  | .deliver k sent =>
    match s.toClient[k]? with
    | none => none
    | some (m, a) =>
      some ({s with toClient := s.toClient.eraseIdx k}.act a
        ((s.clients a).handleReceivedMessage m.toJson sent))
  | .loseUp k => some ({s with toServer := s.toServer.eraseIdx k}, {})
  | .loseDown k => some ({s with toClient := s.toClient.eraseIdx k}, {})
  | .push k => s.serverStep (.push k) {}
  | .event => s.serverStep .event {}
  | .timeout k =>
    s.serverStep (.timeout k) {fired := s.server.timeoutThreads[k]?.map Prod.fst}
  | .tick d => s.serverStep (.tick d) {}

/-- The server is up and every peer has started its client. An address without a
configuration has no client: what stands there never runs. -/
def start (peers : SockaddrIn → Option ClientConfig) : System P where
  clients a :=
    match peers a with
    | some config => (P2PClient.new config).start
    | none => P2PClient.new ⟨"", 0, 0⟩

end System

variable (P) in
def network : Machine (System P) (Move P) (Log P) := ⟨System.step⟩

/-- All that clients have sent. -/
def sentUp (tr : List (Move P × Log P)) : List (ClientMessage P × SockaddrIn) :=
  tr.flatMap fun e => e.2.up

/-- All that the server has sent. -/
def sentDown (tr : List (Move P × Log P)) : Sent P := tr.flatMap fun e => e.2.down

omit [Double P] in
@[simp] theorem sentUp_snoc (tr : List (Move P × Log P)) (e : Move P × Log P) :
    sentUp (tr ++ [e]) = sentUp tr ++ e.2.up := by
  simp [sentUp]

omit [Double P] in
@[simp] theorem sentDown_snoc (tr : List (Move P × Log P)) (e : Move P × Log P) :
    sentDown (tr ++ [e]) = sentDown tr ++ e.2.down := by
  simp [sentDown]

/-- The FOUNDs among what was sent: number, item, price and buyer. -/
def founds (sent : Sent P) : List (Int32 × String × P × SockaddrIn) :=
  sent.filterMap fun
    | (.found rq item price, a) => some (rq, item, price, a)
    | _ => none

omit [Double P] in
theorem mem_founds {sent : Sent P} {rq : Int32} {item : String} {price : P} {a : SockaddrIn} :
    (rq, item, price, a) ∈ founds sent ↔ (.found rq item price, a) ∈ sent := by
  simp only [founds, List.mem_filterMap, Prod.exists]
  constructor
  · intro hfound
    obtain ⟨m, b, hmem, hm⟩ := hfound
    cases m <;> simp at hm
    obtain ⟨rfl, rfl, rfl, rfl⟩ := hm
    exact hmem
  · intro hmem
    exact ⟨_, _, hmem, rfl⟩

/-! ### A household of three, for worked runs -/

def peer1 : SockaddrIn := loopback 5001
def peer2 : SockaddrIn := loopback 5002
def peer3 : SockaddrIn := loopback 5003

def household (a : SockaddrIn) : Option ClientConfig :=
  [(peer1, ⟨"peer1", 5001, 6001⟩), (peer2, ⟨"peer2", 5002, 6002⟩),
   (peer3, ⟨"peer3", 5003, 6003⟩)].lookup a

/-- `a` registers at once. -/
def registration (a : SockaddrIn) : List (Move Rat) :=
  [.user a (.registerWithServer "127.0.0.1") true, .serve 0, .deliver 0 true]

/-- The first peer searches for a lamp, the second has one. -/
def lampSold : List (Move Rat) :=
  registration peer1 ++ registration peer2 ++
    [.user peer2 (.addItem "lamp" "old" 8) true, .user peer1 (.searchItem "lamp" "old" 10) true,
     .serve 0, .deliver 0 true, .serve 0, .tick 60000000000, .timeout 0]

/-! ### What a move can do -/

/-- One constructor for each kind of move, with the system it leaves and its log. -/
inductive Moved (s : System P) : Move P → System P → Log P → Prop where
  | acted {a : SockaddrIn} {op : UserOp P} {sent : Bool} {c : P2PClient P}
      {m : Option (ClientMessage P)} :
      (s.clients a).running = true → Acted (s.clients a) c m →
      Moved s (.user a op sent)
        {s with
          clients := Function.update s.clients a c
          toServer := s.toServer ++ m.toList.map (·, a)}
        {up := m.toList.map (·, a)}
  | served {k : Nat} {m : ClientMessage P} {a : SockaddrIn} {server : Server P} {sent : Sent P} :
      s.toServer[k]? = some (m, a) → Served s.server a m server sent →
      Moved s (.serve k)
        {s with
          server
          toServer := s.toServer.eraseIdx k
          toClient := s.toClient ++ sent}
        {served := some (m, a), down := sent}
  | delivered {k : Nat} {sent : Bool} {m : ServerMessage P} {a : SockaddrIn} {c : P2PClient P}
      {reply : Option (ClientMessage P)} :
      s.toClient[k]? = some (m, a) → Received (s.clients a) m c reply →
      (s.clients a).handleReceivedMessage m.toJson sent = (c, reply) →
      Moved s (.deliver k sent)
        {s with
          clients := Function.update s.clients a c
          toServer := s.toServer ++ reply.toList.map (·, a)
          toClient := s.toClient.eraseIdx k}
        {up := reply.toList.map (·, a)}
  | lostUp {k : Nat} : Moved s (.loseUp k) {s with toServer := s.toServer.eraseIdx k} {}
  | lostDown {k : Nat} : Moved s (.loseDown k) {s with toClient := s.toClient.eraseIdx k} {}
  | pushed {k : Nat} {events : List (P2PEvent P × SockaddrIn)} :
      (∀ e ∈ events, ∃ w ∈ s.server.workers, w.2 = e.2) →
      Moved s (.push k)
        {s with server := {s.server with
          workers := s.server.workers.eraseIdx k
          eventQueue := s.server.eventQueue ++ events
          outbox := []}}
        {}
  | visited {event : P2PEvent P} {a : SockaddrIn} {rest : List (P2PEvent P × SockaddrIn)}
      {sessions : Map String (Option (PeerSession P))}
      {machine : StateMachine ServerStateType (P2PEvent P)} :
      s.server.eventQueue = (event, a) :: rest →
      (∀ key, sessions.lookup key = visited event a (s.server.peerSessions.lookup key) key) →
      Moved s .event
        {s with server := {s.server with
          peerSessions := sessions
          serverStateMachine := machine
          eventQueue := rest
          outbox := []}}
        {}
  | fired {k : Nat} {rq : Int32} {started : Int} :
      s.server.timeoutThreads[k]? = some (rq, started) →
      Moved s (.timeout k)
        {s with
          server := {s.server with
            timeoutThreads := s.server.timeoutThreads.eraseIdx k
            activeSearches := (StoreEvent.timer rq).apply s.server.activeSearches
            outbox := []}
          toClient :=
            s.toClient ++ ((pending s.server.activeSearches rq).map verdict).toList}
        {fired := some rq, down := ((pending s.server.activeSearches rq).map verdict).toList}
  | ticked {d : Nat} :
      Moved s (.tick d) {s with server := {s.server with clock := s.server.clock + d}} {}

theorem System.serverStep_eq_some {s s' : System P} {input : ServerInput P} {log log' : Log P}
    (h : s.serverStep input log = some (s', log')) :
    ∃ server down, s.server.step input = some (server, down) ∧
      s' = {s with server, toClient := s.toClient ++ down} ∧ log' = {log with down} := by
  unfold System.serverStep at h
  cases hstep : s.server.step input with
  | none => simp [hstep] at h
  | some r =>
    rw [hstep] at h
    cases h
    exact ⟨r.1, r.2, rfl, rfl, rfl⟩

/-- **Every move is one of these.** -/
theorem step_moved {s s' : System P} {l : Move P} {log : Log P}
    (h : (network P).step s l = some (s', log)) : Moved s l s' log := by
  change s.step l = some (s', log) at h
  cases l with
  | user a op sent =>
    simp only [System.step] at h
    split at h
    case isTrue hrunning =>
      cases h
      exact .acted hrunning (op.run_acted _ sent)
    case isFalse => cases h
  | serve k =>
    simp only [System.step] at h
    split at h
    case h_1 => cases h
    case h_2 m a hm =>
      obtain ⟨server, down, hserver, rfl, rfl⟩ := System.serverStep_eq_some h
      exact .served hm (receive_served hserver)
  | deliver k sent =>
    simp only [System.step] at h
    split at h
    case h_1 => cases h
    case h_2 m a hm =>
      cases h
      exact .delivered hm ((s.clients a).handle_received sent m) rfl
  | loseUp k =>
    cases h
    exact .lostUp
  | loseDown k =>
    cases h
    exact .lostDown
  | push k =>
    obtain ⟨server, down, hserver, rfl, rfl⟩ := System.serverStep_eq_some h
    obtain ⟨rfl, events, hevents, rfl⟩ := push_step hserver
    rw [List.append_nil]
    exact .pushed hevents
  | event =>
    obtain ⟨server, down, hserver, rfl, rfl⟩ := System.serverStep_eq_some h
    obtain ⟨rfl, event, a, rest, sessions, machine, hqueue, rfl, hlookup⟩ := event_step hserver
    rw [List.append_nil]
    exact .visited hqueue hlookup
  | timeout k =>
    obtain ⟨server, down, hserver, rfl, rfl⟩ := System.serverStep_eq_some h
    obtain ⟨rq, started, hthread, rfl, rfl⟩ := timeout_step hserver
    rw [hthread]
    exact .fired hthread
  | tick d =>
    simp only [System.step] at h
    obtain ⟨server, down, hserver, rfl, rfl⟩ := System.serverStep_eq_some h
    obtain ⟨rfl, rfl⟩ := tick_step hserver
    rw [List.append_nil]
    exact .ticked

/-! ### The server in the system -/

/-- The step of the server in a move. -/
def serverView : Move P × Log P → Option (ServerInput P × Sent P)
  | (.serve _, log) => log.served.map fun d => (.receive d.1.toJson d.2, log.down)
  | (.push k, log) => some (.push k, log.down)
  | (.event, log) => some (.event, log.down)
  | (.timeout k, log) => some (.timeout k, log.down)
  | (.tick d, log) => some (.tick d, log.down)
  | (.user .., _) | (.deliver .., _) | (.loseUp _, _) | (.loseDown _, _) => none

variable (P) in
/-- The system's server is a server on its own. -/
def servers : Refinement (network P) (serverMachine P) where
  inv _ := True
  up s := s.server
  view := serverView
  step := by
    intro s s' l log _ h
    change s.step l = some (s', log) at h
    refine ⟨trivial, ?_⟩
    cases l with
    | user a op sent =>
      simp only [System.step] at h
      split at h
      case isTrue =>
        cases h
        rfl
      case isFalse => cases h
    | serve k =>
      simp only [System.step] at h
      split at h
      case h_1 => cases h
      case h_2 m a hm =>
        obtain ⟨server, down, hserver, rfl, rfl⟩ := System.serverStep_eq_some h
        exact hserver
    | deliver k sent =>
      simp only [System.step] at h
      split at h
      case h_1 => cases h
      case h_2 =>
        cases h
        rfl
    | loseUp k | loseDown k =>
      cases h
      rfl
    | push k | event | timeout k =>
      obtain ⟨server, down, hserver, rfl, rfl⟩ := System.serverStep_eq_some h
      exact hserver
    | tick d =>
      simp only [System.step] at h
      obtain ⟨server, down, hserver, rfl, rfl⟩ := System.serverStep_eq_some h
      exact hserver

theorem server_run {peers : SockaddrIn → Option ClientConfig} {s : System P}
    {tr : List (Move P × Log P)} (h : Run (network P) (System.start peers) tr s) :
    Run (serverMachine P) {} (tr.filterMap serverView) s.server :=
  ((servers P).run trivial h).2

end P2PShopping
