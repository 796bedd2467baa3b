import P2PShopping.Library.Runs
import P2PShopping.Server.Handlers

/-! The server as a machine.

`handleNewMessage` runs on a worker: it prints and handles the message, and only
then parses it again and pushes the event, so other workers and the event thread
can come in between. The machine keeps the two parts apart (`receive`, `push`),
and takes one step for each event the event thread processes and for each timeout
thread that wakes up. A fault the `catch` clauses do not see ends the run. -/
namespace P2PShopping
open Collections Json Handler

variable {P : Type} [Double P]

/-- The `try` block of `handleNewMessage` up to the command handler. -/
def dispatch (j : Json P) (clientAddr : SockaddrIn) : Handler P Unit := do
  lift (MessageParser.printMessage j)
  handleCommand j clientAddr

/-- The rest of it. -/
def pushEvent (j : Json P) (clientAddr : SockaddrIn) (s : Server P) : Server P :=
  match MessageParser.parseMessage j with
  | some event => {s with eventQueue := s.eventQueue ++ [(event, clientAddr)]}
  | none => s

def handleNewMessage (j : Json P) (clientAddr : SockaddrIn) : Handler P Unit := do
  dispatch j clientAddr
  modify (pushEvent j clientAddr)

/-- One round of the loop of `processEvents`, after the pop. The session is looked
up with `operator[]`, which inserts a null pointer for a peer without an entry. -/
def processEvents (event : P2PEvent P) (clientAddr : SockaddrIn) (s : Server P) : Server P :=
  let peerId := getPeerIdentifier clientAddr
  match s.peerSessions.lookup peerId with
  | none => s.setSession peerId none
  | some none => s
  | some (some session) =>
    {s with serverStateMachine := s.serverStateMachine.processEvent event}.setSession peerId
      (some {session with stateMachine := session.stateMachine.processEvent event})

inductive ServerInput (P : Type) where
  /-- A worker takes the message and runs `dispatch`. -/
  | receive (j : Json P) (clientAddr : SockaddrIn)
  /-- The `k`-th waiting worker parses its message and pushes the event. -/
  | push (k : Nat)
  /-- The event thread pops an event and processes it. -/
  | event
  /-- The `k`-th timeout thread wakes up. -/
  | timeout (k : Nat)
  /-- Time passes. -/
  | tick (d : Nat)

abbrev Sent (P : Type) := List (ServerMessage P × SockaddrIn)

namespace Server

/-- The end of a step: what it sent leaves the server. -/
def flush (s : Server P) : Server P × Sent P := ({s with outbox := []}, s.outbox)

def finish (j : Json P) (clientAddr : SockaddrIn) (s : Server P) : Server P :=
  {s with workers := s.workers ++ [(j, clientAddr)]}

def step (s : Server P) : ServerInput P → Option (Server P × Sent P)
  | .receive j clientAddr =>
    match dispatch j clientAddr {s with outbox := []} with
    | .ok _ s' => some (s'.finish j clientAddr).flush
    | .error fault s' => if fault.caught then some s'.flush else none
  | .push k =>
    match s.workers[k]? with
    | none => none
    | some (j, clientAddr) =>
      some (pushEvent j clientAddr {s with workers := s.workers.eraseIdx k, outbox := []}).flush
  | .event =>
    match s.eventQueue with
    | [] => none
    | (event, clientAddr) :: rest =>
      some (processEvents event clientAddr {s with eventQueue := rest, outbox := []}).flush
  | .timeout k =>
    match s.timeoutThreads[k]? with
    | none => none
    | some (rq, _) =>
      some (processOffersAfterTimeout rq
        {s with timeoutThreads := s.timeoutThreads.eraseIdx k, outbox := []}).flush
  | .tick d => some ({s with clock := s.clock + d}, [])

end Server

variable (P) in
def serverMachine : Runs.Machine (Server P) (ServerInput P) (Sent P) := ⟨Server.step⟩

/-! ### What a handler can do -/

/-- The addresses the broadcast reaches. -/
def recipients (searcherId : String)
    (sessions : List (Sigma fun _ : String => Option (PeerSession P))) : List SockaddrIn :=
  sessions.filterMap fun entry =>
    if entry.1 ≠ searcherId then entry.2.map PeerSession.peerAddr else none

def Server.sendAll (s : Server P) (message : ServerMessage P) (addrs : List SockaddrIn) :
    Server P :=
  {s with outbox := s.outbox ++ addrs.map (message, ·)}

section Simp
variable (s : Server P) (message : ServerMessage P) (addrs : List SockaddrIn)

@[simp] theorem Server.sendAll_peerSessions :
    (s.sendAll message addrs).peerSessions = s.peerSessions := rfl
@[simp] theorem Server.sendAll_activeSearches :
    (s.sendAll message addrs).activeSearches = s.activeSearches := rfl
@[simp] theorem Server.sendAll_timeoutThreads :
    (s.sendAll message addrs).timeoutThreads = s.timeoutThreads := rfl
@[simp] theorem Server.sendAll_outbox :
    (s.sendAll message addrs).outbox = s.outbox ++ addrs.map (message, ·) := rfl

end Simp

/-- A broadcast goes through all sessions, and sends to those that are no null pointers. -/
theorem broadcast_eq (searcherId : String) (message : ServerMessage P)
    (sessions : List (Sigma fun _ : String => Option (PeerSession P))) (s : Server P) :
    broadcast searcherId message sessions s =
      .ok () (s.sendAll message (recipients searcherId sessions)) := by
  induction sessions generalizing s with
  | nil =>
    show EStateM.Result.ok () s = _
    simp [Server.sendAll, recipients]
  | cons entry rest ih =>
    obtain ⟨peerId, session⟩ := entry
    simp only [broadcast]
    split
    case isTrue hne =>
      cases session with
      | none =>
        show broadcast searcherId message rest s = _
        rw [ih]
        simp [Server.sendAll, recipients]
      | some session =>
        show broadcast searcherId message rest (s.send message session.peerAddr) = _
        rw [ih]
        simp [Server.sendAll, Server.send, recipients, hne]
    case isFalse heq =>
      rw [ih]
      simp [Server.sendAll, recipients, not_not.mp heq]

theorem broadcast_ok {searcherId : String} {message : ServerMessage P}
    {sessions : List (Sigma fun _ : String => Option (PeerSession P))} {s s' : Server P}
    (h : broadcast searcherId message sessions s = .ok () s') :
    s' = s.sendAll message (recipients searcherId sessions) := by
  rw [broadcast_eq] at h
  cases h
  rfl

/-- The request `handleLookingFor` stores. -/
def newSearch (rq : Int32) (name item : String) (maxPrice : P) (addr : SockaddrIn) (now : Int) :
    SearchRequest P :=
  { requestNumber := rq, searcherName := name, itemName := item, maxPrice
    searcherAddr := addr, startTime := now }

theorem handleRegister_ok {j : Json P} {addr : SockaddrIn} {s s' : Server P}
    (h : handleRegister j addr s = .ok () s') :
    ∃ rq, j.index "rq" = .ok rq ∧
      (((s.peerSessions.lookup (getPeerIdentifier addr)).isSome = true ∧
          s' = s.send (.registerDenied rq "Peer already registered") addr) ∨
        (s.peerSessions.lookup (getPeerIdentifier addr) = none ∧
          s' = (s.setSession (getPeerIdentifier addr) (some {peerAddr := addr})).send
            (.registered rq) addr)) := by
  simp only [handleRegister, bind_ok, readKey_ok, get_ok] at h
  obtain ⟨_, _, ⟨_, rfl⟩, _, _, ⟨rfl, rfl⟩, h⟩ := h
  split at h
  case isTrue hknown =>
    simp only [bind_ok, readKey_ok, sendToClient, modify_ok] at h
    obtain ⟨rq, _, ⟨⟨_, hrq, hv⟩, rfl⟩, rfl⟩ := h
    cases hv
    exact ⟨rq, hrq, .inl ⟨hknown, rfl⟩⟩
  case isFalse hnew =>
    simp only [bind_ok, readKey_ok, sendToClient, modify_ok] at h
    obtain ⟨_, _, rfl, rq, _, ⟨⟨_, hrq, hv⟩, rfl⟩, rfl⟩ := h
    cases hv
    exact ⟨rq, hrq, .inr ⟨by simpa using hnew, rfl⟩⟩

theorem handleDeregister_ok {j : Json P} {addr : SockaddrIn} {s s' : Server P}
    (h : handleDeregister j addr s = .ok () s') :
    s' = {s with peerSessions := s.peerSessions.erase (getPeerIdentifier addr)} := by
  simp only [handleDeregister, bind_ok, readKey_ok, modify_ok] at h
  obtain ⟨_, _, rfl, _, _, ⟨_, rfl⟩, h⟩ := h
  exact (pure_ok.mp h).2

theorem handleLookingFor_ok {j : Json P} {addr : SockaddrIn} {s s' : Server P}
    (h : handleLookingFor j addr s = .ok () s') :
    ∃ rq name item maxPrice description, j.Reads getInt "rq" rq ∧ j.Reads getString "name" name ∧
      j.Reads getString "item_name" item ∧ j.Reads getDouble "max_price" maxPrice ∧
      j.index "description" = .ok description ∧
      s' = ((s.detach rq).setSearch (newSearch rq name item maxPrice addr s.clock) rq).sendAll
        (.search rq item description)
        (recipients (getPeerIdentifier addr) s.peerSessions.entries) := by
  simp only [handleLookingFor, bind_ok, readKey_ok, get_ok, modify_ok] at h
  obtain ⟨rq, _, ⟨hrq, rfl⟩, item, _, ⟨hitem, rfl⟩, maxPrice, _, ⟨hmax, rfl⟩, name, _,
    ⟨hname, rfl⟩, _, _, ⟨rfl, rfl⟩, _, _, rfl, _, _, rfl, description, _,
    ⟨⟨_, hdescription, hv⟩, rfl⟩, _, _, ⟨rfl, rfl⟩, h⟩ := h
  cases hv
  exact ⟨rq, name, item, maxPrice, description, hrq, hname, hitem, hmax, hdescription,
    broadcast_ok h⟩

theorem handleOffer_ok {j : Json P} {addr : SockaddrIn} {s s' : Server P}
    (h : handleOffer j addr s = .ok () s') :
    ∃ rq name item price, j.Reads getInt "rq" rq ∧ j.Reads getString "name" name ∧
      j.Reads getString "item_name" item ∧ j.Reads getDouble "price" price ∧
      s' = recordOffer rq ⟨name, price, addr⟩ s := by
  simp only [handleOffer, bind_ok, readKey_ok, modify_ok] at h
  obtain ⟨rq, _, ⟨hrq, rfl⟩, name, _, ⟨hname, rfl⟩, item, _, ⟨hitem, rfl⟩, price, _,
    ⟨hprice, rfl⟩, rfl⟩ := h
  exact ⟨rq, name, item, price, hrq, hname, hitem, hprice, rfl⟩

/-- The states in which `handleCommand` can complete, one constructor for each way
through the handlers. -/
inductive Handled (j : Json P) (addr : SockaddrIn) (s : Server P) : Server P → Prop where
  | denied {rq : Json P} : j.Reads getString "command" "REGISTER" → j.index "rq" = .ok rq →
      (s.peerSessions.lookup (getPeerIdentifier addr)).isSome = true →
      Handled j addr s (s.send (.registerDenied rq "Peer already registered") addr)
  | registered {rq : Json P} : j.Reads getString "command" "REGISTER" → j.index "rq" = .ok rq →
      s.peerSessions.lookup (getPeerIdentifier addr) = none →
      Handled j addr s
        ((s.setSession (getPeerIdentifier addr) (some {peerAddr := addr})).send
          (.registered rq) addr)
  | deregistered : j.Reads getString "command" "DE_REGISTER" →
      Handled j addr s {s with peerSessions := s.peerSessions.erase (getPeerIdentifier addr)}
  | searched {rq : Int32} {name item : String} {maxPrice : P} {description : Json P} :
      j.Reads getString "command" "LOOKING_FOR" → j.Reads getInt "rq" rq →
      j.Reads getString "name" name → j.Reads getString "item_name" item →
      j.Reads getDouble "max_price" maxPrice → j.index "description" = .ok description →
      Handled j addr s
        (((s.detach rq).setSearch (newSearch rq name item maxPrice addr s.clock) rq).sendAll
          (.search rq item description)
          (recipients (getPeerIdentifier addr) s.peerSessions.entries))
  | offered {rq : Int32} {name item : String} {price : P} :
      j.Reads getString "command" "OFFER" → j.Reads getInt "rq" rq →
      j.Reads getString "name" name → j.Reads getString "item_name" item →
      j.Reads getDouble "price" price →
      Handled j addr s (recordOffer rq ⟨name, price, addr⟩ s)
  | ignored {command : String} : j.Reads getString "command" command →
      command ∉ ["REGISTER", "DE_REGISTER", "LOOKING_FOR", "OFFER"] → Handled j addr s s

/-- Which handler a command word finds. -/
theorem commandHandlers_cases {command : String} {handler : Json P → SockaddrIn → Handler P Unit}
    (h : commandHandlers.lookup command = some handler) :
    (command = "REGISTER" ∧ handler = handleRegister) ∨
    (command = "DE_REGISTER" ∧ handler = handleDeregister) ∨
    (command = "LOOKING_FOR" ∧ handler = handleLookingFor) ∨
    (command = "OFFER" ∧ handler = handleOffer) := by
  obtain ⟨front, back, hsplit, -⟩ := List.lookup_eq_some_iff.mp h
  have hmem : (command, handler) ∈ commandHandlers (P := P) := by simp [hsplit]
  simpa [commandHandlers] using hmem

/-! ### What a caught exception leaves -/

theorem readKey_pure_not_caught {α : Type} {get : Json P → Except Fault α} {j : Json P}
    {key key' : String} {a : α} {fault : Fault} {s s' : Server P} (hread : j.Reads get key a)
    (h : readKey j key' pure s = .error fault s') : fault.caught = false := by
  obtain ⟨herr | ⟨v, -, hv⟩, -⟩ := readKey_error.mp h
  · exact index_not_caught hread herr
  · cases hv

section Caught
variable {j : Json P} {addr : SockaddrIn} {s s' : Server P} {fault : Fault} {command : String}

/-- A REGISTER faults at its name, or for good. -/
theorem handleRegister_error (hcommand : j.Reads getString "command" command)
    (hcaught : fault.caught = true) (h : handleRegister j addr s = .error fault s') :
    s' = s ∧ ∃ v, j.index "name" = .ok v ∧ getString v = .error fault := by
  simp only [handleRegister, bind_error, readKey_ok, readKey_error, get_ok, get_error,
    false_or] at h
  rcases h with ⟨herr | hname, rfl⟩ | ⟨_, _, ⟨_, rfl⟩, _, _, ⟨rfl, rfl⟩, h⟩
  · rw [index_not_caught hcommand herr] at hcaught
    cases hcaught
  · exact ⟨rfl, hname⟩
  · exfalso
    split at h
    · rcases bind_error.mp h with h | ⟨_, _, _, h⟩
      · rw [readKey_pure_not_caught hcommand h] at hcaught
        cases hcaught
      · cases h
    · rcases bind_error.mp h with h | ⟨_, _, _, h⟩
      · cases h
      · rcases bind_error.mp h with h | ⟨_, _, _, h⟩
        · rw [readKey_pure_not_caught hcommand h] at hcaught
          cases hcaught
        · cases h

theorem handleDeregister_error (hcommand : j.Reads getString "command" command)
    (h : handleDeregister j addr s = .error fault s') : fault.caught = false := by
  rcases bind_error.mp h with h | ⟨_, _, _, h⟩
  · cases h
  · rcases bind_error.mp h with h | ⟨_, _, _, h⟩
    · exact readKey_pure_not_caught hcommand h
    · cases h

theorem handleLookingFor_error (hcommand : j.Reads getString "command" command)
    (hcaught : fault.caught = true) (h : handleLookingFor j addr s = .error fault s') :
    s' = s := by
  simp only [handleLookingFor, bind_error, readKey_ok, get_ok, modify_ok, get_error,
    modify_error, false_or] at h
  rcases h with h | ⟨_, _, ⟨_, rfl⟩, h | ⟨_, _, ⟨_, rfl⟩, h | ⟨_, _, ⟨_, rfl⟩, h |
    ⟨_, _, ⟨_, rfl⟩, _, _, ⟨rfl, rfl⟩, _, _, rfl, _, _, rfl, h | ⟨_, _, ⟨_, rfl⟩, _, _,
    ⟨rfl, rfl⟩, h⟩⟩⟩⟩⟩
  · exact (readKey_error.mp h).2
  · exact (readKey_error.mp h).2
  · exact (readKey_error.mp h).2
  · exact (readKey_error.mp h).2
  · rw [readKey_pure_not_caught hcommand h] at hcaught
    cases hcaught
  · rw [broadcast_eq] at h
    cases h

theorem handleOffer_error (h : handleOffer j addr s = .error fault s') : s' = s := by
  simp only [handleOffer, bind_error, readKey_ok, modify_error] at h
  rcases h with h | ⟨_, _, ⟨_, rfl⟩, h | ⟨_, _, ⟨_, rfl⟩, h | ⟨_, _, ⟨_, rfl⟩, h |
    ⟨_, _, ⟨_, rfl⟩, ⟨⟩⟩⟩⟩⟩
  all_goals exact (readKey_error.mp h).2

end Caught

theorem handleCommand_ok {j : Json P} {addr : SockaddrIn} {s s' : Server P}
    (h : handleCommand j addr s = .ok () s') : Handled j addr s s' := by
  simp only [handleCommand, bind_ok, readKey_ok] at h
  obtain ⟨command, _, ⟨hcommand, rfl⟩, h⟩ := h
  cases hlookup : (commandHandlers (P := P)).lookup command with
  | some handler =>
    simp only [hlookup] at h
    rcases commandHandlers_cases hlookup with ⟨rfl, rfl⟩ | ⟨rfl, rfl⟩ | ⟨rfl, rfl⟩ | ⟨rfl, rfl⟩
    · obtain ⟨rq, hrq, ⟨hknown, rfl⟩ | ⟨hnew, rfl⟩⟩ := handleRegister_ok h
      · exact .denied hcommand hrq hknown
      · exact .registered hcommand hrq hnew
    · rw [handleDeregister_ok h]
      exact .deregistered hcommand
    · obtain ⟨rq, name, item, maxPrice, description, hrq, hname, hitem, hmax, hdescription, rfl⟩ :=
        handleLookingFor_ok h
      exact .searched hcommand hrq hname hitem hmax hdescription
    · obtain ⟨rq, name, item, price, hrq, hname, hitem, hprice, rfl⟩ := handleOffer_ok h
      exact .offered hcommand hrq hname hitem hprice
  | none =>
    simp only [hlookup] at h
    obtain ⟨-, rfl⟩ := pure_ok.mp h
    refine .ignored hcommand fun hmem => ?_
    simp only [List.mem_cons, List.not_mem_nil, or_false] at hmem
    rcases hmem with rfl | rfl | rfl | rfl <;> cases hlookup

theorem handleCommand_error {j : Json P} {addr : SockaddrIn} {s s' : Server P} {fault : Fault}
    (hcaught : fault.caught = true) (h : handleCommand j addr s = .error fault s') : s' = s := by
  simp only [handleCommand, bind_error, readKey_ok] at h
  rcases h with h | ⟨command, _, ⟨hcommand, rfl⟩, h⟩
  · exact (readKey_error.mp h).2
  cases hlookup : (commandHandlers (P := P)).lookup command with
  | some handler =>
    simp only [hlookup] at h
    rcases commandHandlers_cases hlookup with ⟨rfl, rfl⟩ | ⟨rfl, rfl⟩ | ⟨rfl, rfl⟩ | ⟨rfl, rfl⟩
    · exact (handleRegister_error hcommand hcaught h).1
    · rw [handleDeregister_error hcommand h] at hcaught
      cases hcaught
    · exact handleLookingFor_error hcommand hcaught h
    · exact handleOffer_error h
  | none =>
    simp only [hlookup] at h
    cases h

/-- **What `dispatch` does when it completes**: the message printed without a type
error, and one way through the handlers was taken. -/
theorem dispatch_ok {j : Json P} {addr : SockaddrIn} {s s' : Server P}
    (h : dispatch j addr s = .ok () s') :
    MessageParser.printMessage j = .ok () ∧ Handled j addr s s' := by
  simp only [dispatch, bind_ok, lift_ok] at h
  obtain ⟨_, _, ⟨hprint, rfl⟩, h⟩ := h
  exact ⟨hprint, handleCommand_ok h⟩

theorem Handled.workers {j : Json P} {addr : SockaddrIn} {s s' : Server P}
    (h : Handled j addr s s') : s'.workers = s.workers := by
  cases h with
  | @offered rq name item price =>
    unfold recordOffer
    repeat' split
    all_goals rfl
  | denied | registered | deregistered | searched | ignored => rfl

/-- What a worker pushes comes from its client. -/
theorem pushEvent_eq (j : Json P) (addr : SockaddrIn) :
    ∃ events : List (P2PEvent P × SockaddrIn), (∀ e ∈ events, e.2 = addr) ∧
      ∀ s : Server P, pushEvent j addr s = {s with eventQueue := s.eventQueue ++ events} := by
  unfold pushEvent
  cases MessageParser.parseMessage j with
  | some event => exact ⟨[(event, addr)], by simp, fun s => rfl⟩
  | none => exact ⟨[], by simp, fun s => by simp⟩

/-- With nothing in between, the two steps of a worker are `handleNewMessage`. -/
theorem handleNewMessage_steps {j : Json P} {addr : SockaddrIn} {s s' : Server P}
    (h : handleNewMessage j addr {s with outbox := []} = .ok () s') :
    ∃ s₁, s.step (.receive j addr) = some (s₁, s'.outbox) ∧
      s₁.step (.push s.workers.length) = some ({s' with outbox := []}, []) := by
  simp only [handleNewMessage, bind_ok, modify_ok] at h
  obtain ⟨_, s₂, hdispatch, rfl⟩ := h
  have hworkers : s₂.workers = s.workers := (dispatch_ok hdispatch).2.workers
  obtain ⟨events, -, hpush⟩ := pushEvent_eq j addr
  refine ⟨{s₂.finish j addr with outbox := []}, ?_, ?_⟩
  · simp only [Server.step, hdispatch, hpush]
    rfl
  · have htaken : (s.workers ++ [(j, addr)]).eraseIdx s.workers.length = s.workers := by
      rw [List.eraseIdx_append_of_length_le le_rfl, Nat.sub_self]
      exact List.append_nil _
    simp [Server.step, Server.finish, Server.flush, hworkers, hpush, htaken]

/-- **A caught exception leaves the server as it was.** -/
theorem dispatch_error {j : Json P} {addr : SockaddrIn} {s s' : Server P} {fault : Fault}
    (hcaught : fault.caught = true) (h : dispatch j addr s = .error fault s') : s' = s := by
  simp only [dispatch, bind_error, lift_error, lift_ok] at h
  rcases h with ⟨-, rfl⟩ | ⟨_, _, ⟨_, rfl⟩, h⟩
  · rfl
  · exact handleCommand_error hcaught h

end P2PShopping
