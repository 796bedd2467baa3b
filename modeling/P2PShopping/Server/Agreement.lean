import P2PShopping.Server.StoreLog

/-! What each side understands of the other.

Encoders and parser were written apart. What arrives is the event the sender meant
for three of the client's seven messages, as far as the server has a handler for
them too, and for four of the server's six; the others are dropped. -/
namespace P2PShopping
open Collections Json Handler MessageParser Runs

variable {P : Type} [Double P]

/-! ### From the clients to the server -/

namespace ClientMessage

def type : ClientMessage P → P2PEventType
  | .register .. => .register
  | .deRegister .. => .deRegister
  | .lookingFor .. => .lookingFor
  | .negotiate .. => .negotiate
  | .accept .. => .accept
  | .refuse .. => .refuse
  | .offer .. => .offer

def command : ClientMessage P → String
  | .register .. => "REGISTER"
  | .deRegister .. => "DE_REGISTER"
  | .lookingFor .. => "LOOKING_FOR"
  | .negotiate .. => "NEGOTIATE"
  | .accept .. => "ACCEPT"
  | .refuse .. => "REFUSE"
  | .offer .. => "OFFER"

/-- The event says what the client put into the message. -/
def SaidBy (m : ClientMessage P) (event : P2PEvent P) : Prop :=
  event.type = m.type ∧
    match m with
    | .register rq name ip udpPort tcpPort =>
      event.data.requestNumber = rq ∧ event.data.senderName = name ∧ event.data.ipAddress = ip ∧
        event.data.udpPort = Int32.ofInt udpPort.toNat ∧
        event.data.tcpPort = Int32.ofInt tcpPort.toNat
    | .deRegister rq name => event.data.requestNumber = rq ∧ event.data.senderName = name
    | .lookingFor rq name itemName description maxPrice =>
      event.data.requestNumber = rq ∧ event.data.senderName = name ∧
        event.data.itemName = itemName ∧ event.data.itemDescription = description ∧
        event.data.maxPrice = maxPrice
    | .negotiate rq name itemName price | .accept rq name itemName price
    | .refuse rq name itemName price | .offer rq name itemName price =>
      event.data.requestNumber = rq ∧ event.data.senderName = name ∧
        event.data.itemName = itemName ∧ event.data.price = price

/-- The server parses the message to the event meant, and has a handler for its command. -/
def Understood (m : ClientMessage P) : Prop :=
  (∃ event, parseMessage m.toJson = some event ∧ m.SaidBy event) ∧
    ((commandHandlers (P := P)).lookup m.command).isSome = true

end ClientMessage

/-- **The server understands a client's REGISTER, LOOKING_FOR and OFFER, and nothing else.** -/
theorem client_message_understood_iff (m : ClientMessage P) :
    m.Understood ↔ m.command ∈ ["REGISTER", "LOOKING_FOR", "OFFER"] := by
  cases m with
  | register rq name ip udpPort tcpPort =>
    refine iff_of_true ⟨⟨_, ClientMessage.parse_register .., ?_⟩, rfl⟩
      (by simp [ClientMessage.command])
    exact ⟨rfl, rfl, rfl, rfl, rfl, rfl⟩
  | lookingFor rq name itemName description maxPrice =>
    refine iff_of_true ⟨⟨_, ClientMessage.parse_lookingFor .., ?_⟩, rfl⟩
      (by simp [ClientMessage.command])
    exact ⟨rfl, rfl, rfl, rfl, rfl, rfl⟩
  | offer rq name itemName price =>
    refine iff_of_true ⟨⟨_, ClientMessage.parse_offer .., ?_⟩, rfl⟩
      (by simp [ClientMessage.command])
    exact ⟨rfl, rfl, rfl, rfl, rfl⟩
  | deRegister rq name =>
    refine iff_of_false ?_ (by simp [ClientMessage.command])
    intro hunderstood
    obtain ⟨⟨event, hparse, -⟩, -⟩ := hunderstood
    rw [ClientMessage.parse_deRegister] at hparse
    cases hparse
  | negotiate rq name itemName price =>
    refine iff_of_false ?_ (by simp [ClientMessage.command])
    intro hunderstood
    obtain ⟨⟨event, hparse, -⟩, -⟩ := hunderstood
    rw [ClientMessage.parse_negotiate] at hparse
    cases hparse
  | accept rq name itemName price | refuse rq name itemName price =>
    -- They parse, but no handler is registered for them.
    refine iff_of_false ?_ (by simp [ClientMessage.command])
    intro hunderstood
    obtain ⟨-, hhandler⟩ := hunderstood
    cases hhandler

/-- A DE_REGISTER is handled, but parses to no event. -/
theorem deRegister_not_understood :
    ¬ (ClientMessage.deRegister 2 "peer1" : ClientMessage Rat).Understood := by
  intro hunderstood
  obtain ⟨⟨event, hparse, -⟩, -⟩ := hunderstood
  rw [ClientMessage.parse_deRegister] at hparse
  cases hparse

/-! ### From the server to the clients -/

namespace ServerMessage

def type : ServerMessage P → P2PEventType
  | .registered .. => .registered
  | .registerDenied .. => .registerDenied
  | .search .. => .search
  | .notAvailable .. => .notAvailable
  | .found .. => .found
  | .negotiate .. => .negotiate

/-- The event says what the server put into the message. -/
def SaidBy (m : ServerMessage P) (event : P2PEvent P) : Prop :=
  event.type = m.type ∧
    match m with
    | .registered _ => True
    | .registerDenied _ reason => event.data.reason = reason
    | .search _ itemName description =>
      event.data.itemName = itemName ∧ description = .str event.data.itemDescription
    | .notAvailable _ itemName price | .found _ itemName price =>
      event.data.itemName = itemName ∧ event.data.price = price
    | .negotiate _ itemName maxPrice =>
      event.data.itemName = itemName ∧ event.data.price = maxPrice

/-- A client parses the message to the event meant, with this request number. -/
def Understood (m : ServerMessage P) (rq : Int32) : Prop :=
  ∃ event, parseMessage m.toJson = some event ∧ event.data.requestNumber = rq ∧ m.SaidBy event

end ServerMessage

/-- The number of the request that a step answers. -/
inductive Answered (s : Server P) : ServerInput P → Int32 → Prop where
  | receive {j : Json P} {a : SockaddrIn} {rq : Int32} :
      j.Reads getInt "rq" rq → Answered s (.receive j a) rq
  | timeout {k : Nat} {rq : Int32} {started : Int} :
      s.timeoutThreads[k]? = some (rq, started) → Answered s (.timeout k) rq

theorem Answered.unique {s : Server P} {l : ServerInput P} {rq rq' : Int32} (h : Answered s l rq)
    (h' : Answered s l rq') : rq = rq' := by
  cases h with
  | receive h =>
    cases h' with
    | receive h' => exact h.unique h'
  | timeout h =>
    cases h' with
    | timeout h' =>
      rw [h] at h'
      cases h'
      rfl

/-- Every pending search is filed under its own number. -/
def KeysGood (m : Searches P) : Prop :=
  ∀ rq search, pending m rq = some search → search.requestNumber = rq

omit [Double P] in
theorem KeysGood.apply {m : Searches P} (h : KeysGood m) (e : StoreEvent P) :
    KeysGood (e.apply m) := by
  intro rq search hsearch
  cases e with
  | lookingFor L =>
    rw [pending_lookingFor] at hsearch
    split at hsearch
    case isTrue hrq =>
      cases hsearch
      exact hrq
    case isFalse => exact h rq search hsearch
  | offer r now o =>
    rw [pending_offer, Option.map_eq_some_iff] at hsearch
    obtain ⟨old, hold, rfl⟩ := hsearch
    split <;> exact h rq old hold
  | timer r =>
    rw [pending_timer] at hsearch
    split at hsearch
    case isTrue => cases hsearch
    case isFalse => exact h rq search hsearch

theorem keysGood_step {s s' : Server P} {l : ServerInput P} {sent : Sent P}
    (h : KeysGood s.activeSearches) (hstep : s.step l = some (s', sent)) :
    KeysGood s'.activeSearches := by
  rw [(store_step hstep).store]
  cases storeEvent? s l with
  | none => exact h
  | some e => exact h.apply e

theorem keysGood_run {s : Server P} {tr : List (ServerInput P × Sent P)}
    (h : Run (serverMachine P) {} tr s) : KeysGood s.activeSearches :=
  h.invariant (fun _ s => KeysGood s.activeSearches) (fun rq search h => by cases h)
    fun _ _ _ _ _ _ hgood hstep => keysGood_step hgood hstep

/-- A message that its client understands, or that none can. -/
def Decided (m : ServerMessage P) (rq : Int32) : Prop :=
  (m.Understood rq ∧ m.type ∉ [P2PEventType.registerDenied, .negotiate]) ∨
    (parseMessage m.toJson = none ∧ m.type ∈ [P2PEventType.registerDenied, .negotiate])

theorem decided_verdict (search : SearchRequest P) :
    Decided (verdict search).1 search.requestNumber := by
  unfold verdict
  split
  · exact .inl ⟨⟨_, ServerMessage.parse_notAvailable .., rfl, rfl, rfl, rfl⟩,
      by simp [ServerMessage.type]⟩
  · split
    · exact .inl ⟨⟨_, ServerMessage.parse_found .., rfl, rfl, rfl, rfl⟩,
        by simp [ServerMessage.type]⟩
    · exact .inr ⟨ServerMessage.parse_negotiate .., by simp [ServerMessage.type]⟩

/-- What a handler sends in answer to a message that printed. -/
theorem decided_receive {s s₁ : Server P} {j : Json P} {addr a : SockaddrIn} {m : ServerMessage P}
    (hprint : MessageParser.printMessage j = .ok ())
    (hhandled : Handled j addr {s with outbox := []} s₁) (hm : (m, a) ∈ s₁.outbox) :
    ∃ rq, j.Reads getInt "rq" rq ∧ Decided m rq := by
  cases hhandled with
  | @denied v _ hrq =>
    obtain ⟨n, hn⟩ := rq_of_print hprint hrq
    obtain ⟨rfl, rfl⟩ : m = _ ∧ a = _ := by simpa using hm
    exact ⟨n, ⟨v, hrq, hn⟩,
      .inr ⟨ServerMessage.parse_registerDenied .., by simp [ServerMessage.type]⟩⟩
  | @registered v _ hrq =>
    obtain ⟨n, hn⟩ := rq_of_print hprint hrq
    obtain ⟨rfl, rfl⟩ : m = _ ∧ a = _ := by simpa using hm
    exact ⟨n, ⟨v, hrq, hn⟩, .inl ⟨⟨_, ServerMessage.parse_registered hn, rfl, rfl, trivial⟩,
      by simp [ServerMessage.type]⟩⟩
  | @searched rq name item maxPrice v hcommand hrq _ _ _ hdescription =>
    obtain ⟨description, rfl⟩ := description_of_print hprint hcommand hdescription
    obtain ⟨b, -, hb⟩ : ∃ b, b ∈ recipients (getPeerIdentifier addr) s.peerSessions.entries ∧
        (.search rq item (.str description), b) = (m, a) := by simpa using hm
    obtain ⟨rfl, rfl⟩ := Prod.mk.inj hb
    exact ⟨rq, hrq, .inl ⟨⟨_, ServerMessage.parse_search .., rfl, rfl, rfl, rfl⟩,
      by simp [ServerMessage.type]⟩⟩
  | offered =>
    rw [recordOffer_eq] at hm
    cases hm
  | deregistered | ignored => cases hm

theorem decided_step {s s' : Server P} {l : ServerInput P} {sent : Sent P} {m : ServerMessage P}
    {a : SockaddrIn} (hkeys : KeysGood s.activeSearches) (hstep : s.step l = some (s', sent))
    (hm : (m, a) ∈ sent) : ∃ rq, Answered s l rq ∧ Decided m rq := by
  cases l with
  | receive j addr =>
    rcases receive_step hstep with ⟨s₁, hprint, hhandled, -, rfl⟩ | ⟨fault, -, -, -, rfl⟩
    · obtain ⟨rq, hrq, hdecided⟩ := decided_receive hprint hhandled hm
      exact ⟨rq, .receive hrq, hdecided⟩
    · cases hm
  | timeout k =>
    obtain ⟨rq, started, hthread, rfl, -⟩ := timeout_step hstep
    obtain ⟨search, hsearch, hverdict⟩ := Option.map_eq_some_iff.mp (Option.mem_toList.mp hm)
    have hdecided := decided_verdict search
    rw [hverdict, hkeys rq search hsearch] at hdecided
    exact ⟨rq, .timeout hthread, hdecided⟩
  | push k =>
    obtain ⟨rfl, -⟩ := push_step hstep
    cases hm
  | event =>
    obtain ⟨rfl, -⟩ := event_step hstep
    cases hm
  | tick d =>
    obtain ⟨rfl, -⟩ := tick_step hstep
    cases hm

/-- **A client understands what the server sends, under the number of the request it
answers, iff it is neither a REGISTER-DENIED nor a NEGOTIATE.** -/
theorem server_message_understood_iff {s s' : Server P} {tr : List (ServerInput P × Sent P)}
    {l : ServerInput P} {sent : Sent P} {m : ServerMessage P} {a : SockaddrIn}
    (h : Run (serverMachine P) {} tr s) (hstep : (serverMachine P).step s l = some (s', sent))
    (hm : (m, a) ∈ sent) :
    (∃ rq, Answered s l rq ∧ m.Understood rq) ↔
      m.type ∉ [P2PEventType.registerDenied, .negotiate] := by
  obtain ⟨rq, hanswered, ⟨hunderstood, htype⟩ | ⟨hparse, htype⟩⟩ :=
    decided_step (keysGood_run h) hstep hm
  · exact iff_of_true ⟨rq, hanswered, hunderstood⟩ htype
  · refine iff_of_false ?_ (not_not.mpr htype)
    intro hunderstood
    obtain ⟨_, -, event, hevent, -⟩ := hunderstood
    rw [hparse] at hevent
    cases hevent

/-! ### A peer that registers twice -/

def secondRegister : List (ServerInput Rat) :=
  [1, 2].map fun rq =>
    .receive (ClientMessage.register rq "peer1" "127.0.0.1" 5001 6001).toJson (loopback 5001)

/-- What the last step of an execution sends, by its type. -/
theorem last_sent (ls : List (ServerInput Rat)) (types : List (List P2PEventType))
    (type : P2PEventType)
    (h : ((serverMachine Rat).exec {} ls).map
        (fun r => r.2.map fun e => e.2.map fun d => d.1.type) = some (types ++ [[type]])) :
    ∃ s s' tr l sent m a, Run (serverMachine Rat) {} tr s ∧
      (serverMachine Rat).step s l = some (s', sent) ∧ (m, a) ∈ sent ∧ m.type = type := by
  obtain ⟨s', tr, hrun, hview⟩ := (serverMachine Rat).exec_view {} ls _ h
  obtain ⟨tr, last, rfl, -, hlast⟩ := List.map_eq_append_iff.mp hview
  obtain ⟨e, rfl, hsent⟩ := List.map_eq_singleton_iff.mp hlast
  obtain ⟨d, hd, htype⟩ := List.map_eq_singleton_iff.mp hsent
  obtain ⟨s, hfirst, hstep⟩ := hrun.last
  exact ⟨s, s', tr, e.1, e.2, d.1, d.2, hfirst, hstep, by simp [hd], htype⟩

theorem server_message_understood_iff_registered : ∃ s s' l sent m a,
    (serverMachine Rat).step s l = some (s', sent) ∧ (m, a) ∈ sent ∧
      ∃ rq, Answered s l rq ∧ m.Understood rq := by
  obtain ⟨s, s', tr, l, sent, m, a, hrun, hstep, hm, htype⟩ :=
    last_sent (secondRegister.take 1) [] .registered (by decide +kernel)
  exact ⟨s, s', l, sent, m, a, hstep, hm,
    (server_message_understood_iff hrun hstep hm).mpr (by simp [htype])⟩

/-- The second answer is a REGISTER-DENIED, which its client drops. -/
theorem registerDenied_not_understood : ∃ s s' tr l sent m a,
    Run (serverMachine Rat) {} tr s ∧ (serverMachine Rat).step s l = some (s', sent) ∧
      (m, a) ∈ sent ∧ ¬ ∃ rq, Answered s l rq ∧ m.Understood rq := by
  obtain ⟨s, s', tr, l, sent, m, a, hrun, hstep, hm, htype⟩ :=
    last_sent secondRegister [[.registered]] .registerDenied (by decide +kernel)
  refine ⟨s, s', tr, l, sent, m, a, hrun, hstep, hm, ?_⟩
  intro hunderstood
  obtain ⟨_, -, event, hevent, -⟩ := hunderstood
  cases m with
  | registerDenied rq reason =>
    rw [ServerMessage.parse_registerDenied] at hevent
    cases hevent
  | _ => cases htype

end P2PShopping
