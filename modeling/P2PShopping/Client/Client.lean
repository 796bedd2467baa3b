import P2PShopping.Wire.Messages

/-! `P2PClient`.

A user operation and the handling of a received message each send at most one
datagram, always to the server. `sent` is what `sendto` comes to: an operation
whose datagram does not go out leaves the state as it was, but has used up its
request number, or the offer it answers. -/
namespace P2PShopping
open Json

variable {P : Type}

structure Item (P : Type) where
  name : String
  description : String
  price : P

structure Offer (P : Type) where
  requestNumber : Int32
  name : String
  description : String
  price : P

structure ClientConfig where
  name : String
  udpPort : UInt16
  tcpPort : UInt16

structure P2PClient (P : Type) where
  name : String
  udpPort : UInt16
  tcpPort : UInt16
  currentState : P2PStateType := .unregistered
  running : Bool := false
  nextRequestNumber : Int32 := 1
  inventory : List (Item P) := []
  offers : List (Offer P) := []

/-- What an operation returns, the client it leaves, and the datagram that went out. -/
structure OpResult (P : Type) where
  result : Bool
  client : P2PClient P
  datagram : Option (ClientMessage P) := none

namespace P2PClient

/-- The constructor. -/
def new (config : ClientConfig) : P2PClient P :=
  {name := config.name, udpPort := config.udpPort, tcpPort := config.tcpPort}

/-- The part of `start` before the command loop. -/
def start (c : P2PClient P) : P2PClient P := {c with running := true}

/-! ### Operations with a fresh request number -/

/-- Refused outside `required`; otherwise `message` is sent under the next request
number, and only a datagram that went out changes the state. -/
def request (c : P2PClient P) (required next : P2PStateType)
    (message : Int32 → ClientMessage P) (sent : Bool) : OpResult P :=
  if c.currentState ≠ required then {result := false, client := c}
  else
    let rq := c.nextRequestNumber
    let c := {c with nextRequestNumber := rq + 1}
    if sent then
      {result := true, client := {c with currentState := next}, datagram := some (message rq)}
    else {result := false, client := c}

def registerWithServer (c : P2PClient P) (localIp : String) (sent : Bool) : OpResult P :=
  c.request .unregistered .registering
    (fun rq => .register rq c.name localIp c.udpPort c.tcpPort) sent

def deregister (c : P2PClient P) (sent : Bool) : OpResult P :=
  c.request .registered .unregistered (fun rq => .deRegister rq c.name) sent

def searchItem (c : P2PClient P) (itemName description : String) (maxPrice : P) (sent : Bool) :
    OpResult P :=
  c.request .registered .searching
    (fun rq => .lookingFor rq c.name itemName description maxPrice) sent

/-! ### Operations on a listed offer -/

section Offers
variable [Double P]

/-- The first offer with the number must agree; it is erased before `message` is sent. -/
def answerOffer (c : P2PClient P) (requestNumber : Int32) (agrees : Offer P → Bool)
    (next : P2PStateType) (message : ClientMessage P) (sent : Bool) : OpResult P :=
  match c.offers.find? (·.requestNumber = requestNumber) with
  | none => {result := false, client := c}
  | some offer =>
    if !agrees offer then {result := false, client := c}
    else
      let c := {c with offers := c.offers.eraseP (·.requestNumber = requestNumber)}
      if sent then
        {result := true, client := {c with currentState := next}, datagram := some message}
      else {result := false, client := c}

def negotiateOffer (c : P2PClient P) (requestNumber : Int32) (itemName : String)
    (counterPrice : P) (sent : Bool) : OpResult P :=
  if c.currentState ≠ .searching ∧ c.currentState ≠ .negotiating then
    {result := false, client := c}
  else
    c.answerOffer requestNumber (·.name = itemName) .negotiating
      (.negotiate requestNumber c.name itemName counterPrice) sent

def acceptOffer (c : P2PClient P) (requestNumber : Int32) (itemName : String) (price : P)
    (sent : Bool) : OpResult P :=
  c.answerOffer requestNumber (fun offer => offer.name = itemName ∧ offer.price = price)
    c.currentState (.accept requestNumber c.name itemName price) sent

def refuseOffer (c : P2PClient P) (requestNumber : Int32) (itemName : String) (price : P)
    (sent : Bool) : OpResult P :=
  c.answerOffer requestNumber (fun offer => offer.name = itemName ∧ offer.price = price)
    c.currentState (.refuse requestNumber c.name itemName price) sent

end Offers

/-! ### Inventory -/

def addItem (c : P2PClient P) (name description : String) (price : P) : P2PClient P :=
  {c with inventory := c.inventory ++ [{name, description, price}]}

def removeItem (c : P2PClient P) (name : String) : P2PClient P :=
  {c with inventory := c.inventory.eraseP (·.name = name)}

/-- The `quit` command; whether the goodbye goes out is ignored. -/
def quit (c : P2PClient P) (sent : Bool) : P2PClient P × Option (ClientMessage P) :=
  let goodbye := if c.currentState = .registered then c.deregister sent
    else {result := false, client := c}
  ({goodbye.client with running := false}, goodbye.datagram)

/-! ### Received messages -/

variable [Double P]

/-- Only a registered peer lists offers; the item name fills the description too. -/
def handleOfferEvent (c : P2PClient P) (data : MessageData P) : P2PClient P :=
  if c.currentState ≠ .registered then c
  else
    {c with offers := c.offers ++
      [{requestNumber := data.requestNumber, name := data.itemName,
        description := data.itemName, price := data.price}]}

/-- The offer for the first inventory entry of the name, if the peer is registered. -/
def handleSearchEvent (c : P2PClient P) (data : MessageData P) (sent : Bool) :
    Option (ClientMessage P) :=
  if c.currentState ≠ .registered then none
  else
    match c.inventory.find? (·.name = data.itemName) with
    | none => none
    | some item =>
      if sent then some (.offer data.requestNumber c.name data.itemName item.price) else none

/-- The switch. ACCEPT, REFUSE and all the types without a case only print. -/
def handleReceivedMessage (c : P2PClient P) (message : Json P) (sent : Bool) :
    P2PClient P × Option (ClientMessage P) :=
  match MessageParser.parseMessage message with
  | none => (c, none)
  | some event =>
    match event.type with
    | .registered => ({c with currentState := .registered}, none)
    | .registerDenied => ({c with currentState := .unregistered}, none)
    | .search => (c, c.handleSearchEvent event.data sent)
    | .found => ({c with currentState := .registered}, none)
    | .notFound => ({c with currentState := .registered}, none)
    | .offer | .negotiate => (c.handleOfferEvent event.data, none)
    | _ => (c, none)

end P2PClient

/-! ### What the user can do -/

/-- The commands that do more than print. -/
inductive UserOp (P : Type) where
  /-- With the address `getLocalIpAddress` comes to. -/
  | registerWithServer (localIp : String)
  | deregister
  | searchItem (itemName description : String) (maxPrice : P)
  | negotiateOffer (requestNumber : Int32) (itemName : String) (counterPrice : P)
  | acceptOffer (requestNumber : Int32) (itemName : String) (price : P)
  | refuseOffer (requestNumber : Int32) (itemName : String) (price : P)
  | addItem (name description : String) (price : P)
  | removeItem (name : String)
  | quit

variable [Double P]

def OpResult.effect (o : OpResult P) : P2PClient P × Option (ClientMessage P) :=
  (o.client, o.datagram)

def UserOp.run (op : UserOp P) (c : P2PClient P) (sent : Bool) :
    P2PClient P × Option (ClientMessage P) :=
  match op with
  | .registerWithServer localIp => (c.registerWithServer localIp sent).effect
  | .deregister => (c.deregister sent).effect
  | .searchItem itemName description maxPrice =>
    (c.searchItem itemName description maxPrice sent).effect
  | .negotiateOffer rq itemName counterPrice =>
    (c.negotiateOffer rq itemName counterPrice sent).effect
  | .acceptOffer rq itemName price => (c.acceptOffer rq itemName price sent).effect
  | .refuseOffer rq itemName price => (c.refuseOffer rq itemName price sent).effect
  | .addItem name description price => (c.addItem name description price, none)
  | .removeItem name => (c.removeItem name, none)
  | .quit => c.quit sent

/-- What a user operation can come to, as far as the server and the state can tell. -/
inductive Acted (c : P2PClient P) : P2PClient P → Option (ClientMessage P) → Prop where
  | quiet {c' : P2PClient P} : c'.currentState = c.currentState → c'.offers = c.offers →
      Acted c c' none
  | register {c' : P2PClient P} {rq : Int32} {localIp : String} :
      c.currentState = .unregistered → c'.currentState = .registering → c'.offers = c.offers →
      Acted c c' (some (.register rq c.name localIp c.udpPort c.tcpPort))
  | deregister {c' : P2PClient P} {rq : Int32} :
      c.currentState = .registered → c'.currentState = .unregistered → c'.offers = c.offers →
      Acted c c' (some (.deRegister rq c.name))
  | search {c' : P2PClient P} {rq : Int32} {itemName description : String} {maxPrice : P} :
      c.currentState = .registered → c'.currentState = .searching → c'.offers = c.offers →
      Acted c c' (some (.lookingFor rq c.name itemName description maxPrice))
  | answer {c' : P2PClient P} {m : ClientMessage P} : c.offers ≠ [] → Acted c c' (some m)
  | dropped {c' : P2PClient P} : c.offers ≠ [] → Acted c c' none

namespace P2PClient
variable (c : P2PClient P)

omit [Double P] in
/-- An operation with a fresh number: nothing but the number, or message and state. -/
theorem request_cases (required next : P2PStateType) (message : Int32 → ClientMessage P)
    (sent : Bool) :
    ((c.request required next message sent).datagram = none ∧
      (c.request required next message sent).client.currentState = c.currentState ∧
      (c.request required next message sent).client.offers = c.offers) ∨
    ((c.request required next message sent).datagram = some (message c.nextRequestNumber) ∧
      c.currentState = required ∧
      (c.request required next message sent).client.currentState = next ∧
      (c.request required next message sent).client.offers = c.offers) := by
  unfold request
  by_cases hstate : c.currentState = required
  · cases sent <;> simp [hstate]
  · simp [hstate]

omit [Double P] in
/-- It touches no other fields. -/
theorem request_frame (required next : P2PStateType) (message : Int32 → ClientMessage P)
    (sent : Bool) : ∃ rq state, (c.request required next message sent).client =
      {c with nextRequestNumber := rq, currentState := state} := by
  unfold request
  split
  · exact ⟨c.nextRequestNumber, c.currentState, rfl⟩
  · cases sent with
    | true => exact ⟨_, next, rfl⟩
    | false => exact ⟨_, c.currentState, rfl⟩

omit [Double P] in
/-- An answer to an offer touches the offers and the state. -/
theorem answerOffer_frame (requestNumber : Int32) (agrees : Offer P → Bool)
    (next : P2PStateType) (message : ClientMessage P) (sent : Bool) :
    ∃ offers state, (c.answerOffer requestNumber agrees next message sent).client =
      {c with offers, currentState := state} := by
  unfold answerOffer
  split
  · exact ⟨c.offers, c.currentState, rfl⟩
  · split
    · exact ⟨c.offers, c.currentState, rfl⟩
    · cases sent with
      | true => exact ⟨_, next, rfl⟩
      | false => exact ⟨_, c.currentState, rfl⟩

/-- So does the handling of a message. -/
theorem receive_frame (message : Json P) (sent : Bool) :
    ∃ offers state, (c.handleReceivedMessage message sent).1 =
      {c with offers, currentState := state} := by
  have hkept : ∃ offers state, c = {c with offers, currentState := state} :=
    ⟨c.offers, c.currentState, rfl⟩
  unfold handleReceivedMessage
  cases MessageParser.parseMessage message with
  | none => exact hkept
  | some event =>
    obtain ⟨type, data⟩ := event
    have hoffer : ∃ offers state, c.handleOfferEvent data =
        {c with offers, currentState := state} := by
      unfold handleOfferEvent
      split
      · exact hkept
      · exact ⟨_, c.currentState, rfl⟩
    cases type with
    | offer | negotiate => exact hoffer
    | registered | registerDenied | found | notFound => exact ⟨c.offers, _, rfl⟩
    | _ => exact hkept

omit [Double P] in
/-- An answer to an offer needs an offer. -/
theorem answerOffer_cases (requestNumber : Int32) (agrees : Offer P → Bool)
    (next : P2PStateType) (message : ClientMessage P) (sent : Bool) :
    (c.answerOffer requestNumber agrees next message sent).effect = (c, none) ∨
      c.offers ≠ [] := by
  unfold answerOffer
  cases hfind : c.offers.find? (·.requestNumber = requestNumber) with
  | none => exact .inl rfl
  | some offer =>
    right
    intro hnil
    rw [hnil] at hfind
    cases hfind

end P2PClient

omit [Double P] in
theorem Acted.of_offers {c : P2PClient P} (h : c.offers ≠ []) (c' : P2PClient P)
    (m : Option (ClientMessage P)) : Acted c c' m := by
  cases m with
  | none => exact .dropped h
  | some m => exact .answer h

omit [Double P] in
/-- Leaving the command loop changes none of what `Acted` speaks about. -/
theorem Acted.stop {c c' : P2PClient P} {m : Option (ClientMessage P)} (h : Acted c c' m) :
    Acted c {c' with running := false} m := by
  cases h with
  | quiet hs ho => exact .quiet hs ho
  | register hc hs ho => exact .register hc hs ho
  | deregister hc hs ho => exact .deregister hc hs ho
  | search hc hs ho => exact .search hc hs ho
  | answer ho => exact .answer ho
  | dropped ho => exact .dropped ho

omit [Double P] in
theorem Acted.of_answer {c : P2PClient P} {requestNumber : Int32} {agrees : Offer P → Bool}
    {next : P2PStateType} {message : ClientMessage P} {sent : Bool} :
    Acted c (c.answerOffer requestNumber agrees next message sent).effect.1
      (c.answerOffer requestNumber agrees next message sent).effect.2 := by
  rcases c.answerOffer_cases requestNumber agrees next message sent with h | h
  · rw [h]
    exact .quiet rfl rfl
  · exact .of_offers h _ _

omit [Double P] in
theorem Acted.of_request {c : P2PClient P} {required next : P2PStateType}
    {message : Int32 → ClientMessage P} {sent : Bool}
    (h : ∀ rq c', c.currentState = required → c'.currentState = next → c'.offers = c.offers →
      Acted c c' (some (message rq))) :
    Acted c (c.request required next message sent).effect.1
      (c.request required next message sent).effect.2 := by
  show Acted c (c.request required next message sent).client
    (c.request required next message sent).datagram
  rcases c.request_cases required next message sent with ⟨hd, hs, ho⟩ | ⟨hd, hc, hs, ho⟩
  · rw [hd]
    exact .quiet hs ho
  · rw [hd]
    exact h _ _ hc hs ho

/-- **What a user operation does**, whatever becomes of its datagram. -/
theorem UserOp.run_acted (op : UserOp P) (c : P2PClient P) (sent : Bool) :
    Acted c (op.run c sent).1 (op.run c sent).2 := by
  cases op with
  | registerWithServer localIp => exact .of_request fun _ _ hc hs ho => .register hc hs ho
  | deregister => exact .of_request fun _ _ hc hs ho => .deregister hc hs ho
  | searchItem itemName description maxPrice =>
    exact .of_request fun _ _ hc hs ho => .search hc hs ho
  | negotiateOffer rq itemName counterPrice =>
    simp only [UserOp.run, P2PClient.negotiateOffer]
    split
    · exact .quiet rfl rfl
    · exact .of_answer
  | acceptOffer rq itemName price => exact .of_answer
  | refuseOffer rq itemName price => exact .of_answer
  | addItem name description price => exact .quiet rfl rfl
  | removeItem name => exact .quiet rfl rfl
  | quit =>
    simp only [UserOp.run, P2PClient.quit]
    split
    case isTrue =>
      have hleave : Acted c (c.deregister sent).effect.1 (c.deregister sent).effect.2 :=
        .of_request fun _ _ hc hs ho => .deregister hc hs ho
      exact hleave.stop
    case isFalse => exact .quiet rfl rfl

/-! ### The server's messages at a client -/

/-- What the handling of a message of the server can come to. -/
inductive Received (c : P2PClient P) :
    ServerMessage P → P2PClient P → Option (ClientMessage P) → Prop where
  | registered {rq : Json P} :
      Received c (.registered rq) {c with currentState := .registered} none
  | found {rq : Int32} {itemName : String} {price : P} :
      Received c (.found rq itemName price) {c with currentState := .registered} none
  | offer {rq : Int32} {itemName : String} {description : Json P} {item : Item P} :
      c.currentState = .registered → c.inventory.find? (·.name = itemName) = some item →
      Received c (.search rq itemName description) c (some (.offer rq c.name itemName item.price))
  /-- Everything else, and a REGISTERED whose number cannot be read. -/
  | ignored {m : ServerMessage P} : (∀ rq itemName price, m ≠ .found rq itemName price) →
      (∀ rq n, m = .registered rq → getInt rq ≠ .ok n) → Received c m c none

namespace P2PClient
variable (c : P2PClient P) (sent : Bool)

theorem handle_found (rq : Int32) (itemName : String) (price : P) :
    c.handleReceivedMessage (ServerMessage.found rq itemName price).toJson sent =
      ({c with currentState := .registered}, none) := by
  simp only [handleReceivedMessage, ServerMessage.parse_found]

theorem handle_registered {rq : Json P} {n : Int32} (h : getInt rq = .ok n) :
    c.handleReceivedMessage (ServerMessage.registered rq).toJson sent =
      ({c with currentState := .registered}, none) := by
  simp only [handleReceivedMessage, ServerMessage.parse_registered h]

/-- The three answers that leave the client waiting. -/
theorem handle_notAvailable (rq : Int32) (itemName : String) (price : P) :
    c.handleReceivedMessage (ServerMessage.notAvailable rq itemName price).toJson sent =
      (c, none) := by
  simp only [handleReceivedMessage, ServerMessage.parse_notAvailable]

theorem handle_negotiate (rq : Int32) (itemName : String) (maxPrice : P) :
    c.handleReceivedMessage (ServerMessage.negotiate rq itemName maxPrice).toJson sent =
      (c, none) := by
  simp only [handleReceivedMessage, ServerMessage.parse_negotiate]

theorem handle_registerDenied (rq : Json P) (reason : String) :
    c.handleReceivedMessage (ServerMessage.registerDenied rq reason).toJson sent = (c, none) := by
  simp only [handleReceivedMessage, ServerMessage.parse_registerDenied]

theorem handle_search (rq : Int32) (itemName description : String) :
    c.handleReceivedMessage
        (ServerMessage.search rq itemName (.str description) : ServerMessage P).toJson sent =
      (c, c.handleSearchEvent {requestNumber := rq, itemName, itemDescription := description}
        sent) := by
  simp only [handleReceivedMessage, ServerMessage.parse_search]

theorem handleSearchEvent_eq_some {data : MessageData P} {m : ClientMessage P}
    (h : c.handleSearchEvent data sent = some m) :
    c.currentState = .registered ∧ ∃ item, c.inventory.find? (·.name = data.itemName) = some item ∧
      m = .offer data.requestNumber c.name data.itemName item.price := by
  unfold handleSearchEvent at h
  split at h
  case isTrue => cases h
  case isFalse hstate =>
    cases hfind : c.inventory.find? (·.name = data.itemName) with
    | none => simp [hfind] at h
    | some item =>
      cases sent
      · simp [hfind] at h
      · exact ⟨not_not.mp hstate, item, rfl, by simpa [hfind, eq_comm] using h⟩

/-- **What the handling of a server message does.** -/
theorem handle_received (m : ServerMessage P) :
    Received c m (c.handleReceivedMessage m.toJson sent).1
      (c.handleReceivedMessage m.toJson sent).2 := by
  cases m with
  | registered rq =>
    cases hrq : getInt rq with
    | ok n =>
      rw [handle_registered c sent hrq]
      exact .registered
    | error fault =>
      simp only [handleReceivedMessage, ServerMessage.parse_registered_none hrq]
      refine .ignored (by simp) ?_
      intro _ n hsame
      cases hsame
      simp [hrq]
  | registerDenied rq reason =>
    rw [handle_registerDenied]
    exact .ignored (by simp) (by simp)
  | search rq itemName description =>
    cases hdescription : getString description with
    | ok s =>
      obtain rfl := getString_eq_ok.mp hdescription
      rw [handle_search]
      cases hoffer : c.handleSearchEvent
          {requestNumber := rq, itemName, itemDescription := s} sent with
      | none => exact .ignored (by simp) (by simp)
      | some m =>
        obtain ⟨hstate, item, hfind, rfl⟩ := c.handleSearchEvent_eq_some sent hoffer
        exact .offer hstate hfind
    | error fault =>
      simp only [handleReceivedMessage, ServerMessage.parse_search_none hdescription]
      exact .ignored (by simp) (by simp)
  | notAvailable rq itemName price =>
    rw [handle_notAvailable]
    exact .ignored (by simp) (by simp)
  | found rq itemName price =>
    rw [handle_found]
    exact .found
  | negotiate rq itemName maxPrice =>
    rw [handle_negotiate]
    exact .ignored (by simp) (by simp)

end P2PClient

end P2PShopping
