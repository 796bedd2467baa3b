import P2PShopping.Wire.Parser

/-! The messages either side builds, and what the parser makes of them.

Every message is a JSON initializer list in the source. `ClientMessage` has one
constructor for each list in the client, `ServerMessage` one for each in the
server's handlers, and `toJson` is the list. A datagram carries the dump of it,
from which `json::parse` makes the same message with its keys in order
(`Json.object_round_trip`); here the receiver is given the list itself. -/
namespace P2PShopping
open Json

variable {P : Type} [Double P]

inductive ClientMessage (P : Type) where
  /-- `registerWithServer` -/
  | register (rq : Int32) (name ip : String) (udpPort tcpPort : UInt16)
  /-- `deregister` -/
  | deRegister (rq : Int32) (name : String)
  /-- `searchItem` -/
  | lookingFor (rq : Int32) (name itemName description : String) (maxPrice : P)
  /-- `negotiateOffer` -/
  | negotiate (rq : Int32) (name itemName : String) (price : P)
  /-- `acceptOffer` -/
  | accept (rq : Int32) (name itemName : String) (price : P)
  /-- `refuseOffer` -/
  | refuse (rq : Int32) (name itemName : String) (price : P)
  /-- `handleSearchEvent` -/
  | offer (rq : Int32) (name itemName : String) (price : P)
deriving DecidableEq

/-- The list shared by the four messages that name an item and a price. -/
def priced (command : String) (rq : Int32) (name itemName : String) (price : P) : Json P :=
  .obj [("command", .str command), ("rq", .int rq.toInt), ("name", .str name),
    ("item_name", .str itemName), ("price", .float price)]

def ClientMessage.toJson : ClientMessage P → Json P
  | .register rq name ip udpPort tcpPort =>
    .obj [("command", .str "REGISTER"), ("rq", .int rq.toInt), ("name", .str name),
      ("ip", .str ip), ("udp_port", .int udpPort.toNat), ("tcp_port", .int tcpPort.toNat)]
  | .deRegister rq name =>
    .obj [("command", .str "DE_REGISTER"), ("rq", .int rq.toInt), ("name", .str name)]
  | .lookingFor rq name itemName description maxPrice =>
    .obj [("command", .str "LOOKING_FOR"), ("rq", .int rq.toInt), ("name", .str name),
      ("item_name", .str itemName), ("description", .str description),
      ("max_price", .float maxPrice)]
  | .negotiate rq name itemName price => priced "NEGOTIATE" rq name itemName price
  | .accept rq name itemName price => priced "ACCEPT" rq name itemName price
  | .refuse rq name itemName price => priced "REFUSE" rq name itemName price
  | .offer rq name itemName price => priced "OFFER" rq name itemName price

inductive ServerMessage (P : Type) where
  /-- `handleRegister`, a new peer; `rq` is copied from the request as it is. -/
  | registered (rq : Json P)
  /-- `handleRegister`, a known peer -/
  | registerDenied (rq : Json P) (reason : String)
  /-- `handleLookingFor`; the description is copied from the request as it is. -/
  | search (rq : Int32) (itemName : String) (description : Json P)
  /-- `processOffersAfterTimeout`, no offers -/
  | notAvailable (rq : Int32) (itemName : String) (price : P)
  /-- `processOffersAfterTimeout`, an acceptable offer -/
  | found (rq : Int32) (itemName : String) (price : P)
  /-- `processOffersAfterTimeout`, offers above the maximum only -/
  | negotiate (rq : Int32) (itemName : String) (maxPrice : P)

def ServerMessage.toJson : ServerMessage P → Json P
  | .registered rq => .obj [("command", .str "REGISTERED"), ("rq", rq)]
  | .registerDenied rq reason =>
    .obj [("command", .str "REGISTER-DENIED"), ("request_number", rq), ("reason", .str reason)]
  | .search rq itemName description =>
    .obj [("command", .str "SEARCH"), ("rq", .int rq.toInt), ("item_name", .str itemName),
      ("description", description)]
  | .notAvailable rq itemName price =>
    .obj [("command", .str "NOT_AVAILABLE"), ("rq", .int rq.toInt), ("item_name", .str itemName),
      ("price", .float price)]
  | .found rq itemName price =>
    .obj [("command", .str "FOUND"), ("rq", .int rq.toInt), ("item_name", .str itemName),
      ("price", .float price)]
  | .negotiate rq itemName maxPrice =>
    .obj [("command", .str "NEGOTIATE"), ("rq", .int rq.toInt), ("item_name", .str itemName),
      ("max_price", .float maxPrice)]

/-! ### The parser on these messages -/

section Parse
open MessageParser

attribute [local simp] parseMessage readMessage printMessage printCommandFields populate
  validateCommandFields stringToEventType commandMap List.lookup_nil List.lookup_cons priced

/-- What a client logs before it sends prints without a type error. -/
theorem ClientMessage.print_ok (m : ClientMessage P) : printMessage m.toJson = .ok () := by
  cases m <;> simp [toJson]

namespace ServerMessage

theorem parse_found (rq : Int32) (itemName : String) (price : P) :
    parseMessage (found rq itemName price).toJson =
      some ⟨.found, {requestNumber := rq, itemName, price}⟩ := by
  simp [toJson]

theorem parse_notAvailable (rq : Int32) (itemName : String) (price : P) :
    parseMessage (notAvailable rq itemName price).toJson =
      some ⟨.notAvailable, {requestNumber := rq, itemName, price}⟩ := by
  simp [toJson]

theorem parse_registered {rq : Json P} {n : Int32} (h : getInt rq = .ok n) :
    parseMessage (registered rq).toJson = some ⟨.registered, {requestNumber := n}⟩ := by
  simp [toJson, h]

theorem parse_search (rq : Int32) (itemName description : String) :
    parseMessage (search rq itemName (.str description) : ServerMessage P).toJson =
      some ⟨.search, {requestNumber := rq, itemName, itemDescription := description}⟩ := by
  simp [toJson]

/-- The populate switch asks a NEGOTIATE for its maximum price, the validate switch
for a price and a name, and the server sends the first only. -/
theorem parse_negotiate (rq : Int32) (itemName : String) (maxPrice : P) :
    parseMessage (negotiate rq itemName maxPrice).toJson = none := by
  simp [toJson]

/-- The number of a REGISTER-DENIED stands under another key. -/
theorem parse_registerDenied (rq : Json P) (reason : String) :
    parseMessage (registerDenied rq reason).toJson = none := by
  simp [toJson]

/-- A number that is none, or a description that is no string, stops at the printing. -/
theorem parse_registered_none {rq : Json P} {fault : Fault} (h : getInt rq = .error fault) :
    parseMessage (registered rq).toJson = none := by
  simp [toJson, h]

theorem parse_search_none {rq : Int32} {itemName : String} {description : Json P}
    {fault : Fault} (h : getString description = .error fault) :
    parseMessage (search rq itemName description).toJson = none := by
  simp [toJson, h]

end ServerMessage

namespace ClientMessage

theorem parse_register (rq : Int32) (name ip : String) (udpPort tcpPort : UInt16) :
    parseMessage (register rq name ip udpPort tcpPort : ClientMessage P).toJson =
      some ⟨.register,
        {requestNumber := rq, senderName := name, ipAddress := ip,
         udpPort := Int32.ofInt udpPort.toNat, tcpPort := Int32.ofInt tcpPort.toNat}⟩ := by
  simp [toJson]

theorem parse_lookingFor (rq : Int32) (name itemName description : String) (maxPrice : P) :
    parseMessage (lookingFor rq name itemName description maxPrice).toJson =
      some ⟨.lookingFor,
        {requestNumber := rq, senderName := name, itemName,
         itemDescription := description, maxPrice}⟩ := by
  simp [toJson]

theorem parse_offer (rq : Int32) (name itemName : String) (price : P) :
    parseMessage (offer rq name itemName price).toJson =
      some ⟨.offer, {requestNumber := rq, senderName := name, itemName, price}⟩ := by
  simp [toJson]

/-- `commandMap` has no DE_REGISTER. -/
theorem parse_deRegister (rq : Int32) (name : String) :
    parseMessage (deRegister rq name : ClientMessage P).toJson = none := by
  simp [toJson]

/-- A NEGOTIATE of a client has no maximum price for the populate switch. -/
theorem parse_negotiate (rq : Int32) (name itemName : String) (price : P) :
    parseMessage (negotiate rq name itemName price).toJson = none := by
  simp [toJson, getDouble]

end ClientMessage

end Parse

end P2PShopping
