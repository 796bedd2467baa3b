import P2PShopping.Wire.Json

/-! The events and states both sides speak about, under the names they print. -/
namespace P2PShopping

inductive P2PEventType where
  | register
  | registerDenied
  | registered
  | deRegister
  | lookingFor
  | search
  | offer
  | notAvailable
  | negotiate
  | accept
  | found
  | refuse
  | notFound
  | reserve
  | cancel
  | buy
  | shipped
  | unknown
deriving DecidableEq

def P2PEventType.getName : P2PEventType → String
  | .register => "REGISTER"
  | .registerDenied => "REGISTER-DENIED"
  | .registered => "REGISTERED"
  | .deRegister => "DE-REGISTER"
  | .lookingFor => "LOOKING_FOR"
  | .search => "SEARCH"
  | .offer => "OFFER"
  | .notAvailable => "NOT_AVAILABLE"
  | .negotiate => "NEGOTIATE"
  | .accept => "ACCEPT"
  | .found => "FOUND"
  | .refuse => "REFUSE"
  | .notFound => "NOT_FOUND"
  | .reserve => "RESERVE"
  | .cancel => "CANCEL"
  | .buy => "BUY"
  | .shipped => "SHIPPED"
  | .unknown => "UNKNOWN"

/-- `P2PEvent::MessageData`, with the values its constructor leaves. -/
structure MessageData (P : Type) [Double P] where
  requestNumber : Int32
  senderName : String := ""
  ipAddress : String := ""
  udpPort : Int32 := 0
  tcpPort : Int32 := 0
  itemName : String := ""
  itemDescription : String := ""
  price : P := Double.ofInt 0
  maxPrice : P := Double.ofInt 0
  reason : String := ""

structure P2PEvent (P : Type) [Double P] where
  type : P2PEventType
  data : MessageData P

def P2PEvent.getName {P : Type} [Double P] (e : P2PEvent P) : String := e.type.getName

inductive P2PStateType where
  | unregistered
  | registering
  | registered
  | searching
  | offering
  | negotiating
  | buying
  | error
deriving DecidableEq

def P2PStateType.getName : P2PStateType → String
  | .unregistered => "UNREGISTERED"
  | .registering => "REGISTERING"
  | .registered => "REGISTERED"
  | .searching => "SEARCHING"
  | .offering => "OFFERING"
  | .negotiating => "NEGOTIATING"
  | .buying => "BUYING"
  | .error => "ERROR"

inductive ServerStateType where
  | listening
  | processingRegistration
  | processingSearch
  | processingOffer
  | processingPurchase
  | error
deriving DecidableEq

def ServerStateType.getName : ServerStateType → String
  | .listening => "LISTENING"
  | .processingRegistration => "PROCESSING_REGISTRATION"
  | _ => "UNKNOWN"

end P2PShopping
