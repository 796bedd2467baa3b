import P2PShopping.Server.StateMachine
import P2PShopping.Wire.Address
import P2PShopping.Wire.Messages

/-! What the server holds.

`peerSessions` and `eventQueue` belong to `ConcurrentServer`, `activeSearches` to
`ServerCommandHandlers`. The threads are state too: a worker between running the
command handler and pushing the event, and a detached thread sleeping until it
processes the offers. `outbox` is what `sendto` was given since the step began. -/
namespace P2PShopping
open Collections

/-- The default constructor's arguments aside, a session is its peer's address and
its machine. -/
structure PeerSession (P : Type) [Double P] where
  peerAddr : SockaddrIn
  stateMachine : StateMachine P2PStateType (P2PEvent P) := peerStateMachine

structure OfferInfo (P : Type) where
  sellerName : String
  price : P
  sellerAddr : SockaddrIn

/-- Times are nanoseconds of the steady clock. -/
structure SearchRequest (P : Type) where
  requestNumber : Int32
  searcherName : String
  itemName : String
  maxPrice : P
  searcherAddr : SockaddrIn
  startTime : Int
  offers : List (OfferInfo P) := []
  offersProcessed : Bool := false

/-- `std::chrono::minutes(1)` in nanoseconds. -/
def minute : Int := 60000000000

structure Server (P : Type) [Double P] where
  /-- `none` is the null pointer. -/
  peerSessions : Map String (Option (PeerSession P)) := ∅
  activeSearches : Map Int32 (SearchRequest P) := ∅
  serverStateMachine : StateMachine ServerStateType (P2PEvent P) := P2PShopping.serverStateMachine
  eventQueue : List (P2PEvent P × SockaddrIn) := []
  /-- Messages whose command handler has run and whose event is not pushed yet. -/
  workers : List (Json P × SockaddrIn) := []
  /-- The sleeping timeout threads: their request number and when they started. -/
  timeoutThreads : List (Int32 × Int) := []
  clock : Int := 0
  outbox : List (ServerMessage P × SockaddrIn) := []

namespace Server
variable {P : Type} [Double P]

/-- `sendto`, whose result the server ignores. -/
def send (s : Server P) (message : ServerMessage P) (addr : SockaddrIn) : Server P :=
  {s with outbox := s.outbox ++ [(message, addr)]}

def setSession (s : Server P) (peerId : String) (session : Option (PeerSession P)) : Server P :=
  {s with peerSessions := s.peerSessions.insert peerId session}

def setSearch (s : Server P) (search : SearchRequest P) (rq : Int32) : Server P :=
  {s with activeSearches := s.activeSearches.insert rq search}

def detach (s : Server P) (rq : Int32) : Server P :=
  {s with timeoutThreads := s.timeoutThreads ++ [(rq, s.clock)]}

section Simp
variable (s : Server P) (message : ServerMessage P) (addr : SockaddrIn) (peerId : String)
  (session : Option (PeerSession P)) (search : SearchRequest P) (rq : Int32)

@[simp] theorem send_peerSessions : (s.send message addr).peerSessions = s.peerSessions := rfl
@[simp] theorem send_activeSearches : (s.send message addr).activeSearches = s.activeSearches := rfl
@[simp] theorem send_timeoutThreads : (s.send message addr).timeoutThreads = s.timeoutThreads := rfl
@[simp] theorem send_clock : (s.send message addr).clock = s.clock := rfl
@[simp] theorem send_outbox : (s.send message addr).outbox = s.outbox ++ [(message, addr)] := rfl

@[simp] theorem setSession_peerSessions :
    (s.setSession peerId session).peerSessions = s.peerSessions.insert peerId session := rfl
@[simp] theorem setSession_activeSearches :
    (s.setSession peerId session).activeSearches = s.activeSearches := rfl
@[simp] theorem setSession_outbox : (s.setSession peerId session).outbox = s.outbox := rfl

@[simp] theorem setSearch_activeSearches :
    (s.setSearch search rq).activeSearches = s.activeSearches.insert rq search := rfl
@[simp] theorem setSearch_peerSessions :
    (s.setSearch search rq).peerSessions = s.peerSessions := rfl
@[simp] theorem setSearch_outbox : (s.setSearch search rq).outbox = s.outbox := rfl

@[simp] theorem detach_timeoutThreads :
    (s.detach rq).timeoutThreads = s.timeoutThreads ++ [(rq, s.clock)] := rfl
@[simp] theorem detach_activeSearches : (s.detach rq).activeSearches = s.activeSearches := rfl
@[simp] theorem detach_peerSessions : (s.detach rq).peerSessions = s.peerSessions := rfl
@[simp] theorem detach_outbox : (s.detach rq).outbox = s.outbox := rfl

end Simp
end Server
end P2PShopping
