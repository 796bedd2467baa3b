import P2PShopping.Server.State

/-! `ServerCommandHandlers`.

A handler runs in `Handler`: it changes the server, may stop with a `Fault`, and
what it changed before the fault stays changed. -/
namespace P2PShopping
open Collections Json

variable {P : Type} [Double P]

abbrev Handler (P : Type) [Double P] (α : Type) := EStateM Fault (Server P) α

namespace Handler

def lift {α : Type} (x : Except Fault α) : Handler P α := fun s =>
  match x with
  | .ok a => .ok a s
  | .error fault => .error fault s

/-- `msg[key]`, converted. -/
def readKey {α : Type} (msg : Json P) (key : String) (get : Json P → Except Fault α) :
    Handler P α :=
  lift (do get (← msg.index key))

section Peeling
variable {α β : Type} {x : Handler P α} {f : α → Handler P β} {s s' : Server P} {b : β}
  {fault : Fault}

/-- A sequence that completes has completed twice. -/
theorem bind_ok : (x >>= f) s = .ok b s' ↔ ∃ a s₁, x s = .ok a s₁ ∧ f a s₁ = .ok b s' := by
  show EStateM.bind x f s = _ ↔ _
  unfold EStateM.bind
  cases x s <;> simp

/-- A sequence that faults has faulted in its first part or in its second. -/
theorem bind_error : (x >>= f) s = .error fault s' ↔
    x s = .error fault s' ∨ ∃ a s₁, x s = .ok a s₁ ∧ f a s₁ = .error fault s' := by
  show EStateM.bind x f s = _ ↔ _
  unfold EStateM.bind
  cases x s <;> simp

theorem lift_ok {x : Except Fault α} {a : α} :
    (lift x : Handler P α) s = .ok a s' ↔ x = .ok a ∧ s' = s := by
  cases x <;> simp [lift, eq_comm]

theorem lift_error {x : Except Fault α} :
    (lift x : Handler P α) s = .error fault s' ↔ x = .error fault ∧ s' = s := by
  cases x <;> simp [lift, eq_comm]

theorem readKey_ok {msg : Json P} {key : String} {get : Json P → Except Fault α} {a : α} :
    readKey msg key get s = .ok a s' ↔ msg.Reads get key a ∧ s' = s := by
  rw [readKey, lift_ok, Reads]
  cases msg.index key <;> simp

theorem readKey_error {msg : Json P} {key : String} {get : Json P → Except Fault α} :
    readKey msg key get s = .error fault s' ↔
      (msg.index key = .error fault ∨ ∃ v, msg.index key = .ok v ∧ get v = .error fault) ∧
        s' = s := by
  rw [readKey, lift_error]
  cases msg.index key <;> simp

theorem get_ok {a : Server P} : (get : Handler P (Server P)) s = .ok a s' ↔ a = s ∧ s' = s := by
  show EStateM.Result.ok s s = _ ↔ _
  simp [eq_comm]

theorem modify_ok {g : Server P → Server P} {u : PUnit} :
    (modify g : Handler P PUnit) s = .ok u s' ↔ s' = g s := by
  show EStateM.Result.ok PUnit.unit (g s) = _ ↔ _
  simp [eq_comm]

theorem get_error : (get : Handler P (Server P)) s = .error fault s' ↔ False :=
  iff_of_false (fun h => by cases h) id

theorem modify_error {g : Server P → Server P} :
    (modify g : Handler P PUnit) s = .error fault s' ↔ False :=
  iff_of_false (fun h => by cases h) id

theorem pure_ok {a b : α} : (pure a : Handler P α) s = .ok b s' ↔ b = a ∧ s' = s := by
  show EStateM.Result.ok a s = _ ↔ _
  simp [eq_comm]

end Peeling

end Handler

open Handler

def sendToClient (message : ServerMessage P) (addr : SockaddrIn) : Handler P Unit :=
  modify (·.send message addr)

def handleRegister (msg : Json P) (clientAddr : SockaddrIn) : Handler P Unit := do
  let _peerName ← readKey msg "name" getString
  let peerId := getPeerIdentifier clientAddr
  if ((← get).peerSessions.lookup peerId).isSome then
    let rq ← readKey msg "rq" pure
    sendToClient (.registerDenied rq "Peer already registered") clientAddr
  else
    modify (·.setSession peerId (some {peerAddr := clientAddr}))
    let rq ← readKey msg "rq" pure
    sendToClient (.registered rq) clientAddr

def handleDeregister (msg : Json P) (clientAddr : SockaddrIn) : Handler P Unit := do
  let peerId := getPeerIdentifier clientAddr
  modify fun s => {s with peerSessions := s.peerSessions.erase peerId}
  -- The name is only printed, but read through the asserting operator.
  let _name ← readKey msg "name" pure

/-- The broadcast loop: every session but the searcher's, through its pointer. A null
pointer has its `peer_addr_` at address 4, where the kernel finds nothing to read:
`sendto` fails with `EFAULT`, and the loop goes on. -/
def broadcast (searcherId : String) (message : ServerMessage P) :
    List (Sigma fun _ : String => Option (PeerSession P)) → Handler P Unit
  | [] => pure ()
  | ⟨peerId, session⟩ :: rest => do
    if peerId ≠ searcherId then
      match session with
      | some session => sendToClient message session.peerAddr
      | none => pure ()
    broadcast searcherId message rest

def handleLookingFor (msg : Json P) (clientAddr : SockaddrIn) : Handler P Unit := do
  let requestNumber ← readKey msg "rq" getInt
  let itemName ← readKey msg "item_name" getString
  let maxPrice ← readKey msg "max_price" getDouble
  let searcherName ← readKey msg "name" getString
  let search : SearchRequest P :=
    { requestNumber, searcherName, itemName, maxPrice, searcherAddr := clientAddr,
      startTime := (← get).clock }
  modify (·.detach requestNumber)
  modify (·.setSearch search requestNumber)
  let description ← readKey msg "description" pure
  broadcast (getPeerIdentifier clientAddr) (.search requestNumber itemName description)
    (← get).peerSessions.entries

/-- What `handleOffer` does with the converted fields. The item name is not among
them: the offer is filed under its number alone. -/
def recordOffer (requestNumber : Int32) (offer : OfferInfo P) (s : Server P) : Server P :=
  match s.activeSearches.lookup requestNumber with
  | none => s
  | some search =>
    if search.offersProcessed then s
    else if s.clock - search.startTime < minute then
      s.setSearch {search with offers := search.offers ++ [offer]} requestNumber
    else s

def handleOffer (msg : Json P) (clientAddr : SockaddrIn) : Handler P Unit := do
  let requestNumber ← readKey msg "rq" getInt
  let sellerName ← readKey msg "name" getString
  let _itemName ← readKey msg "item_name" getString
  let offerPrice ← readKey msg "price" getDouble
  modify (recordOffer requestNumber ⟨sellerName, offerPrice, clientAddr⟩)

/-- `std::min_element` is the first minimum, as `argmin` is. -/
def processOffersAfterTimeout (requestNumber : Int32) (s : Server P) : Server P :=
  match s.activeSearches.lookup requestNumber with
  | none => s
  | some search =>
    if search.offersProcessed then s
    else
      let search := {search with offersProcessed := true}
      match search.offers.argmin (·.price) with
      | none =>
        {s with activeSearches := s.activeSearches.erase requestNumber}.send
          (.notAvailable search.requestNumber search.itemName search.maxPrice) search.searcherAddr
      | some lowestOffer =>
        if lowestOffer.price ≤ search.maxPrice then
          (s.setSearch search requestNumber).send
            (.found search.requestNumber search.itemName lowestOffer.price) search.searcherAddr
        else
          (s.setSearch search requestNumber).send
            (.negotiate search.requestNumber search.itemName search.maxPrice)
            lowestOffer.sellerAddr

/-- `registerHandlers` -/
def commandHandlers : List (String × (Json P → SockaddrIn → Handler P Unit)) :=
  [("REGISTER", handleRegister),
   ("DE_REGISTER", handleDeregister),
   ("LOOKING_FOR", handleLookingFor),
   ("OFFER", handleOffer)]

def handleCommand (msg : Json P) (clientAddr : SockaddrIn) : Handler P Unit := do
  let command ← readKey msg "command" getString
  match commandHandlers.lookup command with
  | some handler => handler msg clientAddr
  | none => pure ()

end P2PShopping
