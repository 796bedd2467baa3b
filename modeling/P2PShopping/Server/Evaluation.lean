import P2PShopping.Server.SearchHistory
import P2PShopping.Server.Sessions

/-! The handlers on messages that convert.

Once the keys a handler converts are known, the handler is a function of the server:
one equation each, from which both what it does and that it does not throw are read
off. -/
namespace P2PShopping
open Collections Json Handler

variable {P : Type} [Double P]

/-! ### Reading -/

section Reading
variable {α : Type} {get : Json P → Except Fault α} {j : Json P} {key word : String} {a : α}

omit [Double P] in
theorem toOption_eq_some {x : Except Fault α} : x.toOption = some a ↔ x = .ok a := by
  cases x <;> simp [Except.toOption]

theorem readKey_of_reads (h : j.Reads get key a) : (readKey j key get : Handler P α) = pure a := by
  obtain ⟨v, hv, ha⟩ := h
  rw [readKey, hv, ok_bind, ha]
  rfl

theorem commandOf_eq_some : commandOf j = some word ↔
    MessageParser.printMessage j = .ok () ∧ j.Reads getString "command" word := by
  unfold commandOf
  cases MessageParser.printMessage j with
  | error fault => simp
  | ok =>
    rw [toOption_eq_some, bind_eq_ok]
    simp [Reads]

theorem readLookingFor_ok {addr : SockaddrIn} {now : Int} {L : LookingFor P}
    (h : readLookingFor j addr now = .ok L) :
    j.Reads getInt "rq" L.rq ∧ j.Reads getString "item_name" L.item ∧
      j.Reads getDouble "max_price" L.maxPrice ∧ j.Reads getString "name" L.name ∧
      L.addr = addr ∧ L.now = now := by
  simp only [readLookingFor, bind_eq_ok, pure_eq_ok] at h
  obtain ⟨_, hrq, rq, hrq', _, hitem, item, hitem', _, hmax, maxPrice, hmax', _, hname, name,
    hname', h⟩ := h
  cases h
  exact ⟨⟨_, hrq, hrq'⟩, ⟨_, hitem, hitem'⟩, ⟨_, hmax, hmax'⟩, ⟨_, hname, hname'⟩, rfl, rfl⟩

theorem readOffer_ok {addr : SockaddrIn} {rq : Int32} {offer : OfferInfo P}
    (h : readOffer j addr = .ok (rq, offer)) :
    j.Reads getInt "rq" rq ∧ j.Reads getString "name" offer.sellerName ∧
      (∃ item, j.Reads getString "item_name" item) ∧ j.Reads getDouble "price" offer.price ∧
      offer.sellerAddr = addr := by
  simp only [readOffer, bind_eq_ok, pure_eq_ok] at h
  obtain ⟨_, hrq, rq, hrq', _, hname, name, hname', _, hitem, item, hitem', _, hprice, price,
    hprice', h⟩ := h
  cases h
  exact ⟨⟨_, hrq, hrq'⟩, ⟨_, hname, hname'⟩, ⟨_, _, hitem, hitem'⟩, ⟨_, hprice, hprice'⟩, rfl⟩

end Reading

/-! ### The handlers -/

section Handlers
variable {j : Json P} {addr : SockaddrIn} {s : Server P} {word : String}

/-- A message that prints is given to the handler of its command. -/
theorem dispatch_eq {handler : Json P → SockaddrIn → Handler P Unit}
    (hcommand : commandOf j = some word) (hhandler : commandHandlers.lookup word = some handler) :
    dispatch j addr s = handler j addr s := by
  obtain ⟨hprint, hread⟩ := commandOf_eq_some.mp hcommand
  have hdispatch : dispatch j addr s = handleCommand j addr s := by
    rw [dispatch, hprint]
    rfl
  rw [hdispatch, handleCommand, readKey_of_reads hread]
  simp only [pure_bind, hhandler]

theorem readKey_of_index {v : Json P} {key : String} (h : j.index key = .ok v) :
    (readKey j key pure : Handler P (Json P)) = pure v :=
  readKey_of_reads ⟨v, h, rfl⟩

theorem handleRegister_eq {name : String} {rq : Json P} (hname : j.Reads getString "name" name)
    (hrq : j.index "rq" = .ok rq) :
    handleRegister j addr s = .ok ()
      (if (s.peerSessions.lookup (getPeerIdentifier addr)).isSome then
        s.send (.registerDenied rq "Peer already registered") addr
      else
        (s.setSession (getPeerIdentifier addr) (some {peerAddr := addr})).send
          (.registered rq) addr) := by
  rw [handleRegister, readKey_of_reads hname, readKey_of_index hrq]
  show (if (s.peerSessions.lookup (getPeerIdentifier addr)).isSome then _ else _ :
    Handler P Unit) s = _
  split
  · rfl
  · rfl

theorem handleDeregister_eq {name : Json P} (hname : j.index "name" = .ok name) :
    handleDeregister j addr s =
      .ok () {s with peerSessions := s.peerSessions.erase (getPeerIdentifier addr)} := by
  rw [handleDeregister, readKey_of_index hname]
  rfl

theorem handleLookingFor_eq {L : LookingFor P} (h : readLookingFor j addr s.clock = .ok L) :
    handleLookingFor j addr s =
      (do let description ← readKey j "description" pure
          broadcast (getPeerIdentifier addr) (.search L.rq L.item description)
            (← get).peerSessions.entries : Handler P Unit)
        ((s.detach L.rq).setSearch L.request L.rq) := by
  obtain ⟨hrq, hitem, hmax, hname, haddr, hnow⟩ := readLookingFor_ok h
  rw [handleLookingFor, readKey_of_reads hrq, readKey_of_reads hitem, readKey_of_reads hmax,
    readKey_of_reads hname, LookingFor.request, haddr, hnow]
  rfl

theorem handleLookingFor_broadcast {L : LookingFor P} {description : Json P}
    (h : readLookingFor j addr s.clock = .ok L)
    (hdescription : j.index "description" = .ok description) :
    handleLookingFor j addr s =
      .ok () (((s.detach L.rq).setSearch L.request L.rq).sendAll
        (.search L.rq L.item description)
        (recipients (getPeerIdentifier addr) s.peerSessions.entries)) := by
  rw [handleLookingFor_eq h, readKey_of_index hdescription]
  exact broadcast_eq ..

theorem handleOffer_eq {rq : Int32} {offer : OfferInfo P} (h : readOffer j addr = .ok (rq, offer)) :
    handleOffer j addr s = .ok () (recordOffer rq offer s) := by
  obtain ⟨hrq, hname, ⟨item, hitem⟩, hprice, haddr⟩ := readOffer_ok h
  obtain ⟨name, price, seller⟩ := offer
  simp only at hname hprice haddr
  subst haddr
  rw [handleOffer, readKey_of_reads hrq, readKey_of_reads hname, readKey_of_reads hitem,
    readKey_of_reads hprice]
  rfl

/-- What is left of a LOOKING_FOR once its search is stored is not caught. -/
theorem handleLookingFor_not_caught {L : LookingFor P} {s' : Server P} {fault : Fault}
    (hread : readLookingFor j addr s.clock = .ok L)
    (h : handleLookingFor j addr s = .error fault s') : fault.caught = false := by
  rw [handleLookingFor_eq hread] at h
  simp only [bind_error, readKey_ok, get_ok, get_error, false_or] at h
  rcases h with h | ⟨_, _, -, _, _, -, h⟩
  · exact readKey_pure_not_caught (readLookingFor_ok hread).1 h
  · rw [broadcast_eq] at h
    cases h

end Handlers

end P2PShopping
