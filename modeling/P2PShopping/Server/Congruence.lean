import P2PShopping.Library.Relational
import P2PShopping.Server.Step

/-! What the handlers see of a server.

A handler looks at the clock, at whether a peer has an entry, at a search an offer is for,
and at whom a broadcast reaches. Two servers that agree on these, and go on doing so
whatever a handler writes, answer a message in the same way (`Congruent.dispatch`). -/
namespace P2PShopping
open Collections Json Handler Relational

variable {P : Type} [Double P]

/-- A relation of servers that shows in nothing a handler reads and that nothing a handler
writes breaks. -/
structure Congruent (R : Server P → Server P → Prop) : Prop where
  clock : ∀ {s t}, R s t → s.clock = t.clock
  known : ∀ {s t}, R s t → ∀ peerId,
    (s.peerSessions.lookup peerId).isSome = (t.peerSessions.lookup peerId).isSome
  send : ∀ {s t} message addr, R s t → R (s.send message addr) (t.send message addr)
  broadcast : ∀ {s t} searcherId message, R s t →
    R (s.sendAll message (recipients searcherId s.peerSessions.entries))
      (t.sendAll message (recipients searcherId t.peerSessions.entries))
  setSession : ∀ {s t} peerId session, R s t →
    R (s.setSession peerId session) (t.setSession peerId session)
  eraseSession : ∀ {s t} peerId, R s t →
    R {s with peerSessions := s.peerSessions.erase peerId}
      {t with peerSessions := t.peerSessions.erase peerId}
  detach : ∀ {s t} rq, R s t → R (s.detach rq) (t.detach rq)
  setSearch : ∀ {s t} search rq, R s t → R (s.setSearch search rq) (t.setSearch search rq)
  recordOffer : ∀ {s t} rq offer, R s t → R (recordOffer rq offer s) (recordOffer rq offer t)

section Respects
variable {R : Server P → Server P → Prop}

theorem respects_lift {α : Type} (x : Except Fault α) : Respects R (lift x : Handler P α) := by
  intro s t h
  cases x with
  | ok a => exact .ok a h
  | error fault => exact .error fault h

theorem respects_readKey {α : Type} (msg : Json P) (key : String)
    (get : Json P → Except Fault α) : Respects R (readKey msg key get : Handler P α) :=
  respects_lift _

namespace Congruent
variable (hR : Congruent R) (msg : Json P) (clientAddr : SockaddrIn)
include hR

theorem sendToClient (message : ServerMessage P) (addr : SockaddrIn) :
    Respects R (sendToClient message addr) :=
  respects_modify fun _ _ h => hR.send message addr h

theorem handleRegister : Respects R (handleRegister msg clientAddr) := by
  refine (respects_readKey _ _ _).bind fun _ => ?_
  refine respects_get_bind fun s t h => ?_
  simp only [hR.known h]
  split
  case isTrue => exact (respects_readKey _ _ _).bind (fun rq => hR.sendToClient _ _) s t h
  case isFalse =>
    refine (respects_modify fun _ _ h => hR.setSession _ _ h).bind (fun _ => ?_) s t h
    exact (respects_readKey _ _ _).bind fun rq => hR.sendToClient _ _

theorem handleDeregister : Respects R (handleDeregister msg clientAddr) := by
  refine (respects_modify fun _ _ h => hR.eraseSession _ h).bind fun _ => ?_
  exact (respects_readKey _ _ _).bind fun _ => respects_pure _

theorem handleLookingFor : Respects R (handleLookingFor msg clientAddr) := by
  refine (respects_readKey _ _ _).bind fun requestNumber => ?_
  refine (respects_readKey _ _ _).bind fun itemName => ?_
  refine (respects_readKey _ _ _).bind fun maxPrice => ?_
  refine (respects_readKey _ _ _).bind fun searcherName => ?_
  refine respects_get_bind fun s t h => ?_
  simp only [hR.clock h]
  refine (respects_modify fun _ _ h => hR.detach _ h).bind (fun _ => ?_) s t h
  refine (respects_modify fun _ _ h => hR.setSearch _ _ h).bind fun _ => ?_
  refine (respects_readKey _ _ _).bind fun description => ?_
  refine respects_get_bind fun s t h => ?_
  rw [broadcast_eq, broadcast_eq]
  exact .ok () (hR.broadcast _ _ h)

theorem handleOffer : Respects R (handleOffer msg clientAddr) := by
  refine (respects_readKey _ _ _).bind fun requestNumber => ?_
  refine (respects_readKey _ _ _).bind fun sellerName => ?_
  refine (respects_readKey _ _ _).bind fun itemName => ?_
  refine (respects_readKey _ _ _).bind fun offerPrice => ?_
  exact respects_modify fun _ _ h => hR.recordOffer _ _ h

/-- **A message is handled alike in related servers.** -/
theorem dispatch : Respects R (dispatch msg clientAddr) := by
  refine (respects_lift _).bind fun _ => ?_
  refine (respects_readKey _ _ _).bind fun command => ?_
  split
  case h_1 handler hlookup =>
    rcases commandHandlers_cases hlookup with ⟨-, rfl⟩ | ⟨-, rfl⟩ | ⟨-, rfl⟩ | ⟨-, rfl⟩
    · exact hR.handleRegister msg clientAddr
    · exact hR.handleDeregister msg clientAddr
    · exact hR.handleLookingFor msg clientAddr
    · exact hR.handleOffer msg clientAddr
  case h_2 => exact respects_pure _

end Congruent
end Respects
end P2PShopping
