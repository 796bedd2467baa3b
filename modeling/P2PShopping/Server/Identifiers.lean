import P2PShopping.Server.Gate

/-! Peers by their identifiers.

A session lies under the identifier of its address, and the identifier of an address is
that of no other (`getPeerIdentifier_inj`), so the table holds one session for each peer
at most, and leaving one key out of a broadcast leaves out one peer. -/
namespace P2PShopping
open Collections Json Handler Runs

variable {P : Type} [Double P]

section Recipients
variable {s : Server P}

/-- Two sessions have one address iff they lie under one key. -/
theorem SessionKeys.key_eq_iff (hkeys : SessionKeys s) {key key' : String}
    {session session' : PeerSession P} (h : s.peerSessions.lookup key = some (some session))
    (h' : s.peerSessions.lookup key' = some (some session')) :
    key = key' ↔ session.peerAddr = session'.peerAddr := by
  rw [← hkeys key session h, ← hkeys key' session' h', getPeerIdentifier_eq_iff]

theorem hasSession_iff (hkeys : SessionKeys s) {a : SockaddrIn} :
    hasSession s a = true ↔ ∃ session,
      s.peerSessions.lookup (getPeerIdentifier a) = some (some session) ∧ session.peerAddr = a := by
  rw [hasSession, Option.isSome_iff_exists]
  simp only [Option.join_eq_some_iff]
  constructor
  · intro hentry
    obtain ⟨session, hsession⟩ := hentry
    exact ⟨session, hsession, getPeerIdentifier_inj (hkeys _ session hsession)⟩
  · intro hentry
    obtain ⟨session, hsession, -⟩ := hentry
    exact ⟨session, hsession⟩

/-- **The broadcast leaves out the searcher, and nobody else** who has a session. -/
theorem mem_recipients_iff (hkeys : SessionKeys s) {a searcher : SockaddrIn} :
    a ∈ recipients (getPeerIdentifier searcher) s.peerSessions.entries ↔
      a ≠ searcher ∧ hasSession s a = true := by
  rw [hasSession_iff hkeys, mem_recipients]
  constructor
  · intro hmem
    obtain ⟨key, session, hlookup, hne, rfl⟩ := hmem
    have hkey := hkeys key session hlookup
    refine ⟨fun hsame => hne ?_, session, by rw [hkey, hlookup], rfl⟩
    rw [← hkey, hsame]
  · intro hmem
    obtain ⟨hne, session, hlookup, haddr⟩ := hmem
    exact ⟨getPeerIdentifier a, session, hlookup, getPeerIdentifier_eq_iff.not.mpr hne, haddr⟩

/-- It reaches nobody twice. -/
theorem nodup_recipients (hkeys : SessionKeys s) (searcherId : String) :
    (recipients searcherId s.peerSessions.entries).Nodup := by
  rw [recipients, List.Nodup, List.pairwise_filterMap]
  have hpairs := List.nodupKeys_iff_pairwise.mp s.peerSessions.nodupKeys
  refine hpairs.imp_of_mem ?_
  intro x y hx hy hne a ha b hb hsame
  obtain ⟨key, entry⟩ := x
  obtain ⟨key', entry'⟩ := y
  split at ha
  case isFalse => cases ha
  case isTrue =>
    split at hb
    case isFalse => cases hb
    case isTrue =>
      obtain ⟨session, rfl, rfl⟩ := Option.map_eq_some_iff.mp ha
      obtain ⟨session', rfl, rfl⟩ := Option.map_eq_some_iff.mp hb
      have hlookup : s.peerSessions.lookup key = some (some session) := Map.mem_entries_iff.mp hx
      have hlookup' : s.peerSessions.lookup key' = some (some session') :=
        Map.mem_entries_iff.mp hy
      exact hne ((hkeys.key_eq_iff hlookup hlookup').mpr hsame)

end Recipients

/-- **Peer identifiers are unambiguous**: equal ones belong to one address and port. So no
two peers share a key of the sessions, and a search is broadcast to every peer with a
session but the searcher, once to each. -/
theorem peer_identifiers_unambiguous :
    (∀ a b : SockaddrIn, getPeerIdentifier a = getPeerIdentifier b →
      (a.octet₀ = b.octet₀ ∧ a.octet₁ = b.octet₁ ∧ a.octet₂ = b.octet₂ ∧ a.octet₃ = b.octet₃) ∧
        a.port = b.port) ∧
    ∀ (s : Server P) (tr : List (ServerInput P × Sent P)), Run (serverMachine P) {} tr s →
      (∀ key key' session session', s.peerSessions.lookup key = some (some session) →
        s.peerSessions.lookup key' = some (some session') →
        (key = key' ↔ session.peerAddr = session'.peerAddr)) ∧
      ∀ msg searcher s', handleLookingFor msg searcher s = .ok () s' →
        ∃ (message : ServerMessage P) (addrs : List SockaddrIn),
          s'.outbox = s.outbox ++ addrs.map (message, ·) ∧ addrs.Nodup ∧
          ∀ a, a ∈ addrs ↔ a ≠ searcher ∧ hasSession s a = true := by
  constructor
  · intro a b h
    obtain rfl := getPeerIdentifier_inj h
    exact ⟨⟨rfl, rfl, rfl, rfl⟩, rfl⟩
  · intro s tr h
    have hkeys := sessionKeys_run h
    refine ⟨fun _ _ _ _ hx hy => hkeys.key_eq_iff hx hy, fun msg searcher s' hhandled => ?_⟩
    obtain ⟨rq, name, item, maxPrice, description, -, -, -, -, -, rfl⟩ :=
      handleLookingFor_ok hhandled
    exact ⟨.search rq item description, _, rfl, nodup_recipients hkeys _,
      fun a => mem_recipients_iff hkeys⟩

/-- Two peers register, on ports one of which begins like the other. -/
def neighbours : List (ServerInput Rat) :=
  [.receive (ClientMessage.register 1 "peer1" "127.0.0.1" 500 6001).toJson (loopback 500),
   .receive (ClientMessage.register 1 "peer2" "127.0.0.1" 5001 6002).toJson (loopback 5001)]

/-- The LOOKING_FOR of the first. -/
def neighboursSearch : Json Rat :=
  (ClientMessage.lookingFor 2 "peer1" "lamp" "old" 10).toJson

theorem peer_identifiers_unambiguous_neighbours :
    getPeerIdentifier (loopback 500) ≠ getPeerIdentifier (loopback 5001) ∧
    ∃ (s s' : Server Rat) (tr : List (ServerInput Rat × Sent Rat)) (addrs : List SockaddrIn),
      Run (serverMachine Rat) {} tr s ∧
      handleLookingFor neighboursSearch (loopback 500) s = .ok () s' ∧ addrs.Nodup ∧
      ∀ a, a ∈ addrs ↔ a ≠ loopback 500 ∧ hasSession s a = true := by
  constructor
  · intro hsame
    exact absurd ((peer_identifiers_unambiguous (P := Rat)).1 _ _ hsame).2 (by decide)
  obtain ⟨s, tr, hrun, hview⟩ := (serverMachine Rat).exec_view {} neighbours
    (fun r => match handleLookingFor neighboursSearch (loopback 500) r.1 with
      | .ok _ _ => true
      | .error _ _ => false) (v := true) (by decide +kernel)
  cases hhandled : handleLookingFor neighboursSearch (loopback 500) s with
  | error fault s' => simp [hhandled] at hview
  | ok u s' =>
    obtain ⟨message, addrs, -, hnodup, hmem⟩ :=
      (peer_identifiers_unambiguous.2 s tr hrun).2 neighboursSearch (loopback 500) s' hhandled
    exact ⟨s, s', tr, addrs, hrun, hhandled, hnodup, hmem⟩

end P2PShopping
