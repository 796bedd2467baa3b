import P2PShopping.Library.Simulation
import P2PShopping.Server.Congruence
import P2PShopping.System.Delivery
import P2PShopping.System.Network
import P2PShopping.Wire.Alike
import Mathlib.Data.List.InsertIdx

/-! The network with texts in its datagrams.

`Network` hands messages over as values; here a datagram is the dump of a message, goes
through the buffer of the receiver and is parsed there. Nothing new can happen
(`texts_simulated`): a text that fits is handled as the message it was made from, and
one that does not is cut to a text that does not parse, which is a loss. -/
namespace P2PShopping
open Collections Json Runs Buffers OrderedMaps

variable {P : Type}

/-! ### The texts of messages -/

/-- What stands in a message besides containers. -/
inductive Json.Leaf : Json P → Prop where
  | int {n : Int} : -2 ^ 63 ≤ n → n < 2 ^ 64 → Leaf (.int n)
  | float {x : P} : Leaf (.float x)
  | str {s : String} : Leaf (.str s)

/-- An object of such, with different keys. -/
inductive Json.Flat : Json P → Prop where
  | intro {members : List (String × Json P)} : (members.map Prod.fst).Nodup →
      (∀ m ∈ members, Leaf m.2) → Flat (.obj members)

theorem Json.Leaf.normal {j : Json P} (h : Leaf j) : j.normal = j ∧ Representable j := by
  cases h with
  | int hlow hhigh => exact ⟨rfl, hlow, hhigh⟩
  | float => exact ⟨rfl, trivial⟩
  | str => exact ⟨rfl, trivial⟩

theorem Json.Flat.representable {j : Json P} (h : Flat j) : Representable j := by
  obtain ⟨hkeys, hleaves⟩ := h
  exact ⟨hkeys, representableMembers_iff.mpr fun m hm => (hleaves m hm).normal.2⟩

theorem Json.Flat.normalMembers_eq {members : List (String × Json P)}
    (h : ∀ m ∈ members, Leaf m.2) : normalMembers members = members := by
  rw [normalMembers_eq_map]
  refine (List.map_congr_left fun m hm => ?_).trans (List.map_id _)
  rw [(h m hm).normal.1]
  rfl

/-- What a parse makes of its text has the same under each key. -/
theorem Json.Flat.alike {j : Json P} (h : Flat j) : Alike j.normal j := by
  obtain ⟨hkeys, hleaves⟩ := h
  refine .intro fun key => ?_
  rw [Flat.normalMembers_eq hleaves, lookup_putAll, List.append_nil]
  exact lookup_perm (List.reverse_perm _)
    ((List.reverse_perm _).map Prod.fst |>.nodup_iff.mpr hkeys)
    key

theorem leaf_int32 (n : Int32) : Leaf (.int n.toInt : Json P) := by
  have hlow := n.le_toInt
  have hhigh := n.toInt_lt
  exact .int (by omega) (by omega)

theorem leaf_port (n : UInt16) : Leaf (.int n.toNat : Json P) := by
  have hhigh := n.toNat_lt
  exact .int (by omega) (by omega)

theorem ClientMessage.flat (m : ClientMessage P) : m.toJson.Flat := by
  cases m with
  | register rq name ip udpPort tcpPort =>
    refine .intro (by simp) ?_
    simp [leaf_int32, leaf_port, Leaf.str]
  | deRegister rq name =>
    refine .intro (by simp) ?_
    simp [leaf_int32, Leaf.str]
  | lookingFor rq name itemName description maxPrice =>
    refine .intro (by simp) ?_
    simp [leaf_int32, Leaf.str, Leaf.float]
  | negotiate | accept | refuse | offer =>
    refine .intro (by simp) ?_
    simp [leaf_int32, Leaf.str, Leaf.float]

/-- The messages whose copied values are those of a client's message. -/
def ServerMessage.Plain : ServerMessage P → Prop
  | .registered rq | .registerDenied rq _ => ∃ n : Int32, rq = .int n.toInt
  | .search _ _ description => ∃ s, description = .str s
  | _ => True

theorem ServerMessage.Plain.flat {m : ServerMessage P} (h : m.Plain) : m.toJson.Flat := by
  cases m with
  | registered rq =>
    obtain ⟨n, rfl⟩ := h
    refine .intro (by simp) ?_
    simp [leaf_int32, Leaf.str]
  | registerDenied rq reason =>
    obtain ⟨n, rfl⟩ := h
    refine .intro (by simp) ?_
    simp [leaf_int32, Leaf.str]
  | search rq itemName description =>
    obtain ⟨s, rfl⟩ := h
    refine .intro (by simp) ?_
    simp [leaf_int32, Leaf.str]
  | notAvailable | found | negotiate =>
    refine .intro (by simp) ?_
    simp [leaf_int32, Leaf.str, Leaf.float]

/-! ### Through a buffer and the parser -/

section Received
variable {dumpFloat : P → List UInt8} {strtod : List UInt8 → Option P}

theorem digits_nonzero {digits : List UInt8} (h : ∀ b ∈ digits, isDigitByte b = true) :
    0 ∉ digits := by
  intro hzero
  cases h 0 hzero

theorem Json.FloatFormat.no_nul (hformat : FloatFormat dumpFloat strtod) (x : P) :
    0 ∉ dumpFloat x := by
  obtain ⟨negative, whole, fraction, exponent, htext, hwhole, hfraction, hexponent, -⟩ :=
    hformat.numeral x
  have hsign : (0 : UInt8) ∉ (if negative then [0x2d] else []) := by
    cases negative <;> decide
  have hfraction' : 0 ∉ fraction := by
    cases hfraction with
    | none => exact List.not_mem_nil
    | digits hdigits =>
      simp only [List.mem_cons, not_or]
      exact ⟨by decide, digits_nonzero hdigits.2⟩
  have hexponent' : 0 ∉ exponent := by
    cases hexponent with
    | none => exact List.not_mem_nil
    | unsigned he hdigits =>
      simp only [List.mem_cons, not_or]
      refine ⟨?_, digits_nonzero hdigits.2⟩
      obtain rfl | rfl := he <;> decide
    | signed he hsign hdigits =>
      simp only [List.mem_cons, not_or]
      refine ⟨?_, ?_, digits_nonzero hdigits.2⟩
      · obtain rfl | rfl := he <;> decide
      · obtain rfl | rfl := hsign <;> decide
  rw [htext]
  simp only [List.mem_append, not_or]
  exact ⟨hsign, ⟨digits_nonzero hwhole.all_digits, hfraction'⟩, hexponent'⟩

variable (strtod) in
/-- What a receiver with a buffer of this size reads out of a datagram. -/
def received {size : Nat} (buffer : Vector UInt8 size) (datagram : List UInt8) :
    Option (Json P) :=
  match receive buffer datagram with
  | none => none
  | some text =>
    match parse strtod text with
    | .ok j => some j
    | .error _ => none

/-- What a datagram without a NUL leaves of itself. -/
theorem receive_eq_take {size : Nat} (buffer : Vector UInt8 size) {datagram : List UInt8}
    (hnul : 0 ∉ datagram) (hsize : 1 < size) (hne : datagram ≠ []) :
    receive buffer datagram = some (datagram.take (size - 1)) := by
  have hpos : 0 < datagram.length := List.length_pos_iff.mpr hne
  have hlength : (recvfrom datagram (size - 1)).length > 0 := by
    simp only [recvfrom, List.length_take]
    omega
  have hfits : (recvfrom datagram (size - 1)).length < buffer.toList.length := by
    simp only [recvfrom, List.length_take, Vector.length_toList]
    omega
  rw [receive, if_pos hlength,
    cString_fill hfits fun hzero => hnul (List.mem_of_mem_take hzero)]
  rfl

/-- A dumped object that is cut does not parse. -/
theorem parse_cut (hformat : FloatFormat dumpFloat strtod) {members : List (String × Json P)}
    (h : Representable (.obj members)) {size : Nat}
    (hlong : size ≤ ((Json.obj members).dump dumpFloat).length) (hsize : 1 < size) :
    ∃ fault, parse strtod (((Json.obj members).dump dumpFloat).take (size - 1)) = .error fault := by
  cases hparse : parse strtod (((Json.obj members).dump dumpFloat).take (size - 1)) with
  | error fault => exact ⟨fault, rfl⟩
  | ok v =>
    have hdrop := parse_prefix hformat h (List.take_append_drop _ _) hparse
    have hlength := congrArg List.length hdrop
    simp only [List.length_drop, List.length_nil] at hlength
    omega

theorem dump_obj_ne_nil (members : List (String × Json P)) :
    (Json.obj members).dump dumpFloat ≠ [] := by
  rw [dump_obj]
  simp

/-- **A dumped object that does not fit the buffer is received as a text that
`json::parse` rejects.** -/
theorem cut_text_rejected (hformat : FloatFormat dumpFloat strtod) {size : Nat} (hsize : 1 < size)
    (buffer : Vector UInt8 size) {members : List (String × Json P)}
    (h : Representable (.obj members))
    (hlong : size ≤ ((Json.obj members).dump dumpFloat).length) :
    ∃ text fault, receive buffer ((Json.obj members).dump dumpFloat) = some text ∧
      parse strtod text = .error fault := by
  obtain ⟨fault, hparse⟩ := parse_cut hformat h hlong hsize
  exact ⟨_, fault, receive_eq_take buffer (dump_no_nul hformat.no_nul _) hsize
    (dump_obj_ne_nil members), hparse⟩

/-- The FOUND of the lamp, in a buffer of forty bytes. -/
theorem cut_text_rejected_found : ∃ text fault,
    receive (Vector.replicate 40 0) ((Json.obj foundMembers).dump dumpWhole) = some text ∧
      parse strtodWhole text = .error fault :=
  cut_text_rejected whole_format (by decide) _ representable_found (by decide +kernel)

/-- A dumped object is received whole or not at all. -/
theorem received_dump (hformat : FloatFormat dumpFloat strtod) {size : Nat} (hsize : 1 < size)
    (buffer : Vector UInt8 size) {j : Json P} (h : j.Flat) :
    received strtod buffer (j.dump dumpFloat) =
      if (j.dump dumpFloat).length < size then some j.normal else none := by
  have hrepresentable := h.representable
  have hnul := dump_no_nul hformat.no_nul j
  obtain ⟨members, rfl⟩ : ∃ members, j = .obj members := by
    obtain ⟨-, -⟩ := h
    exact ⟨_, rfl⟩
  have htext := receive_eq_take buffer hnul hsize (dump_obj_ne_nil members)
  rw [received, htext]
  simp only
  split_ifs with hlength
  · rw [List.take_of_length_le (by omega), parse_dump hformat hrepresentable]
  · obtain ⟨fault, hparse⟩ := parse_cut hformat hrepresentable (not_lt.mp hlength) hsize
    rw [hparse]

end Received

/-! ### Handlers do not look at the workers -/

section Workers
variable [Double P]
open Handler

def Server.withWorkers (s : Server P) (workers : List (Json P × SockaddrIn)) : Server P :=
  {s with workers}

theorem recordOffer_withWorkers (requestNumber : Int32) (offer : OfferInfo P) (s : Server P)
    (workers : List (Json P × SockaddrIn)) :
    recordOffer requestNumber offer (s.withWorkers workers) =
      (recordOffer requestNumber offer s).withWorkers workers := by
  have hlookup' : (s.withWorkers workers).activeSearches.lookup requestNumber =
      s.activeSearches.lookup requestNumber := rfl
  unfold recordOffer
  rw [hlookup']
  cases s.activeSearches.lookup requestNumber with
  | none => rfl
  | some search =>
    simp only
    by_cases hprocessed : search.offersProcessed = true
    · rw [if_pos hprocessed, if_pos hprocessed]
    · rw [if_neg hprocessed, if_neg hprocessed]
      by_cases hopen : s.clock - search.startTime < minute
      · rw [if_pos hopen, if_pos (show (s.withWorkers workers).clock - _ < minute from hopen)]
        rfl
      · rw [if_neg hopen, if_neg (show ¬ (s.withWorkers workers).clock - _ < minute from hopen)]

/-- Another list of workers shows in nothing a handler does. -/
theorem congruent_withWorkers (workers : List (Json P × SockaddrIn)) :
    Congruent fun s t : Server P => t = s.withWorkers workers where
  clock := by rintro s _ rfl; rfl
  known := by rintro s _ rfl peerId; rfl
  send := by rintro s _ message addr rfl; rfl
  broadcast := by rintro s _ searcherId message rfl; rfl
  setSession := by rintro s _ peerId session rfl; rfl
  eraseSession := by rintro s _ peerId rfl; rfl
  detach := by rintro s _ rq rfl; rfl
  setSearch := by rintro s _ search rq rfl; rfl
  recordOffer := by rintro s _ rq offer rfl; exact recordOffer_withWorkers rq offer s workers

end Workers

/-! ### The network -/

section Network
variable [Double P]

/-- Datagrams in flight are texts, with the address of the client. -/
abbrev Texts := List (List UInt8 × SockaddrIn)

structure TextSystem (P : Type) [Double P] where
  server : Server P := {}
  clients : SockaddrIn → P2PClient P
  toServer : Texts := []
  toClient : Texts := []

/-- The moves of the network; a receiver's buffer holds anything before. -/
inductive TextMove (P : Type) where
  | user (a : SockaddrIn) (op : UserOp P) (sent : Bool)
  | serve (k : Nat) (buffer : Vector UInt8 1024)
  | deliver (k : Nat) (buffer : Vector UInt8 4096) (sent : Bool)
  | loseUp (k : Nat)
  | loseDown (k : Nat)
  | push (k : Nat)
  | event
  | timeout (k : Nat)
  | tick (d : Nat)

/-- The datagrams that were sent. -/
structure TextLog where
  up : Texts := []
  down : Texts := []

variable (dumpFloat : P → List UInt8) (strtod : List UInt8 → Option P)

omit [Double P] in
/-- What `sendMessage` and `sendToClient` put on the wire. -/
def datagramOf {M : Type} (toJson : M → Json P) (d : M × SockaddrIn) : List UInt8 × SockaddrIn :=
  ((toJson d.1).dump dumpFloat, d.2)

namespace TextSystem

def act (s : TextSystem P) (a : SockaddrIn) (effect : P2PClient P × Option (ClientMessage P)) :
    TextSystem P × TextLog :=
  let up := (effect.2.toList.map (·, a)).map (datagramOf dumpFloat ClientMessage.toJson)
  ({s with clients := Function.update s.clients a effect.1, toServer := s.toServer ++ up}, {up})

def serverStep (s : TextSystem P) (input : ServerInput P) : Option (TextSystem P × TextLog) :=
  match s.server.step input with
  | none => none
  | some (server, sent) =>
    let down := sent.map (datagramOf dumpFloat ServerMessage.toJson)
    some ({s with server, toClient := s.toClient ++ down}, {down})

/-- A text that does not parse only prints: `handleNewMessage` and `parseMessage` catch
the exception. -/
def step (s : TextSystem P) : TextMove P → Option (TextSystem P × TextLog)
  | .user a op sent =>
    if (s.clients a).running then some (s.act dumpFloat a (op.run (s.clients a) sent)) else none
  | .serve k buffer =>
    match s.toServer[k]? with
    | none => none
    | some (datagram, a) =>
      match received strtod buffer datagram with
      | none => some ({s with toServer := s.toServer.eraseIdx k}, {})
      | some j => {s with toServer := s.toServer.eraseIdx k}.serverStep dumpFloat (.receive j a)
  | .deliver k buffer sent =>
    match s.toClient[k]? with
    | none => none
    | some (datagram, a) =>
      match received strtod buffer datagram with
      | none => some ({s with toClient := s.toClient.eraseIdx k}, {})
      | some j =>
        some ({s with toClient := s.toClient.eraseIdx k}.act dumpFloat a
          ((s.clients a).handleReceivedMessage j sent))
  | .loseUp k => some ({s with toServer := s.toServer.eraseIdx k}, {})
  | .loseDown k => some ({s with toClient := s.toClient.eraseIdx k}, {})
  | .push k => s.serverStep dumpFloat (.push k)
  | .event => s.serverStep dumpFloat .event
  | .timeout k => s.serverStep dumpFloat (.timeout k)
  | .tick d => s.serverStep dumpFloat (.tick d)

/-- As `System.start`. -/
def start (peers : SockaddrIn → Option ClientConfig) : TextSystem P where
  clients := (System.start peers).clients

end TextSystem

/-- The network with this way of writing and reading floats. -/
def textNetwork : Machine (TextSystem P) (TextMove P) TextLog := ⟨TextSystem.step dumpFloat strtod⟩

/-! ### Nothing new happens -/

/-- A worker with the text of a message instead of the message. -/
def asRead (w : Json P × SockaddrIn) : Json P × SockaddrIn := (w.1.normal, w.2)

/-- The texts are those of the messages, and what the server has read is what was sent. -/
structure Writes (t : TextSystem P) (s : System P) : Prop where
  server : t.server = s.server.withWorkers (s.server.workers.map asRead)
  clients : t.clients = s.clients
  toServer : t.toServer = s.toServer.map (datagramOf dumpFloat ClientMessage.toJson)
  toClient : t.toClient = s.toClient.map (datagramOf dumpFloat ServerMessage.toJson)
  workers : ∀ w ∈ s.server.workers, ∃ m : ClientMessage P, w.1 = m.toJson
  plain : ∀ d ∈ s.toClient, d.1.Plain

/-- The server whose workers have read texts. -/
def Server.reading (s : Server P) : Server P := s.withWorkers (s.workers.map asRead)

theorem processEvents_withWorkers (event : P2PEvent P) (a : SockaddrIn) (s : Server P)
    (workers : List (Json P × SockaddrIn)) :
    processEvents event a (s.withWorkers workers) =
        (processEvents event a s).withWorkers workers ∧
      (processEvents event a s).workers = s.workers := by
  have hlookup : (s.withWorkers workers).peerSessions.lookup (getPeerIdentifier a) =
      s.peerSessions.lookup (getPeerIdentifier a) := rfl
  simp only [processEvents]
  rw [hlookup]
  cases s.peerSessions.lookup (getPeerIdentifier a) with
  | none => exact ⟨rfl, rfl⟩
  | some session =>
    cases session with
    | none => exact ⟨rfl, rfl⟩
    | some session => exact ⟨rfl, rfl⟩

theorem processOffers_withWorkers (rq : Int32) (s : Server P)
    (workers : List (Json P × SockaddrIn)) :
    processOffersAfterTimeout rq (s.withWorkers workers) =
        (processOffersAfterTimeout rq s).withWorkers workers ∧
      (processOffersAfterTimeout rq s).workers = s.workers := by
  have hlookup : (s.withWorkers workers).activeSearches.lookup rq =
      s.activeSearches.lookup rq := rfl
  simp only [processOffersAfterTimeout]
  rw [hlookup]
  cases s.activeSearches.lookup rq with
  | none => exact ⟨rfl, rfl⟩
  | some search =>
    simp only
    split_ifs
    · exact ⟨rfl, rfl⟩
    · split
      · exact ⟨rfl, rfl⟩
      · split_ifs <;> exact ⟨rfl, rfl⟩

/-- A worker that has read the text of a message does what the message asks for. -/
theorem receive_reading (s : Server P) (m : ClientMessage P) (a : SockaddrIn) :
    s.reading.step (.receive m.toJson.normal a) =
      (s.step (.receive m.toJson a)).map fun r => (r.1.reading, r.2) := by
  have hstart : ({s.reading with outbox := []} : Server P) =
      Server.withWorkers {s with outbox := []} (s.workers.map asRead) := rfl
  have hsame := (congruent_withWorkers (s.workers.map asRead)).dispatch m.toJson a
    {s with outbox := []} _ rfl
  simp only [Server.step]
  rw [dispatch_alike m.flat.alike, hstart]
  generalize hresult : dispatch m.toJson a {s with outbox := []} = result,
    dispatch m.toJson a (Server.withWorkers _ _) = result' at hsame ⊢
  cases hsame with
  | @ok _ s' t h =>
    have hworkers : s'.workers = s.workers := (dispatch_ok hresult).2.workers
    subst h
    simp [Server.flush, Server.finish, Server.reading, Server.withWorkers, hworkers, asRead]
  | @error fault s' t h =>
    subst h
    simp only
    split_ifs with hcaught
    · rw [dispatch_error hcaught hresult]
      rfl
    · rfl

/-- So does the event it pushes. -/
theorem push_reading (s : Server P) (k : Nat)
    (h : ∀ w ∈ s.workers, ∃ m : ClientMessage P, w.1 = m.toJson) :
    s.reading.step (.push k) = (s.step (.push k)).map fun r => (r.1.reading, r.2) := by
  have hworker : s.reading.workers[k]? = (s.workers[k]?).map asRead := by
    show (s.workers.map asRead)[k]? = _
    exact List.getElem?_map ..
  simp only [Server.step]
  rw [hworker]
  cases hk : s.workers[k]? with
  | none => rfl
  | some w =>
    obtain ⟨j, a⟩ := w
    obtain ⟨m, hm⟩ := h (j, a) (List.mem_of_getElem? hk)
    obtain rfl : j = m.toJson := hm
    have hevent := MessageParser.parseMessage_alike m.flat.alike
    simp only [Option.map_some, asRead, pushEvent, hevent]
    cases MessageParser.parseMessage m.toJson with
    | none => simp [Server.flush, Server.reading, Server.withWorkers, List.eraseIdx_map]
    | some event => simp [Server.flush, Server.reading, Server.withWorkers, List.eraseIdx_map]

/-- The other steps do not look at the workers. -/
theorem step_reading (s : Server P) (input : ServerInput P)
    (hreceive : ∀ j a, input ≠ .receive j a) (hpush : ∀ k, input ≠ .push k) :
    s.reading.step input = (s.step input).map fun r => (r.1.reading, r.2) := by
  cases input with
  | receive j a => exact absurd rfl (hreceive j a)
  | push k => exact absurd rfl (hpush k)
  | event =>
    have hqueue : s.reading.eventQueue = s.eventQueue := rfl
    simp only [Server.step]
    rw [hqueue]
    cases s.eventQueue with
    | nil => rfl
    | cons e rest =>
      obtain ⟨event, a⟩ := e
      obtain ⟨hframe, hworkers⟩ := processEvents_withWorkers event a
        {s with eventQueue := rest, outbox := []} (s.workers.map asRead)
      have hstart : ({s.reading with eventQueue := rest, outbox := []} : Server P) =
          Server.withWorkers {s with eventQueue := rest, outbox := []} (s.workers.map asRead) := rfl
      simp only [Option.map_some]
      rw [hstart, hframe, Server.flush, Server.flush, Server.reading]
      simp only [hworkers]
      rfl
  | timeout k =>
    have hthreads : s.reading.timeoutThreads = s.timeoutThreads := rfl
    simp only [Server.step]
    rw [hthreads]
    cases s.timeoutThreads[k]? with
    | none => rfl
    | some thread =>
      obtain ⟨rq, started⟩ := thread
      obtain ⟨hframe, hworkers⟩ := processOffers_withWorkers rq
        {s with timeoutThreads := s.timeoutThreads.eraseIdx k, outbox := []} (s.workers.map asRead)
      have hstart :
          ({s.reading with timeoutThreads := s.timeoutThreads.eraseIdx k, outbox := []} :
            Server P) = Server.withWorkers
              {s with timeoutThreads := s.timeoutThreads.eraseIdx k, outbox := []}
              (s.workers.map asRead) := rfl
      simp only [Option.map_some]
      rw [hstart, hframe, Server.flush, Server.flush, Server.reading]
      simp only [hworkers]
      rfl
  | tick d => rfl

/-- What a step of the server leaves: the workers have read messages, and what is sent is
plain. -/
theorem step_plain {s s' : Server P} {input : ServerInput P} {sent : Sent P}
    (hinput : ∀ j a, input = .receive j a → ∃ m : ClientMessage P, j = m.toJson)
    (hworkers : ∀ w ∈ s.workers, ∃ m : ClientMessage P, w.1 = m.toJson)
    (h : s.step input = some (s', sent)) :
    (∀ w ∈ s'.workers, ∃ m : ClientMessage P, w.1 = m.toJson) ∧ ∀ d ∈ sent, d.1.Plain := by
  cases input with
  | receive j a =>
    obtain ⟨m, rfl⟩ := hinput j a rfl
    have htook : ∀ w ∈ s.workers ++ [(m.toJson, a)], ∃ m : ClientMessage P, w.1 = m.toJson :=
      List.forall_mem_append.mpr ⟨hworkers, List.forall_mem_singleton.mpr ⟨m, rfl⟩⟩
    cases receive_served h with
    | denied => exact ⟨htook, List.forall_mem_singleton.mpr ⟨_, rfl⟩⟩
    | registered => exact ⟨htook, List.forall_mem_singleton.mpr ⟨_, rfl⟩⟩
    | searched =>
      refine ⟨htook, fun d hd => ?_⟩
      obtain ⟨addr, -, rfl⟩ := List.mem_map.mp hd
      exact ⟨_, rfl⟩
    | deregistered | offered | negotiated | accepted | refused =>
      exact ⟨htook, fun d hd => absurd hd List.not_mem_nil⟩
  | push k =>
    obtain ⟨rfl, events, -, rfl⟩ := push_step h
    exact ⟨fun w hw => hworkers w (mem_of_mem_eraseIdx hw), fun d hd => absurd hd List.not_mem_nil⟩
  | event =>
    obtain ⟨rfl, event, a, rest, sessions, machine, -, rfl, -⟩ := event_step h
    exact ⟨hworkers, fun d hd => absurd hd List.not_mem_nil⟩
  | timeout k =>
    obtain ⟨rq, started, -, rfl, rfl⟩ := timeout_step h
    refine ⟨hworkers, fun d hd => ?_⟩
    obtain ⟨search, -, rfl⟩ := Option.map_eq_some_iff.mp (Option.mem_toList.mp hd)
    unfold verdict
    split
    · trivial
    · split_ifs <;> trivial
  | tick d =>
    obtain ⟨rfl, rfl⟩ := tick_step h
    exact ⟨hworkers, fun d hd => absurd hd List.not_mem_nil⟩

omit [Double P] in
/-- The move of messages that a move of texts stands for: a text that is cut is lost. -/
inductive StandsFor : TextMove P → Move P → Prop where
  | user {a : SockaddrIn} {op : UserOp P} {sent : Bool} :
      StandsFor (.user a op sent) (.user a op sent)
  | serve {k : Nat} {buffer : Vector UInt8 1024} : StandsFor (.serve k buffer) (.serve k)
  | cutUp {k : Nat} {buffer : Vector UInt8 1024} : StandsFor (.serve k buffer) (.loseUp k)
  | deliver {k : Nat} {buffer : Vector UInt8 4096} {sent : Bool} :
      StandsFor (.deliver k buffer sent) (.deliver k sent)
  | cutDown {k : Nat} {buffer : Vector UInt8 4096} {sent : Bool} :
      StandsFor (.deliver k buffer sent) (.loseDown k)
  | loseUp {k : Nat} : StandsFor (.loseUp k) (.loseUp k)
  | loseDown {k : Nat} : StandsFor (.loseDown k) (.loseDown k)
  | push {k : Nat} : StandsFor (.push k) (.push k)
  | event : StandsFor .event .event
  | timeout {k : Nat} : StandsFor (.timeout k) (.timeout k)
  | tick {d : Nat} : StandsFor (.tick d) (.tick d)

/-- The texts that were sent are those of the messages that were sent. -/
def SentAlike (o : TextLog) (o' : Log P) : Prop :=
  o.up = o'.up.map (datagramOf dumpFloat ClientMessage.toJson) ∧
    o.down = o'.down.map (datagramOf dumpFloat ServerMessage.toJson)

section Step
variable {dumpFloat strtod} {t t' : TextSystem P} {s : System P} {o : TextLog}

/-- A step of the server that reads texts is one of the server that reads messages. -/
theorem Writes.serverStep (h : Writes dumpFloat t s) (input input' : ServerInput P)
    (hinput : ∀ j a, input' = .receive j a → ∃ m : ClientMessage P, j = m.toJson)
    (hserver : t.server.step input =
      (s.server.step input').map fun r => (r.1.reading, r.2)) (log : Log P) (hup : log.up = [])
    (hstep : t.serverStep dumpFloat input = some (t', o)) :
    ∃ o' s', s.serverStep input' log = some (s', o') ∧ Writes dumpFloat t' s' ∧
      SentAlike dumpFloat o o' := by
  unfold TextSystem.serverStep at hstep
  rw [hserver] at hstep
  cases hs : s.server.step input' with
  | none =>
    rw [hs] at hstep
    cases hstep
  | some r =>
    obtain ⟨server, sent⟩ := r
    rw [hs] at hstep
    cases hstep
    obtain ⟨hworkers, hplain⟩ := step_plain hinput h.workers hs
    refine ⟨{log with down := sent}, {s with server, toClient := s.toClient ++ sent}, ?_, ?_, ?_⟩
    · rw [System.serverStep, hs]
    · exact ⟨rfl, h.clients, h.toServer, by simp [h.toClient], hworkers,
        List.forall_mem_append.mpr ⟨h.plain, hplain⟩⟩
    · exact ⟨by simp [hup], rfl⟩

/-- What a client does with a text is what it does with the message. -/
theorem handle_alike (c : P2PClient P) {j j' : Json P} (h : Alike j j') (sent : Bool) :
    c.handleReceivedMessage j sent = c.handleReceivedMessage j' sent := by
  rw [P2PClient.handleReceivedMessage, P2PClient.handleReceivedMessage,
    MessageParser.parseMessage_alike h]

theorem Writes.act (h : Writes dumpFloat t s) (a : SockaddrIn)
    (effect : P2PClient P × Option (ClientMessage P)) :
    Writes dumpFloat (t.act dumpFloat a effect).1 (s.act a effect).1 ∧
      SentAlike dumpFloat (t.act dumpFloat a effect).2 (s.act a effect).2 := by
  refine ⟨⟨h.server, ?_, ?_, h.toClient, h.workers, h.plain⟩, rfl, rfl⟩
  · simp [TextSystem.act, System.act, h.clients]
  · simp [TextSystem.act, System.act, h.toServer]

/-- Of datagrams in flight, one leaves. -/
theorem Writes.takeUp (h : Writes dumpFloat t s) (k : Nat) :
    Writes dumpFloat {t with toServer := t.toServer.eraseIdx k}
      {s with toServer := s.toServer.eraseIdx k} :=
  ⟨h.server, h.clients, by simp [h.toServer, List.eraseIdx_map], h.toClient, h.workers, h.plain⟩

theorem Writes.takeDown (h : Writes dumpFloat t s) (k : Nat) :
    Writes dumpFloat {t with toClient := t.toClient.eraseIdx k}
      {s with toClient := s.toClient.eraseIdx k} :=
  ⟨h.server, h.clients, h.toServer, by simp [h.toClient, List.eraseIdx_map], h.workers,
    fun d hd => h.plain d (mem_of_mem_eraseIdx hd)⟩

theorem Writes.step (hformat : FloatFormat dumpFloat strtod) {l : TextMove P}
    (h : Writes dumpFloat t s) (hstep : t.step dumpFloat strtod l = some (t', o)) :
    ∃ l' o' s', s.step l' = some (s', o') ∧ Writes dumpFloat t' s' ∧ StandsFor l l' ∧
      SentAlike dumpFloat o o' := by
  have hreads : t.server = s.server.reading := h.server
  cases l with
  | user a op sent =>
    have hclient : t.clients a = s.clients a := congrFun h.clients a
    simp only [TextSystem.step, hclient] at hstep
    split at hstep
    case isTrue hrunning =>
      cases hstep
      obtain ⟨hwrites, hsent⟩ := h.act a (op.run (s.clients a) sent)
      exact ⟨.user a op sent, _, _, if_pos hrunning, hwrites, .user, hsent⟩
    case isFalse => cases hstep
  | serve k buffer =>
    simp only [TextSystem.step] at hstep
    have htext : t.toServer[k]? =
        (s.toServer[k]?).map (datagramOf dumpFloat ClientMessage.toJson) := by
      rw [h.toServer]
      exact List.getElem?_map ..
    cases hk : s.toServer[k]? with
    | none =>
      rw [htext, hk] at hstep
      cases hstep
    | some d =>
      obtain ⟨m, a⟩ := d
      rw [htext, hk] at hstep
      simp only [Option.map_some, datagramOf,
        received_dump hformat (by decide) buffer m.flat] at hstep
      by_cases hfits : (m.toJson.dump dumpFloat).length < 1024
      · rw [if_pos hfits] at hstep
        have hserver := receive_reading s.server m a
        rw [← hreads] at hserver
        obtain ⟨o', s', hs', hwrites, hsent⟩ := (h.takeUp k).serverStep
          (.receive m.toJson.normal a) (.receive m.toJson a)
          (fun j b hj => by cases hj; exact ⟨m, rfl⟩) hserver {served := some (m, a)} rfl hstep
        refine ⟨.serve k, o', s', ?_, hwrites, .serve, hsent⟩
        rw [System.step, hk]
        exact hs'
      · rw [if_neg hfits] at hstep
        cases hstep
        exact ⟨.loseUp k, {}, _, rfl, h.takeUp k, .cutUp, rfl, rfl⟩
  | deliver k buffer sent =>
    simp only [TextSystem.step] at hstep
    have htext : t.toClient[k]? =
        (s.toClient[k]?).map (datagramOf dumpFloat ServerMessage.toJson) := by
      rw [h.toClient]
      exact List.getElem?_map ..
    cases hk : s.toClient[k]? with
    | none =>
      rw [htext, hk] at hstep
      cases hstep
    | some d =>
      obtain ⟨m, a⟩ := d
      have hplain := (h.plain (m, a) (List.mem_of_getElem? hk)).flat
      rw [htext, hk] at hstep
      simp only [Option.map_some, datagramOf,
        received_dump hformat (by decide) buffer hplain] at hstep
      by_cases hfits : (m.toJson.dump dumpFloat).length < 4096
      · have hclient : t.clients a = s.clients a := congrFun h.clients a
        rw [if_pos hfits, hclient] at hstep
        simp only [handle_alike _ hplain.alike] at hstep
        cases hstep
        obtain ⟨hwrites, hsent⟩ :=
          (h.takeDown k).act a ((s.clients a).handleReceivedMessage m.toJson sent)
        refine ⟨.deliver k sent, _, _, ?_, hwrites, .deliver, hsent⟩
        rw [System.step, hk]
      · rw [if_neg hfits] at hstep
        cases hstep
        exact ⟨.loseDown k, {}, _, rfl, h.takeDown k, .cutDown, rfl, rfl⟩
  | loseUp k =>
    cases hstep
    exact ⟨.loseUp k, {}, _, rfl, h.takeUp k, .loseUp, rfl, rfl⟩
  | loseDown k =>
    cases hstep
    exact ⟨.loseDown k, {}, _, rfl, h.takeDown k, .loseDown, rfl, rfl⟩
  | push k =>
    have hserver := push_reading s.server k h.workers
    rw [← hreads] at hserver
    obtain ⟨o', s', hs', hwrites, hsent⟩ :=
      h.serverStep _ _ (fun j a hj => by cases hj) hserver {} rfl
      hstep
    exact ⟨.push k, o', s', hs', hwrites, .push, hsent⟩
  | event =>
    have hserver := step_reading s.server .event (by simp) (by simp)
    rw [← hreads] at hserver
    obtain ⟨o', s', hs', hwrites, hsent⟩ :=
      h.serverStep _ _ (fun j a hj => by cases hj) hserver {} rfl
      hstep
    exact ⟨.event, o', s', hs', hwrites, .event, hsent⟩
  | timeout k =>
    have hserver := step_reading s.server (.timeout k) (by simp) (by simp)
    rw [← hreads] at hserver
    obtain ⟨o', s', hs', hwrites, hsent⟩ := h.serverStep _ _ (fun j a hj => by cases hj) hserver
      {fired := s.server.timeoutThreads[k]?.map Prod.fst} rfl hstep
    exact ⟨.timeout k, o', s', hs', hwrites, .timeout, hsent⟩
  | tick d =>
    have hserver := step_reading s.server (.tick d) (by simp) (by simp)
    rw [← hreads] at hserver
    obtain ⟨o', s', hs', hwrites, hsent⟩ :=
      h.serverStep _ _ (fun j a hj => by cases hj) hserver {} rfl
      hstep
    exact ⟨.tick d, o', s', hs', hwrites, .tick, hsent⟩

end Step

/-- The network of texts is simulated by the network of messages. -/
def textSimulation {dumpFloat : P → List UInt8} {strtod : List UInt8 → Option P}
    (hformat : FloatFormat dumpFloat strtod) :
    Simulation (textNetwork dumpFloat strtod) (network P) where
  related := Writes dumpFloat
  agree e e' := StandsFor e.1 e'.1 ∧ SentAlike dumpFloat e.2 e'.2
  step h hstep := by
    obtain ⟨l', o', s', hstep', hwrites, hmove, hsent⟩ := h.step hformat hstep
    exact ⟨l', o', s', hstep', hwrites, hmove, hsent⟩

theorem writes_start (dumpFloat : P → List UInt8) (peers : SockaddrIn → Option ClientConfig) :
    Writes dumpFloat (TextSystem.start peers) (System.start peers) :=
  ⟨rfl, rfl, rfl, rfl, fun _ hw => absurd hw List.not_mem_nil,
    fun _ hd => absurd hd List.not_mem_nil⟩

/-- **Every run of the network of texts is a run of the network of messages**, with the
same moves but for texts that are cut, which are losses. -/
theorem texts_simulated {dumpFloat : P → List UInt8} {strtod : List UInt8 → Option P}
    (hformat : FloatFormat dumpFloat strtod) {peers : SockaddrIn → Option ClientConfig}
    {tr : List (TextMove P × TextLog)} {t : TextSystem P}
    (hrun : Run (textNetwork dumpFloat strtod) (TextSystem.start peers) tr t) :
    ∃ tr' s, Run (network P) (System.start peers) tr' s ∧ Writes dumpFloat t s ∧
      List.Forall₂ (fun e e' => StandsFor e.1 e'.1 ∧ SentAlike dumpFloat e.2 e'.2) tr tr' :=
  (textSimulation hformat).run (writes_start dumpFloat peers) hrun

/-! ### A registration in bytes -/

/-- Whole numbers. -/
instance : Double Int where
  ofInt n := n
  toInt n := n

def textRegistration : List (TextMove Int) :=
  [.user peer1 (.registerWithServer "127.0.0.1") true, .serve 0 (Vector.replicate 1024 7),
   .deliver 0 (Vector.replicate 4096 7) true]

/-- The first peer registers. -/
theorem texts_simulated_registration : ∃ tr t,
    Run (textNetwork dumpWhole strtodWhole) (TextSystem.start household) tr t ∧
      (t.clients peer1).currentState = .registered ∧
      ∃ tr' s, Run (network Int) (System.start household) tr' s ∧ Writes dumpWhole t s ∧
        List.Forall₂ (fun e e' => StandsFor e.1 e'.1 ∧ SentAlike dumpWhole e.2 e'.2) tr tr' := by
  obtain ⟨t, tr, hrun, hstate⟩ := (textNetwork dumpWhole strtodWhole).exec_view
    (TextSystem.start household) textRegistration
    (fun r => (r.1.clients peer1).currentState) (v := .registered) (by decide +kernel)
  exact ⟨tr, t, hrun, hstate, texts_simulated whole_format hrun⟩

end Network

end P2PShopping
