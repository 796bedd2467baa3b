import P2PShopping.Client.Client
import P2PShopping.Library.Buffers
import P2PShopping.Wire.Dump

/-! From the client's text to the server's.

`sendMessage` compares what `sendto` took with the length of the dump and has no
limit of its own. The server receives into 1024 bytes and reads a string back out of
them, so a longer text reaches `handleNewMessage` cut, where `json::parse` gives up
on it, and the client that has heard nothing of it goes on to SEARCHING. A text of at
most 1023 bytes arrives as it was. -/
namespace P2PShopping
open Json Buffers

variable {P : Type} [Double P]

/-- What `sendto` returned is compared with the length of the text. -/
def P2PClient.sendMessage (text : List UInt8) (sent : Int) : Bool := sent = text.length

/-- The bytes `sendto` took. -/
def handedOver (text : List UInt8) (sent : Int) : List UInt8 := text.take sent.toNat

/-- One round of `ConcurrentServer::start`: the string for `handleNewMessage`. -/
def receiveRound (buffer : Vector UInt8 1024) (datagram : List UInt8) : Option (List UInt8) :=
  receive buffer datagram

section Text
variable {dumpFloat : P → List UInt8} (m : ClientMessage P)

omit [Double P] in
theorem handedOver_of_sent {text : List UInt8} {sent : Int}
    (h : P2PClient.sendMessage text sent = true) : handedOver text sent = text := by
  have hlen : sent = text.length := by simpa [P2PClient.sendMessage] using h
  rw [handedOver, hlen, Int.toNat_natCast, List.take_length]

omit [Double P] in
/-- No message has an empty text: its command is in it. -/
theorem dump_ne_nil : m.toJson.dump dumpFloat ≠ [] := by
  have hcommand : ∃ command members, m.toJson = .obj members ∧
      ("command", .str command) ∈ members ∧ 0 < command.utf8ByteSize := by
    cases m <;> exact ⟨_, _, rfl, List.mem_cons_self .., by decide⟩
  obtain ⟨command, members, hm, hmem, hpos⟩ := hcommand
  have hlen := dump_obj_length dumpFloat hmem
  rw [hm]
  intro hnil
  rw [hnil, List.length_nil] at hlen
  omega

omit [Double P] in
/-- **A message of a client arrives whole iff its text has at most 1023 bytes.** -/
theorem receiveRound_iff (hfloat : ∀ x, 0 ∉ dumpFloat x) (buffer : Vector UInt8 1024) :
    receiveRound buffer (m.toJson.dump dumpFloat) = some (m.toJson.dump dumpFloat) ↔
      (m.toJson.dump dumpFloat).length ≤ 1023 := by
  rw [receiveRound, receive_eq_iff buffer (dump_ne_nil m) (dump_no_nul hfloat _), Nat.lt_succ_iff]

end Text

omit [Double P] in
/-- **A search that `sendMessage` reports as sent arrives whole iff its text has at
most 1023 bytes.** The text is the dump of what `searchItem` sends. -/
theorem search_arrives_iff {dumpFloat : P → List UInt8} (hfloat : ∀ x, 0 ∉ dumpFloat x)
    (buffer : Vector UInt8 1024) {c : P2PClient P} (hstate : c.currentState = .registered)
    (itemName description : String) (maxPrice : P) {text : List UInt8}
    (htext : text = (ClientMessage.lookingFor c.nextRequestNumber c.name itemName description
      maxPrice).toJson.dump dumpFloat)
    {sent : Int} (hsent : P2PClient.sendMessage text sent = true) :
    (c.searchItem itemName description maxPrice (P2PClient.sendMessage text sent)).datagram =
        some (.lookingFor c.nextRequestNumber c.name itemName description maxPrice) ∧
      (receiveRound buffer (handedOver text sent) = some text ↔ text.length ≤ 1023) := by
  constructor
  · rw [hsent, P2PClient.searchItem, P2PClient.request, if_neg (by simp [hstate])]
    rfl
  · rw [handedOver_of_sent hsent, htext]
    exact receiveRound_iff _ hfloat buffer

/-! ### Short and long searches -/

/-- Whole numbers as `dump_float` writes them. -/
def wholeNumber (q : Rat) : List UInt8 := asciiBytes (toString q.num) ++ [0x2e, 0x30]

theorem wholeNumber_no_nul (q : Rat) : 0 ∉ wholeNumber q := by
  have hdigits := int_no_nul q.num
  simp only [wholeNumber, List.mem_append, hdigits, false_or]
  decide

/-- The first peer, registered. -/
def searcher : P2PClient Rat :=
  {name := "peer1", udpPort := 5001, tcpPort := 6001, currentState := .registered,
   nextRequestNumber := 2}

/-- The LOOKING_FOR for a lamp of this description. -/
def lampText (description : String) : List UInt8 :=
  (ClientMessage.lookingFor 2 "peer1" "lamp" description (10 : Rat)).toJson.dump wholeNumber

theorem search_arrives_iff_old :
    (searcher.searchItem "lamp" "old" 10 true).datagram =
        some (.lookingFor 2 "peer1" "lamp" "old" 10) ∧
      receiveRound (Vector.replicate 1024 7) (lampText "old") = some (lampText "old") := by
  have hsent : P2PClient.sendMessage (lampText "old") (lampText "old").length = true := by
    simp [P2PClient.sendMessage]
  obtain ⟨hsearch, harrives⟩ := search_arrives_iff wholeNumber_no_nul (Vector.replicate 1024 7)
    (c := searcher) rfl "lamp" "old" 10 (show lampText "old" = _ from rfl) hsent
  have hshort : (lampText "old").length ≤ 1023 := by decide +kernel
  rw [hsent] at hsearch
  rw [handedOver_of_sent hsent] at harrives
  exact ⟨hsearch, harrives.mpr hshort⟩

/-- A description of 1100 letters. -/
def wordy : String := String.ofList (List.replicate 1100 'x')

/-- It is sent, and does not arrive as it was. -/
theorem wordy_search_cut :
    P2PClient.sendMessage (lampText wordy) (lampText wordy).length = true ∧
      (searcher.searchItem "lamp" wordy 10 true).client.currentState = .searching ∧
      receiveRound (Vector.replicate 1024 7)
        (handedOver (lampText wordy) (lampText wordy).length) ≠ some (lampText wordy) := by
  have hsent : P2PClient.sendMessage (lampText wordy) (lampText wordy).length = true := by
    simp [P2PClient.sendMessage]
  have hlong : wordy.utf8ByteSize ≤ (lampText wordy).length :=
    dump_obj_length wholeNumber
      (show ("description", Json.str wordy) ∈ _ by simp)
  have hsize : wordy.utf8ByteSize = 1100 := by decide +kernel
  refine ⟨hsent, rfl, ?_⟩
  rw [handedOver_of_sent hsent, lampText, ne_eq, receiveRound_iff _ wholeNumber_no_nul]
  change ¬ (lampText wordy).length ≤ 1023
  omega

end P2PShopping
