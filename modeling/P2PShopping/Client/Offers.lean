import P2PShopping.Client.Presence

/-! The offers a client has listed, and its answers to them.

`acceptOffer`, `refuseOffer` and `negotiateOffer` look an offer up by its request
number, take the first one, and only then compare what else the user has typed. An
offer that stands behind another one with its number is out of reach unless the two
agree (`offer_taken_iff`). The offer is erased before the answer is sent, so an answer
that does not go out takes it along (`failed_answer_iff`). And since an offer is
listed in state REGISTERED only, where nothing is negotiated, the counter offer the
user makes at once is always refused (`stored_offer_not_negotiable`). -/
namespace P2PShopping
open Json Runs

variable {P : Type} [Double P]

omit [Double P] in
/-- Equal in all that an answer names. -/
def Offer.SameAs (x o : Offer P) : Prop :=
  x.requestNumber = o.requestNumber ∧ x.name = o.name ∧ x.price = o.price

/-- The first offer with the number is one that agrees. -/
def FirstAgrees (offers : List (Offer P)) (requestNumber : Int32) (agrees : Offer P → Prop) :
    Prop :=
  ∃ front x back, offers = front ++ x :: back ∧ (∀ y ∈ front, y.requestNumber ≠ requestNumber) ∧
    x.requestNumber = requestNumber ∧ agrees x

/-! ### The lookup -/

section Lookup
variable (c : P2PClient P) {requestNumber : Int32} {agrees : Offer P → Bool} {next : P2PStateType}
  {message : ClientMessage P} {sent : Bool}

omit [Double P] in
/-- An offer that is found and agrees leaves the list, whether or not the answer goes out. -/
theorem answerOffer_first {front back : List (Offer P)} {x : Offer P}
    (hoffers : c.offers = front ++ x :: back)
    (hfront : ∀ y ∈ front, y.requestNumber ≠ requestNumber)
    (hx : x.requestNumber = requestNumber) (hagrees : agrees x = true) :
    c.answerOffer requestNumber agrees next message sent =
      if sent then
        {result := true, client := {c with offers := front ++ back, currentState := next},
         datagram := some message}
      else {result := false, client := {c with offers := front ++ back}} := by
  have hnone : front.find? (·.requestNumber = requestNumber) = none :=
    List.find?_eq_none.mpr fun y hy => by simpa using hfront y hy
  have hfind : c.offers.find? (·.requestNumber = requestNumber) = some x := by
    rw [hoffers, List.find?_append, hnone, Option.none_or,
      List.find?_cons_of_pos (by simpa using hx)]
  have herase : c.offers.eraseP (·.requestNumber = requestNumber) = front ++ back := by
    rw [hoffers, List.eraseP_append_right _ fun y hy => by simpa using hfront y hy,
      List.eraseP_cons_of_pos (by simpa using hx)]
  simp [P2PClient.answerOffer, hfind, hagrees, herase]

omit [Double P] in
/-- Otherwise the call has no effect. -/
theorem answerOffer_refused (h : ¬ FirstAgrees c.offers requestNumber (agrees ·)) :
    c.answerOffer requestNumber agrees next message sent = {result := false, client := c} := by
  unfold P2PClient.answerOffer
  cases hfind : c.offers.find? (·.requestNumber = requestNumber) with
  | none => rfl
  | some x =>
    obtain ⟨hx, front, back, hoffers, hfront⟩ := List.find?_eq_some_iff_append.mp hfind
    have hdisagrees : agrees x = false := by
      by_contra hagrees
      refine h ⟨front, x, back, hoffers, fun y hy => ?_, by simpa using hx, by simpa using hagrees⟩
      simpa using hfront y hy
    simp [hdisagrees]

end Lookup

/-! ### Every stored offer -/

/-- The call sent `message`, and one entry equal to `o` has left the list. -/
structure OfferTaken (c : P2PClient P) (o : Offer P) (message : ClientMessage P) (r : OpResult P) :
    Prop where
  returned : r.result = true
  sent : r.datagram = some message
  removed : ∃ front x back, c.offers = front ++ x :: back ∧ x.SameAs o ∧
    r.client = {c with offers := front ++ back}

section Answer
variable (c : P2PClient P) (o : Offer P)

omit [Double P] in
/-- An answer that keeps the state, to an offer of which number, name and price are given. -/
theorem offerTaken_answerOffer_iff {agrees : Offer P → Bool} {message : ClientMessage P}
    (hagrees : ∀ x, agrees x = true ↔ x.name = o.name ∧ x.price = o.price) :
    OfferTaken c o message (c.answerOffer o.requestNumber agrees c.currentState message true) ↔
      FirstAgrees c.offers o.requestNumber (·.SameAs o) := by
  constructor
  · intro h
    by_contra hfirst
    have hrefused := h.returned
    rw [answerOffer_refused] at hrefused
    · cases hrefused
    · intro hfound
      obtain ⟨front, x, back, hoffers, hfront, hx, hsame⟩ := hfound
      exact hfirst ⟨front, x, back, hoffers, hfront, hx, hx, (hagrees x).mp hsame⟩
  · intro h
    obtain ⟨front, x, back, hoffers, hfront, hx, hsame⟩ := h
    rw [answerOffer_first c hoffers hfront hx ((hagrees x).mpr hsame.2)]
    exact ⟨rfl, rfl, front, x, back, hoffers, hsame, rfl⟩

omit [Double P] in
/-- A call whose values match no stored offer has no effect. -/
theorem answerOffer_unmatched {requestNumber : Int32} {name : String} {price : P}
    {agrees : Offer P → Bool} {next : P2PStateType} {message : ClientMessage P} {sent : Bool}
    (hagrees : ∀ x, agrees x = true ↔ x.name = name ∧ x.price = price)
    (h : ∀ x ∈ c.offers, ¬ (x.requestNumber = requestNumber ∧ x.name = name ∧ x.price = price)) :
    c.answerOffer requestNumber agrees next message sent = {result := false, client := c} := by
  refine answerOffer_refused c ?_
  intro hfound
  obtain ⟨front, x, back, hoffers, -, hx, hsame⟩ := hfound
  exact h x (by simp [hoffers]) ⟨hx, (hagrees x).mp hsame⟩

/-- **A stored offer can be accepted and refused iff the first offer with its number
is equal to it**, and values that match no stored offer do nothing. -/
theorem offer_taken_iff :
    ((OfferTaken c o (.accept o.requestNumber c.name o.name o.price)
        (c.acceptOffer o.requestNumber o.name o.price true) ∧
      OfferTaken c o (.refuse o.requestNumber c.name o.name o.price)
        (c.refuseOffer o.requestNumber o.name o.price true)) ↔
      FirstAgrees c.offers o.requestNumber (·.SameAs o)) ∧
    ∀ requestNumber name price sent,
      (∀ x ∈ c.offers, ¬ (x.requestNumber = requestNumber ∧ x.name = name ∧ x.price = price)) →
      c.acceptOffer requestNumber name price sent = {result := false, client := c} ∧
      c.refuseOffer requestNumber name price sent = {result := false, client := c} := by
  constructor
  · rw [P2PClient.acceptOffer, P2PClient.refuseOffer, offerTaken_answerOffer_iff c o (by simp),
      offerTaken_answerOffer_iff c o (by simp), and_self]
  · intro requestNumber name price sent hnone
    exact ⟨answerOffer_unmatched c (by simp) hnone, answerOffer_unmatched c (by simp) hnone⟩

end Answer

/-- A registered client hears of two searches with the same number. -/
def twoOffers : List (ClientInput Rat) :=
  [.user (.registerWithServer "127.0.0.1") true,
   .receive (ServerMessage.registered (.int 1)).toJson true,
   .receive (ClientMessage.offer 1 "peer2" "lamp" 8).toJson true,
   .receive (ClientMessage.offer 1 "peer3" "chair" 30).toJson true]

/-- The second of them cannot be accepted. -/
theorem second_offer_unanswered : ∃ (c : P2PClient Rat) (tr : ClientHistory Rat) (o : Offer Rat),
    Run (clientMachine Rat) (.new ⟨"peer1", 5001, 6001⟩) tr c ∧ o ∈ c.offers ∧
      ¬ OfferTaken c o (.accept o.requestNumber c.name o.name o.price)
        (c.acceptOffer o.requestNumber o.name o.price true) := by
  obtain ⟨c, tr, hrun, hview⟩ := (clientMachine Rat).exec_view (.new ⟨"peer1", 5001, 6001⟩)
    twoOffers (fun r => r.1.offers.map fun o =>
      (o.name, (r.1.acceptOffer o.requestNumber o.name o.price true).result))
    (v := [("lamp", true), ("chair", false)]) (by decide +kernel)
  have hchair : ("chair", false) ∈ c.offers.map fun o =>
      (o.name, (c.acceptOffer o.requestNumber o.name o.price true).result) := by
    simp [hview]
  obtain ⟨o, ho, hresult⟩ := List.mem_map.mp hchair
  refine ⟨c, tr, o, hrun, ho, fun hanswered => ?_⟩
  have hfalse := (Prod.mk.inj hresult).2
  rw [hanswered.returned] at hfalse
  cases hfalse

/-! ### An answer that fails -/

omit [Double P] in
/-- If the call returned false, the user can try again. -/
def Retryable (c : P2PClient P) (r : OpResult P) : Prop :=
  r.result = false → r.client.offers = c.offers ∧ r.client.currentState = c.currentState

section Failure
variable (c : P2PClient P) (requestNumber : Int32) (name : String) (price : P) (sent : Bool)

omit [Double P] in
theorem retryable_answerOffer_iff (agrees : Offer P → Bool) (next : P2PStateType)
    (message : ClientMessage P) :
    Retryable c (c.answerOffer requestNumber agrees next message sent) ↔
      sent = true ∨ ¬ FirstAgrees c.offers requestNumber (agrees ·) := by
  by_cases hfirst : FirstAgrees c.offers requestNumber (agrees ·)
  · obtain ⟨front, x, back, hoffers, hfront, hx, hagrees⟩ := id hfirst
    rw [answerOffer_first c hoffers hfront hx hagrees]
    cases sent with
    | true => simp [Retryable]
    | false =>
      have hshorter : front ++ back ≠ c.offers := by
        intro hsame
        have := congrArg List.length hsame
        simp [hoffers] at this
      simp [Retryable, hshorter, hfirst]
  · rw [answerOffer_refused c hfirst]
    simp [Retryable, hfirst]

/-- **An answer that returns false loses nothing iff its datagram goes out, or the
call is refused before it comes to that.** -/
theorem failed_answer_iff :
    (Retryable c (c.negotiateOffer requestNumber name price sent) ↔
      sent = true ∨ c.currentState ∉ [.searching, .negotiating] ∨
        ¬ FirstAgrees c.offers requestNumber (·.name = name)) ∧
    (Retryable c (c.acceptOffer requestNumber name price sent) ↔
      sent = true ∨
        ¬ FirstAgrees c.offers requestNumber (fun x => x.name = name ∧ x.price = price)) ∧
    (Retryable c (c.refuseOffer requestNumber name price sent) ↔
      sent = true ∨
        ¬ FirstAgrees c.offers requestNumber (fun x => x.name = name ∧ x.price = price)) := by
  refine ⟨?_, ?_, ?_⟩
  · by_cases hstate : c.currentState ∈ [.searching, .negotiating]
    · have hguard : ¬ (c.currentState ≠ .searching ∧ c.currentState ≠ .negotiating) := by
        simpa [or_iff_not_imp_left] using hstate
      rw [P2PClient.negotiateOffer, if_neg hguard, retryable_answerOffer_iff]
      simp only [hstate, decide_eq_true_eq, not_true, false_or]
    · have hguard : c.currentState ≠ .searching ∧ c.currentState ≠ .negotiating := by
        simpa using hstate
      rw [P2PClient.negotiateOffer, if_pos hguard]
      simp [Retryable, hstate]
  · rw [P2PClient.acceptOffer, retryable_answerOffer_iff]
    simp only [decide_eq_true_eq]
  · rw [P2PClient.refuseOffer, retryable_answerOffer_iff]
    simp only [decide_eq_true_eq]

end Failure

/-- An ACCEPT that does not go out takes the offer along. -/
theorem accept_unsent_loses : ∃ (c : P2PClient Rat) (tr : ClientHistory Rat),
    Run (clientMachine Rat) (.new ⟨"peer1", 5001, 6001⟩) tr c ∧
      ¬ Retryable c (c.acceptOffer 1 "lamp" 8 false) := by
  obtain ⟨c, tr, hrun, hview⟩ := (clientMachine Rat).exec_view (.new ⟨"peer1", 5001, 6001⟩)
    twoOffers (fun r => (r.1.offers.length, (r.1.acceptOffer 1 "lamp" 8 false).result,
      (r.1.acceptOffer 1 "lamp" 8 false).client.offers.length))
    (v := (2, false, 1)) (by decide +kernel)
  obtain ⟨hbefore, hview⟩ := Prod.mk.inj hview
  obtain ⟨hresult, hafter⟩ := Prod.mk.inj hview
  refine ⟨c, tr, hrun, fun hretry => ?_⟩
  have hsame := congrArg List.length (hretry hresult).1
  simp only at hbefore hafter
  omega

/-! ### A counter offer -/

/-- The entry `handleOfferEvent` appends. -/
def MessageData.toOffer (data : MessageData P) : Offer P :=
  {requestNumber := data.requestNumber, name := data.itemName, description := data.itemName,
   price := data.price}

/-- An offer is listed in state REGISTERED only, and the client stays there. -/
theorem stored_registered {c : P2PClient P} {data : MessageData P}
    (h : (c.handleOfferEvent data).offers = c.offers ++ [data.toOffer]) :
    (c.handleOfferEvent data).currentState = .registered := by
  unfold P2PClient.handleOfferEvent at h ⊢
  split
  case isTrue hstate =>
    rw [if_pos hstate] at h
    simp at h
  case isFalse hstate =>
    exact not_not.mp hstate

/-- **No run ends in an offer that the client lists and can then make a counter offer
for**: the call is refused, nothing is sent, and the offer stays. -/
theorem stored_offer_not_negotiable {config : ClientConfig} {tr : ClientHistory P}
    {c c' : P2PClient P} {message : Json P} {sent : Bool} {m : Option (ClientMessage P)}
    (h : Run (clientMachine P) (.new config) tr c)
    (hlast : Run (clientMachine P) (.new config) (tr ++ [(.receive message sent, m)]) c')
    {event : P2PEvent P} (hmessage : MessageParser.parseMessage message = some event)
    (htype : event.type ∈ [.offer, .negotiate])
    (hstored : c'.offers = c.offers ++ [event.data.toOffer]) (counterPrice : P) :
    c'.negotiateOffer event.data.requestNumber event.data.itemName counterPrice true =
      {result := false, client := c'} := by
  obtain ⟨c₀, hrun, hstep⟩ := hlast.last
  obtain rfl := h.deterministic hrun
  have hhandled : c' = c.handleOfferEvent event.data := by
    have hstep : c.handleReceivedMessage message sent = (c', m) := Option.some.inj hstep
    obtain ⟨type, data⟩ := event
    simp only [List.mem_cons, List.not_mem_nil, or_false] at htype
    rcases htype with rfl | rfl
    · simp only [P2PClient.handleReceivedMessage, hmessage] at hstep
      exact (congrArg Prod.fst hstep).symm
    · simp only [P2PClient.handleReceivedMessage, hmessage] at hstep
      exact (congrArg Prod.fst hstep).symm
  have hstate : c'.currentState = .registered := by
    rw [hhandled] at hstored ⊢
    exact stored_registered hstored
  rw [P2PClient.negotiateOffer, if_pos (by simp [hstate])]

/-- The first peer, registered. -/
def enrolled : P2PClient Rat :=
  {name := "peer1", udpPort := 5001, tcpPort := 6001, currentState := .registered,
   nextRequestNumber := 2}

def enrolledHistory : ClientHistory Rat :=
  [(.user (.registerWithServer "127.0.0.1") true,
    some (.register 1 "peer1" "127.0.0.1" 5001 6001)),
   (.receive (ServerMessage.registered (.int 1)).toJson true, none)]

theorem enrolled_run :
    Run (clientMachine Rat) (.new ⟨"peer1", 5001, 6001⟩) enrolledHistory enrolled := by
  have hexec : (clientMachine Rat).exec (.new ⟨"peer1", 5001, 6001⟩)
      (enrolledHistory.map Prod.fst) = some (enrolled, enrolledHistory) := rfl
  exact Machine.exec_run hexec

/-- An offer of a lamp comes in. -/
def lampOffered : P2PClient Rat := {enrolled with offers := [⟨1, "lamp", "lamp", 8⟩]}

theorem lampOffered_run :
    Run (clientMachine Rat) (.new ⟨"peer1", 5001, 6001⟩)
      (enrolledHistory ++ [(.receive (ClientMessage.offer 1 "peer2" "lamp" 8).toJson true, none)])
      lampOffered :=
  enrolled_run.snoc rfl

theorem stored_offer_not_negotiable_lamp :
    lampOffered.negotiateOffer 1 "lamp" 6 true = {result := false, client := lampOffered} :=
  stored_offer_not_negotiable enrolled_run lampOffered_run
    (ClientMessage.parse_offer 1 "peer2" "lamp" 8) (by decide) rfl 6

/-- The counter offer for it goes nowhere. -/
theorem lamp_not_negotiable : ∃ (c c' : P2PClient Rat) (tr : ClientHistory Rat),
    Run (clientMachine Rat) (.new ⟨"peer1", 5001, 6001⟩) tr c ∧
    Run (clientMachine Rat) (.new ⟨"peer1", 5001, 6001⟩)
      (tr ++ [(.receive (ClientMessage.offer 1 "peer2" "lamp" 8).toJson true, none)]) c' ∧
    c.offers = [] ∧ c'.offers = c.offers ++ [⟨1, "lamp", "lamp", 8⟩] ∧
    (c'.negotiateOffer 1 "lamp" 6 true).datagram = none :=
  ⟨enrolled, lampOffered, enrolledHistory, enrolled_run, lampOffered_run, rfl, rfl, rfl⟩

end P2PShopping
