import P2PShopping.Client.Presence

/-! What quitting leaves behind.

`quit` says goodbye if the state is REGISTERED, and the state is not about being
registered alone: a search moves a registered client on to SEARCHING, where it stays
until a FOUND or a NOT_FOUND comes. A client that quits meanwhile says nothing, and
its session stays at the server. When the goodbye is said is read off the history:
the state is what the last input that wrote it has written, and of these writers the
ones that matter are few (`quit_deregisters_iff`). -/
namespace P2PShopping
open Json Runs

variable {P : Type} [Double P]

/-! ### The history -/

/-- A handled REGISTERED makes the client a member, a `deregister` that returned true,
also the one of `quit`, ends that. -/
def membership : ClientInput P × Option (ClientMessage P) → Cell.Update Unit
  | (.receive message _, _) =>
    match MessageParser.parseMessage message with
    | some event => if event.type = .registered then .put () else .keep
    | none => .keep
  | (.user .deregister _, some _) => .clear
  | (.user .quit _, some _) => .clear
  | _ => .keep

/-- Since the construction, or the last `deregister` that returned true, a REGISTERED
has been handled. -/
def Member (tr : ClientHistory P) : Prop := Cell.value membership tr = some ()

/-- The messages that set REGISTERED settle the client; a LOOKING_FOR that went out
and a handled REGISTER-DENIED unsettle it. -/
def settlement : ClientInput P × Option (ClientMessage P) → Cell.Update Unit
  | (.receive message _, _) =>
    match MessageParser.parseMessage message with
    | some event =>
      if event.type ∈ [.registered, .found, .notFound] then .put ()
      else if event.type = .registerDenied then .clear
      else .keep
    | none => .keep
  | (.user (.searchItem _ _ _) _, some _) => .clear
  | _ => .keep

/-- Since the last REGISTERED, FOUND or NOT_FOUND, no LOOKING_FOR has gone out and no
REGISTER-DENIED has been handled. -/
def AtHome (tr : ClientHistory P) : Prop := Cell.value settlement tr = some ()

/-- The state an input writes. -/
def written : ClientInput P × Option (ClientMessage P) → Option P2PStateType
  | (.user (.registerWithServer _) _, some _) => some .registering
  | (.user .deregister _, some _) => some .unregistered
  | (.user .quit _, some _) => some .unregistered
  | (.user (.searchItem _ _ _) _, some _) => some .searching
  | (.user (.negotiateOffer _ _ _) _, some _) => some .negotiating
  | (.receive message _, _) =>
    match MessageParser.parseMessage message with
    | some event =>
      if event.type ∈ [.registered, .found, .notFound] then some .registered
      else if event.type = .registerDenied then some .unregistered
      else none
    | none => none
  | _ => none

/-! ### One step -/

section Step
variable {c c' : P2PClient P} {tr : ClientHistory P} {input : ClientInput P}
  {m : Option (ClientMessage P)}

omit [Double P] in
/-- An operation with a fresh number says something iff it has changed the state. -/
theorem request_state (c : P2PClient P) (required next : P2PStateType)
    (message : Int32 → ClientMessage P) (sent : Bool) :
    (c.request required next message sent).client.currentState =
      match (c.request required next message sent).datagram with
      | some _ => next
      | none => c.currentState := by
  unfold P2PClient.request
  by_cases hstate : c.currentState = required
  · cases sent <;> simp [hstate]
  · simp [hstate]

omit [Double P] in
/-- So does an answer to an offer. -/
theorem answerOffer_next (c : P2PClient P) (requestNumber : Int32) (agrees : Offer P → Bool)
    (next : P2PStateType) (message : ClientMessage P) (sent : Bool) :
    (c.answerOffer requestNumber agrees next message sent).client.currentState =
      match (c.answerOffer requestNumber agrees next message sent).datagram with
      | some _ => next
      | none => c.currentState := by
  unfold P2PClient.answerOffer
  split
  · rfl
  · split
    · rfl
    · cases sent <;> rfl

/-- **The state is what the input writes, if it writes one.** -/
theorem step_written (h : (clientMachine P).step c input = some (c', m)) :
    c'.currentState = (written (input, m)).getD c.currentState := by
  cases input with
  | receive message sent =>
    obtain rfl : (c.handleReceivedMessage message sent).1 = c' :=
      congrArg Prod.fst (Option.some.inj h)
    rw [receive_state]
    simp only [written]
    cases MessageParser.parseMessage message with
    | none => rfl
    | some event =>
      simp only
      split
      · rfl
      · split <;> rfl
  | user op sent =>
    obtain rfl : (op.run c sent).1 = c' := congrArg Prod.fst (Option.some.inj h)
    obtain rfl : (op.run c sent).2 = m := congrArg Prod.snd (Option.some.inj h)
    cases op with
    | registerWithServer localIp =>
      simp only [UserOp.run, OpResult.effect, P2PClient.registerWithServer, request_state]
      split <;> simp [written, *]
    | deregister =>
      simp only [UserOp.run, OpResult.effect, P2PClient.deregister, request_state]
      split <;> simp [written, *]
    | searchItem itemName description maxPrice =>
      simp only [UserOp.run, OpResult.effect, P2PClient.searchItem, request_state]
      split <;> simp [written, *]
    | negotiateOffer rq itemName counterPrice =>
      simp only [UserOp.run, OpResult.effect, P2PClient.negotiateOffer]
      split
      · rfl
      · simp only [answerOffer_next]
        split <;> simp [written, *]
    | acceptOffer rq itemName price => exact answerOffer_state _ _ _ _
    | refuseOffer rq itemName price => exact answerOffer_state _ _ _ _
    | addItem name description price => rfl
    | removeItem name => rfl
    | quit =>
      simp only [UserOp.run, P2PClient.quit]
      split
      case isTrue hregistered =>
        simp only [P2PClient.deregister, request_state]
        split <;> simp [written, *]
      case isFalse => rfl

/-- A received message settles and unsettles by what it writes. -/
theorem settlement_receive (message : Json P) (sent : Bool) (m : Option (ClientMessage P)) :
    settlement (.receive message sent, m) =
      match written (.receive message sent, m) with
      | some .registered => .put ()
      | some _ => .clear
      | none => .keep := by
  simp only [settlement, written]
  cases MessageParser.parseMessage message with
  | none => rfl
  | some event =>
    by_cases hadmits : event.type ∈ [.registered, .found, .notFound]
    · simp [hadmits]
    · by_cases hdenied : event.type = .registerDenied <;> simp [hadmits, hdenied]

/-- What settles a client writes REGISTERED, -/
theorem settlement_put_iff {e : ClientInput P × Option (ClientMessage P)} :
    settlement e = .put () ↔ written e = some .registered := by
  obtain ⟨input, m⟩ := e
  cases input with
  | receive message sent =>
    rw [settlement_receive]
    cases written (.receive message sent, m) with
    | none => simp
    | some state => cases state <;> simp
  | user op sent => cases op <;> cases m <;> simp [settlement, written]

/-- and what unsettles it writes something else. -/
theorem settlement_clear {e : ClientInput P × Option (ClientMessage P)}
    (h : settlement e = .clear) : ∃ state, written e = some state ∧ state ≠ .registered := by
  obtain ⟨input, m⟩ := e
  cases input with
  | receive message sent =>
    rw [settlement_receive] at h
    cases hwritten : written (.receive message sent, m) with
    | none => simp [hwritten] at h
    | some state =>
      refine ⟨state, rfl, fun hstate => ?_⟩
      simp [hwritten, hstate] at h
  | user op sent =>
    cases op <;> cases m <;> simp [settlement] at h
    exact ⟨.searching, rfl, by decide⟩

/-- A handled REGISTERED settles a client, too. -/
theorem settlement_of_membership {e : ClientInput P × Option (ClientMessage P)}
    (h : membership e = .put ()) : settlement e = .put () := by
  obtain ⟨input, m⟩ := e
  cases input with
  | receive message sent =>
    simp only [membership, settlement] at h ⊢
    cases hparse : MessageParser.parseMessage message with
    | none => simp [hparse] at h
    | some event =>
      by_cases htype : event.type = .registered
      · simp [htype]
      · simp [hparse, htype] at h
  | user op sent => cases op <;> cases m <;> simp [membership] at h

/-- A registered client that neither says goodbye nor is unsettled stays registered:
it can neither register nor make a counter offer. -/
theorem registered_stays (h : (clientMachine P).step c input = some (c', m))
    (hstate : c.currentState = .registered) (hmember : membership (input, m) ≠ .clear)
    (hhome : settlement (input, m) ≠ .clear) : c'.currentState = .registered := by
  have hwritten := step_written h
  cases input with
  | receive message sent =>
    rw [settlement_receive] at hhome
    cases hw : written (.receive message sent, m) with
    | none => simpa [hw, hstate] using hwritten
    | some state =>
      rw [hw] at hwritten hhome
      cases state with
      | registered => exact hwritten
      | _ => exact absurd rfl hhome
  | user op sent =>
    obtain rfl : (op.run c sent).2 = m := congrArg Prod.snd (Option.some.inj h)
    cases op with
    | registerWithServer localIp =>
      have hquiet : ((UserOp.registerWithServer localIp).run c sent).2 = none := by
        simp [UserOp.run, OpResult.effect, P2PClient.registerWithServer, P2PClient.request, hstate]
      simpa [hquiet, written, hstate] using hwritten
    | negotiateOffer rq itemName counterPrice =>
      have hquiet : ((UserOp.negotiateOffer rq itemName counterPrice).run c sent).2 = none := by
        simp [UserOp.run, OpResult.effect, P2PClient.negotiateOffer, hstate]
      simpa [hquiet, written, hstate] using hwritten
    | deregister =>
      cases hm : (UserOp.deregister.run c sent).2 with
      | some message => simp [membership, hm] at hmember
      | none => simpa [hm, written, hstate] using hwritten
    | quit =>
      cases hm : (UserOp.quit.run c sent).2 with
      | some message => simp [membership, hm] at hmember
      | none => simpa [hm, written, hstate] using hwritten
    | searchItem itemName description maxPrice =>
      cases hm : ((UserOp.searchItem itemName description maxPrice).run c sent).2 with
      | some message => simp [settlement, hm] at hhome
      | none => simpa [hm, written, hstate] using hwritten
    | acceptOffer | refuseOffer | addItem | removeItem =>
      simpa [written, hstate] using hwritten

end Step

/-! ### Runs -/

section Run
variable {config : ClientConfig} {tr : ClientHistory P} {c : P2PClient P}

/-- A client in state REGISTERED has come to rest, -/
theorem registered_home (h : Run (clientMachine P) (.new config) tr c) :
    c.currentState = .registered → AtHome tr := by
  refine h.invariant (fun tr c => c.currentState = .registered → AtHome tr)
    (by simp [P2PClient.new]) ?_
  intro tr s input s' m _ ih hstep hstate
  rw [step_written hstep] at hstate
  rw [AtHome, Cell.value_snoc]
  cases hsettled : settlement (input, m) with
  | put v => rfl
  | clear =>
    obtain ⟨state, hw, hother⟩ := settlement_clear hsettled
    rw [hw] at hstate
    exact absurd hstate hother
  | keep =>
    have hkept : written (input, m) ≠ some .registered := by
      rw [ne_eq, ← settlement_put_iff, hsettled]
      simp
    cases hw : written (input, m) with
    | none => exact ih (by simpa [hw] using hstate)
    | some state =>
      rw [hw] at hkept hstate
      exact absurd (congrArg some hstate) hkept

/-- and a member at rest is in state REGISTERED. -/
theorem home_registered (h : Run (clientMachine P) (.new config) tr c) :
    Member tr → AtHome tr → c.currentState = .registered := by
  refine h.invariant (fun tr c => Member tr → AtHome tr → c.currentState = .registered)
    (by simp [Member]) ?_
  intro tr s input s' m _ ih hstep hmember hhome
  rw [Member, Cell.value_snoc] at hmember
  rw [AtHome, Cell.value_snoc] at hhome
  cases hsettled : settlement (input, m) with
  | put v => rw [step_written hstep, settlement_put_iff.mp hsettled, Option.getD_some]
  | clear => simp [hsettled, Cell.Update.apply] at hhome
  | keep =>
    cases hjoined : membership (input, m) with
    | put v =>
      rw [settlement_of_membership hjoined] at hsettled
      cases hsettled
    | clear => simp [hjoined, Cell.Update.apply] at hmember
    | keep =>
      rw [hsettled] at hhome
      rw [hjoined] at hmember
      exact registered_stays hstep (ih hmember hhome) (by simp [hjoined]) (by simp [hsettled])

/-- **A member that quits deregisters iff no LOOKING_FOR has gone out and no
REGISTER-DENIED has come in since it was last set to REGISTERED.** -/
theorem quit_deregisters_iff (h : Run (clientMachine P) (.new config) tr c) (hmember : Member tr) :
    (∃ rq, (c.quit true).2 = some (.deRegister rq c.name)) ↔ AtHome tr := by
  constructor
  · intro hgoodbye
    obtain ⟨rq, hsent⟩ := hgoodbye
    apply registered_home h
    by_contra hstate
    rw [P2PClient.quit, if_neg hstate] at hsent
    cases hsent
  · intro hhome
    have hstate := home_registered h hmember hhome
    refine ⟨c.nextRequestNumber, ?_⟩
    rw [P2PClient.quit, if_pos hstate, P2PClient.deregister, P2PClient.request,
      if_neg (by simp [hstate])]
    rfl

end Run

/-- A client registers and starts to search. -/
def midSearch : List (ClientInput Rat) :=
  [.user (.registerWithServer "127.0.0.1") true,
   .receive (ServerMessage.registered (.int 1)).toJson true,
   .user (.searchItem "lamp" "old" 10) true]

theorem quit_deregisters_iff_midSearch : ∃ (c : P2PClient Rat) (tr : ClientHistory Rat),
    Run (clientMachine Rat) (.new ⟨"peer1", 5001, 6001⟩) tr c ∧
      ((∃ rq, (c.quit true).2 = some (.deRegister rq c.name)) ↔ AtHome tr) := by
  obtain ⟨c, tr, hrun, hmember⟩ := (clientMachine Rat).exec_view (.new ⟨"peer1", 5001, 6001⟩)
    midSearch (fun r => Cell.value membership r.2) (v := some ()) rfl
  exact ⟨c, tr, hrun, quit_deregisters_iff hrun hmember⟩

/-- It quits without a word. -/
theorem quit_mid_search_silent : ∃ (c : P2PClient Rat) (tr : ClientHistory Rat),
    Run (clientMachine Rat) (.new ⟨"peer1", 5001, 6001⟩) tr c ∧ Member tr ∧
      (c.quit true).2 = none := by
  obtain ⟨c, tr, hrun, hview⟩ := (clientMachine Rat).exec_view (.new ⟨"peer1", 5001, 6001⟩)
    midSearch (fun r => (Cell.value membership r.2, (r.1.quit true).2)) (v := (some (), none)) rfl
  obtain ⟨hmember, hquit⟩ := Prod.mk.inj hview
  exact ⟨c, tr, hrun, hmember, hquit⟩

end P2PShopping
