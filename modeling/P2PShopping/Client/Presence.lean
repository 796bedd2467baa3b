import P2PShopping.Client.Client
import P2PShopping.Library.Cell
import P2PShopping.Library.Runs

/-! A client between its goodbye and its next registration.

User operations and received messages interleave freely here, and the messages are
any at all: late, duplicated, or from nobody. A client that is away stays
UNREGISTERED exactly as long as no REGISTERED, FOUND or NOT_FOUND reaches it, since
these set the state whatever the state is. -/
namespace P2PShopping
open Runs

variable {P : Type} [Double P]

inductive ClientInput (P : Type) where
  /-- The user's command, and whether its datagram goes out. -/
  | user (op : UserOp P) (sent : Bool)
  | receive (message : Json P) (sent : Bool)

variable (P) in
/-- A client in the order in which its two threads come to act; the output is the
datagram that went out. -/
def clientMachine : Machine (P2PClient P) (ClientInput P) (Option (ClientMessage P)) where
  step c
    | .user op sent => some (op.run c sent)
    | .receive message sent => some (c.handleReceivedMessage message sent)

abbrev ClientHistory (P : Type) := List (ClientInput P × Option (ClientMessage P))

/-! ### Being away -/

/-- A `registerWithServer` that returned true ends an absence, a `deregister` that
returned true begins one, also the one of `quit`. `P2PClient.request` returns true iff
their datagram went out. -/
def enrolment : ClientInput P × Option (ClientMessage P) → Cell.Update Unit
  | (.user (.registerWithServer _) _, some _) => .put ()
  | (.user .deregister _, some _) => .clear
  | (.user .quit _, some _) => .clear
  | _ => .keep

/-- Since the construction, or the last `deregister` that returned true, no
`registerWithServer` has. -/
def Away (tr : ClientHistory P) : Prop := Cell.value enrolment tr = none

/-- The messages whose handling sets REGISTERED, whatever the state. -/
def admits : ClientInput P → Bool
  | .receive message _ =>
    match MessageParser.parseMessage message with
    | some event => event.type ∈ [.registered, .found, .notFound]
    | none => false
  | .user _ _ => false

/-- No such message is handled while the client is away. -/
def QuietWhileAway (tr : ClientHistory P) : Prop :=
  ∀ front e back, tr = front ++ e :: back → Away front → admits e.1 = false

/-! ### One step -/

section Step
variable {c : P2PClient P} {tr : ClientHistory P}

omit [Double P] in
theorem away_snoc {e : ClientInput P × Option (ClientMessage P)} :
    Away (tr ++ [e]) ↔ (enrolment e).apply (Cell.value enrolment tr) = none := by
  rw [Away, Cell.value_snoc]

omit [Double P] in
theorem enrolment_receive (message : Json P) (sent : Bool) (m : Option (ClientMessage P)) :
    enrolment (.receive message sent, m) = .keep := rfl

/-- What a received message does to the state. -/
theorem receive_state (c : P2PClient P) (message : Json P) (sent : Bool) :
    (c.handleReceivedMessage message sent).1.currentState =
      match MessageParser.parseMessage message with
      | some event =>
        if event.type ∈ [.registered, .found, .notFound] then .registered
        else if event.type = .registerDenied then .unregistered
        else c.currentState
      | none => c.currentState := by
  unfold P2PClient.handleReceivedMessage
  cases MessageParser.parseMessage message with
  | none => rfl
  | some event =>
    obtain ⟨type, data⟩ := event
    have hoffer : (c.handleOfferEvent data).currentState = c.currentState := by
      unfold P2PClient.handleOfferEvent
      split <;> rfl
    cases type <;> simp [hoffer]

theorem receive_admits {message : Json P} {sent : Bool}
    (h : admits (.receive message sent : ClientInput P) = true) :
    (c.handleReceivedMessage message sent).1.currentState = .registered := by
  rw [receive_state]
  simp only [admits] at h
  cases hparse : MessageParser.parseMessage message with
  | none => simp [hparse] at h
  | some event =>
    rw [hparse] at h
    simp only [decide_eq_true_eq] at h
    exact if_pos h

theorem receive_quiet {message : Json P} {sent : Bool}
    (h : admits (.receive message sent : ClientInput P) = false)
    (hstate : c.currentState = .unregistered) :
    (c.handleReceivedMessage message sent).1.currentState = .unregistered := by
  rw [receive_state]
  simp only [admits] at h
  cases hparse : MessageParser.parseMessage message with
  | none => exact hstate
  | some event =>
    rw [hparse] at h
    simp only [decide_eq_false_iff_not] at h
    simp [h, hstate]

omit [Double P] in
/-- A goodbye, as the command or on the way out, leaves the client unregistered. -/
theorem deregister_away (sent : Bool)
    {e : Option (ClientMessage P) → ClientInput P × Option (ClientMessage P)}
    (hnone : enrolment (e none) = .keep) (h : Away tr → c.currentState = .unregistered)
    (haway : (enrolment (e (c.deregister sent).datagram)).apply (Cell.value enrolment tr) = none) :
    (c.deregister sent).client.currentState = .unregistered := by
  rcases c.request_cases .registered .unregistered (fun rq => .deRegister rq c.name) sent with
    ⟨hquiet, hsame, -⟩ | ⟨-, -, hstate, -⟩
  · rw [P2PClient.deregister, hquiet, hnone] at haway
    exact hsame.trans (h haway)
  · exact hstate

omit [Double P] in
/-- An answer to an offer that keeps the state keeps it. -/
theorem answerOffer_state (requestNumber : Int32) (agrees : Offer P → Bool)
    (message : ClientMessage P) (sent : Bool) :
    (c.answerOffer requestNumber agrees c.currentState message sent).client.currentState =
      c.currentState := by
  unfold P2PClient.answerOffer
  split
  · rfl
  · split
    · rfl
    · cases sent <;> rfl

/-- **A user operation keeps an absence unregistered.** -/
theorem user_away (h : Away tr → c.currentState = .unregistered) (op : UserOp P) (sent : Bool)
    (haway : Away (tr ++ [(.user op sent, (op.run c sent).2)])) :
    (op.run c sent).1.currentState = .unregistered := by
  rw [away_snoc] at haway
  cases op with
  | registerWithServer localIp =>
    change (c.registerWithServer localIp sent).client.currentState = _
    change (enrolment (_, (c.registerWithServer localIp sent).datagram)).apply _ = none at haway
    rcases c.request_cases .unregistered .registering
      (fun rq => .register rq c.name localIp c.udpPort c.tcpPort) sent with
      ⟨hquiet, hsame, -⟩ | ⟨hsent, -⟩
    · rw [P2PClient.registerWithServer, hquiet] at haway
      exact hsame.trans (h haway)
    · rw [P2PClient.registerWithServer, hsent] at haway
      cases haway
  | deregister =>
    exact deregister_away sent rfl h haway
  | searchItem itemName description maxPrice =>
    have hstate := h haway
    change (c.searchItem itemName description maxPrice sent).client.currentState = _
    rw [P2PClient.searchItem, P2PClient.request, if_pos (by simp [hstate])]
    exact hstate
  | negotiateOffer rq itemName counterPrice =>
    have hstate := h haway
    simp [UserOp.run, P2PClient.negotiateOffer, hstate, OpResult.effect]
  | acceptOffer rq itemName price => exact (answerOffer_state _ _ _ _).trans (h haway)
  | refuseOffer rq itemName price => exact (answerOffer_state _ _ _ _).trans (h haway)
  | addItem name description price => exact h haway
  | removeItem name => exact h haway
  | quit =>
    simp only [UserOp.run, P2PClient.quit] at haway ⊢
    split at haway
    case isTrue hregistered =>
      rw [if_pos hregistered]
      exact deregister_away sent (e := fun m => (.user .quit sent, m)) rfl h haway
    case isFalse hother =>
      rw [if_neg hother]
      exact h haway

end Step

/-! ### Runs -/

section Run
variable {config : ClientConfig} {tr : ClientHistory P} {c : P2PClient P}

theorem unregistered_of_quiet (h : Run (clientMachine P) (.new config) tr c)
    (hquiet : QuietWhileAway tr) : Away tr → c.currentState = .unregistered := by
  induction h with
  | start => exact fun _ => rfl
  | @snoc tr c c' l m hrun hstep ih =>
    have hfront : QuietWhileAway tr := fun front e back htr =>
      hquiet front e (back ++ [(l, m)]) (by simp [htr])
    have hstate := ih hfront
    intro haway
    cases l with
    | user op sent =>
      obtain ⟨rfl, rfl⟩ := Prod.mk.inj (Option.some.inj hstep)
      exact user_away hstate op sent haway
    | receive message sent =>
      obtain ⟨rfl, rfl⟩ := Prod.mk.inj (Option.some.inj hstep)
      rw [away_snoc, enrolment_receive] at haway
      exact receive_quiet (hquiet tr _ [] rfl haway) (hstate haway)

/-- **A client that is away is unregistered in every state of a run iff no REGISTERED,
FOUND or NOT_FOUND reaches it while it is away.** -/
theorem away_unregistered_iff (h : Run (clientMachine P) (.new config) tr c) :
    StatesMeet (clientMachine P) (fun tr c => Away tr → c.currentState = .unregistered)
      (.new config) tr ↔ QuietWhileAway tr := by
  constructor
  · intro hstates front e back htr haway
    obtain ⟨l, m⟩ := e
    cases l with
    | user op sent => rfl
    | receive message sent =>
      by_contra hadmits
      subst htr
      obtain ⟨c₀, hfront, -⟩ := h.split
      obtain ⟨c₁, hstep⟩ := h.step_at hfront
      have hstill := hstates.next hfront hstep (by rwa [away_snoc, enrolment_receive])
      obtain ⟨rfl, rfl⟩ := Prod.mk.inj (Option.some.inj hstep)
      have hregistered := receive_admits (c := c₀) (by simpa using hadmits)
      cases hstill.symm.trans hregistered
  · intro hquiet front back c₁ htr hfront
    refine unregistered_of_quiet hfront fun a e b hab => ?_
    exact hquiet a e (b ++ back) (by rw [htr, hab]; simp)

end Run

/-- A registration, its answer, a goodbye, and the answer once more. -/
def lateAnswer : List (ClientInput Rat) :=
  [.user (.registerWithServer "127.0.0.1") true,
   .receive (ServerMessage.registered (.int 1)).toJson true,
   .user .deregister true,
   .receive (ServerMessage.registered (.int 1)).toJson true]

theorem away_unregistered_iff_late : ∃ (c : P2PClient Rat) (tr : ClientHistory Rat),
    Run (clientMachine Rat) (.new ⟨"peer1", 5001, 6001⟩) tr c ∧
      (StatesMeet (clientMachine Rat) (fun tr c => Away tr → c.currentState = .unregistered)
        (.new ⟨"peer1", 5001, 6001⟩) tr ↔ QuietWhileAway tr) := by
  obtain ⟨c, tr, hrun, -⟩ := (clientMachine Rat).exec_view (.new ⟨"peer1", 5001, 6001⟩) lateAnswer
    (fun _ => true) (v := true) rfl
  exact ⟨c, tr, hrun, away_unregistered_iff hrun⟩

/-- The duplicate of a REGISTERED registers a client that has left. -/
theorem late_answer_registers : ∃ (c : P2PClient Rat) (tr : ClientHistory Rat),
    Run (clientMachine Rat) (.new ⟨"peer1", 5001, 6001⟩) tr c ∧ Away tr ∧
      c.currentState = .registered := by
  obtain ⟨c, tr, hrun, hview⟩ := (clientMachine Rat).exec_view (.new ⟨"peer1", 5001, 6001⟩)
    lateAnswer (fun r => (Cell.value enrolment r.2, r.1.currentState))
    (v := (none, .registered)) rfl
  obtain ⟨haway, hstate⟩ := Prod.mk.inj hview
  exact ⟨c, tr, hrun, haway, hstate⟩

end P2PShopping
