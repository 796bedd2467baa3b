import P2PShopping.System.Network

/-! The two threads of a client around a registration.

`registerWithServer` hands its datagram to the network and then sets REGISTERING;
the receive thread may handle the reply in between, and the assignment that follows
writes over what the reply has set. Here the two steps of the call are moves of
their own, and everything else the network does may come between them. Whether a
client that has its reply is in state REGISTERED is decided by what it handles after
the second step (`reply_kept_iff`). -/
namespace P2PShopping
open Json Runs

variable {P : Type} [Double P]

/-! ### The two steps of `registerWithServer` -/

namespace P2PClient

omit [Double P] in
/-- Up to `sendMessage`, which is the result: the state is not changed yet. -/
def registerSend (c : P2PClient P) (localIp : String) (sent : Bool) : OpResult P :=
  c.request .unregistered .unregistered
    (fun rq => .register rq c.name localIp c.udpPort c.tcpPort) sent

omit [Double P] in
/-- What is left of the call if `sendMessage` has returned true. -/
def registerSet (c : P2PClient P) : P2PClient P := {c with currentState := .registering}

omit [Double P] in
/-- Without anything in between the two are the call. -/
theorem registerWithServer_eq (c : P2PClient P) (localIp : String) (sent : Bool) :
    c.registerWithServer localIp sent =
      let r := c.registerSend localIp sent
      if r.result then {r with client := r.client.registerSet} else r := by
  unfold registerWithServer registerSend request
  by_cases hstate : c.currentState = .unregistered
  · cases sent <;> simp [hstate, registerSet]
  · simp [hstate]

end P2PClient

/-! ### The system with divided calls -/

structure Threads (P : Type) [Double P] where
  system : System P
  /-- The peers whose user thread stands between the two steps. -/
  inside : SockaddrIn → Bool := fun _ => false

inductive ThreadMove (P : Type) where
  | sendRegister (a : SockaddrIn) (localIp : String) (sent : Bool)
  | setRegistering (a : SockaddrIn)
  | move (l : Move P)

/-- What a move shows, with the message whose handling it is. -/
structure ThreadLog (P : Type) where
  log : Log P := {}
  handled : Option (ServerMessage P × SockaddrIn) := none

namespace Threads

def lift (t : Threads P) (l : Move P) (handled : Option (ServerMessage P × SockaddrIn)) :
    Option (Threads P × ThreadLog P) :=
  match t.system.step l with
  | none => none
  | some (system, log) => some ({t with system}, {log, handled})

def step (t : Threads P) : ThreadMove P → Option (Threads P × ThreadLog P)
  | .sendRegister a localIp sent =>
    if (t.system.clients a).running ∧ t.inside a = false then
      let r := (t.system.clients a).registerSend localIp sent
      let (system, log) := t.system.act a r.effect
      some ({system, inside := Function.update t.inside a r.result}, {log})
    else none
  | .setRegistering a =>
    if t.inside a then
      let c := (t.system.clients a).registerSet
      some ({system := {t.system with clients := Function.update t.system.clients a c},
             inside := Function.update t.inside a false}, {})
    else none
  -- A user thread does one thing at a time, and registers in the two steps above.
  | .move (.user _ (.registerWithServer _) _) => none
  | .move (.user a op sent) => if t.inside a then none else t.lift (.user a op sent) none
  | .move (.deliver k sent) => t.lift (.deliver k sent) t.system.toClient[k]?
  | .move l => t.lift l none

def start (peers : SockaddrIn → Option ClientConfig) : Threads P := {system := .start peers}

end Threads

variable (P) in
def threads : Machine (Threads P) (ThreadMove P) (ThreadLog P) := ⟨Threads.step⟩

abbrev ThreadHistory (P : Type) := List (ThreadMove P × ThreadLog P)

/-- A command of the user at `a`. -/
def commands (a : SockaddrIn) : ThreadMove P → Bool
  | .sendRegister b _ _ => b = a
  | .move (.user b _ _) => b = a
  | _ => false

/-- The server's messages that set REGISTERED. -/
def ServerMessage.setsRegistered : ServerMessage P → Bool
  | .registered rq => (getInt rq).toBool
  | .found _ _ _ => true
  | _ => false

/-- Such a message is handled at `a`. -/
def Settles (a : SockaddrIn) (e : ThreadMove P × ThreadLog P) : Prop :=
  ∃ m, e.2.handled = some (m, a) ∧ m.setsRegistered = true

/-! ### One move -/

theorem received_state (c : P2PClient P) (m : ServerMessage P) (sent : Bool) :
    (c.handleReceivedMessage m.toJson sent).1.currentState =
      if m.setsRegistered then .registered else c.currentState := by
  cases m with
  | registered rq =>
    cases hrq : getInt rq with
    | ok n => simp [P2PClient.handle_registered c sent hrq, ServerMessage.setsRegistered, hrq,
        Except.toBool]
    | error fault =>
      simp [P2PClient.handleReceivedMessage, ServerMessage.parse_registered_none hrq,
        ServerMessage.setsRegistered, hrq, Except.toBool]
  | registerDenied rq reason =>
    simp [P2PClient.handle_registerDenied, ServerMessage.setsRegistered]
  | search rq itemName description =>
    cases hdescription : getString description with
    | ok s =>
      obtain rfl := getString_eq_ok.mp hdescription
      simp [P2PClient.handle_search, ServerMessage.setsRegistered]
    | error fault =>
      simp [P2PClient.handleReceivedMessage, ServerMessage.parse_search_none hdescription,
        ServerMessage.setsRegistered]
  | notAvailable rq itemName price =>
    simp [P2PClient.handle_notAvailable, ServerMessage.setsRegistered]
  | found rq itemName price => simp [P2PClient.handle_found, ServerMessage.setsRegistered]
  | negotiate rq itemName maxPrice =>
    simp [P2PClient.handle_negotiate, ServerMessage.setsRegistered]

section Step
variable {a : SockaddrIn} {t t' : Threads P}

theorem Threads.lift_eq_some {l : Move P} {handled : Option (ServerMessage P × SockaddrIn)}
    {log : ThreadLog P} (h : t.lift l handled = some (t', log)) :
    ∃ system, (network P).step t.system l = some (system, log.log) ∧ t' = {t with system} ∧
      log.handled = handled := by
  unfold Threads.lift at h
  cases hstep : t.system.step l with
  | none => simp [hstep] at h
  | some r =>
    rw [hstep] at h
    cases h
    exact ⟨r.1, hstep, rfl, rfl⟩

/-- Every move of the system but a delivery shows no handling. -/
theorem Threads.step_move {l : Move P} {log : ThreadLog P}
    (h : t.step (.move l) = some (t', log)) (hdeliver : ∀ k sent, l ≠ .deliver k sent) :
    t.lift l none = some (t', log) := by
  cases l with
  | user b op sent =>
    cases op with
    | registerWithServer localIp => cases h
    | _ =>
      simp only [Threads.step] at h
      split at h
      · cases h
      · exact h
  | deliver k sent => exact absurd rfl (hdeliver k sent)
  | _ => exact h

theorem not_settles {e : ThreadMove P × ThreadLog P} (h : e.2.handled = none) : ¬ Settles a e := by
  intro hsettles
  obtain ⟨m, hm, -⟩ := hsettles
  rw [h] at hm
  cases hm

/-- A move of the system that is no delivery at `a` and no command there leaves its client. -/
theorem client_unmoved {s s' : System P} {l : Move P} {log : Log P}
    (h : (network P).step s l = some (s', log)) (huser : commands a (.move l) = false)
    (hdeliver : ∀ k sent, l ≠ .deliver k sent) : s'.clients a = s.clients a := by
  cases step_moved h with
  | @acted b op sent c m hrunning hacted =>
    have hb : a ≠ b := fun hab => by simp [commands, hab] at huser
    exact Function.update_of_ne hb _ _
  | delivered => exact absurd rfl (hdeliver _ _)
  | _ => rfl

/-- A delivery leaves every client but the one it is for, and sets REGISTERED there or
leaves the state. -/
theorem deliver_state {s s' : System P} {k : Nat} {sent : Bool} {log : Log P}
    (h : (network P).step s (.deliver k sent) = some (s', log)) :
    ∃ m b, s.toClient[k]? = some (m, b) ∧ (s'.clients a).currentState =
      if b = a ∧ m.setsRegistered = true then .registered else (s.clients a).currentState := by
  cases step_moved h with
  | @delivered _ _ m b c reply hm hreceived hhandle =>
    refine ⟨m, b, hm, ?_⟩
    have hstate := received_state (s.clients b) m sent
    rw [hhandle] at hstate
    by_cases hb : b = a
    · subst hb
      simpa using hstate
    · simp [hb, Function.update_of_ne (Ne.symm hb)]

/-- **What a move does to a client whose user does nothing.** Before and after it the
user thread is outside the call. -/
theorem idle_step {e : ThreadMove P × ThreadLog P} (h : (threads P).step t e.1 = some (t', e.2))
    (hidle : commands a e.1 = false) (hout : t.inside a = false) :
    t'.inside a = false ∧
      (Settles a e → (t'.system.clients a).currentState = .registered) ∧
      (¬ Settles a e →
        (t'.system.clients a).currentState = (t.system.clients a).currentState) := by
  obtain ⟨l, log⟩ := e
  change t.step l = some (t', log) at h
  cases l with
  | sendRegister b localIp sent =>
    have hb : a ≠ b := fun hab => by simp [commands, hab] at hidle
    simp only [Threads.step] at h
    split at h
    case isFalse => cases h
    case isTrue =>
      cases h
      refine ⟨by simpa [hb] using hout, fun hsettles => absurd hsettles (not_settles rfl),
        fun _ => ?_⟩
      simp [System.act, hb]
  | setRegistering b =>
    simp only [Threads.step] at h
    split at h
    case isFalse => cases h
    case isTrue hinside =>
      have hb : a ≠ b := fun hab => by rw [hab, hinside] at hout; cases hout
      cases h
      refine ⟨by simpa [hb] using hout, fun hsettles => absurd hsettles (not_settles rfl),
        fun _ => ?_⟩
      simp [hb]
  | move l =>
    by_cases hdeliver : ∃ k sent, l = .deliver k sent
    · obtain ⟨k, sent, rfl⟩ := hdeliver
      obtain ⟨system, hstep, rfl, hhandled⟩ := Threads.lift_eq_some h
      obtain ⟨m, b, hm, hstate⟩ := deliver_state (a := a) hstep
      rw [hm] at hhandled
      refine ⟨hout, fun hsettles => ?_, fun hquiet => ?_⟩
      · obtain ⟨m', hm', hsets⟩ := hsettles
        obtain ⟨rfl, rfl⟩ : m = m' ∧ b = a := by simpa [hhandled] using hm'
        rw [hstate, if_pos ⟨rfl, hsets⟩]
      · rw [hstate, if_neg]
        intro hboth
        obtain ⟨rfl, hsets⟩ := hboth
        exact hquiet ⟨m, hhandled, hsets⟩
    · have hother : ∀ k sent, l ≠ .deliver k sent := fun k sent hl => hdeliver ⟨k, sent, hl⟩
      obtain ⟨system, hstep, rfl, hhandled⟩ := Threads.lift_eq_some (Threads.step_move h hother)
      refine ⟨hout, fun hsettles => absurd hsettles (not_settles hhandled), fun _ => ?_⟩
      rw [client_unmoved hstep hidle hother]

end Step

/-! ### Runs -/

section Run
variable {peers : SockaddrIn → Option ClientConfig} {a : SockaddrIn}

/-- **While the user does nothing**, the state is REGISTERED if a message has set it,
and as it was if none has. -/
theorem idle_run {t t' : Threads P} {tr : ThreadHistory P} (h : Run (threads P) t tr t')
    (hout : t.inside a = false) (hidle : ∀ e ∈ tr, commands a e.1 = false) :
    t'.inside a = false ∧
      ((∃ e ∈ tr, Settles a e) → (t'.system.clients a).currentState = .registered) ∧
      ((∀ e ∈ tr, ¬ Settles a e) →
        (t'.system.clients a).currentState = (t.system.clients a).currentState) := by
  induction h with
  | start => exact ⟨hout, by simp, fun _ => rfl⟩
  | @snoc tr s s' l o hrun hstep ih =>
    obtain ⟨hidle, hlast⟩ := List.forall_mem_append.mp hidle
    obtain ⟨hout, hset, hkept⟩ := ih hidle
    obtain ⟨hout', hset', hkept'⟩ := idle_step (e := (l, o)) hstep (hlast _ (by simp)) hout
    refine ⟨hout', fun hsome => ?_, fun hnone => ?_⟩
    · obtain ⟨e, he, hsettles⟩ := hsome
      rcases List.mem_append.mp he with he | he
      · by_cases hnow : Settles a (l, o)
        · exact hset' hnow
        · rw [hkept' hnow]
          exact hset ⟨e, he, hsettles⟩
      · obtain rfl := List.mem_singleton.mp he
        exact hset' hsettles
    · obtain ⟨hnone, hnow⟩ := List.forall_mem_append.mp hnone
      rw [hkept' (hnow _ (by simp))]
      exact hkept hnone

/-- The last command of the user at `a` is a `registerWithServer` with the number `rq`
that has returned true, `between` its two steps and `after` them the rest of the
history, and the REGISTERED that answers it has been handled. -/
structure Returned (tr : ThreadHistory P) (a : SockaddrIn) (rq : Int32)
    (between after : ThreadHistory P) : Prop where
  calls : ∃ front name ip udpPort tcpPort log log', tr = front ++
    (.sendRegister a ip true, log) :: (between ++ (.setRegistering a, log') :: after) ∧
    log.log.up = [(.register rq name ip udpPort tcpPort, a)]
  idle : ∀ e ∈ between ++ after, commands a e.1 = false
  answered : ∃ e ∈ between ++ after, e.2.handled = some (.registered (.int rq.toInt), a)

/-- **A client whose registration has been answered is in state REGISTERED iff it has
handled a REGISTERED or a FOUND since the second step of the call.** -/
theorem reply_kept_iff {tr between after : ThreadHistory P} {t : Threads P} {rq : Int32}
    (h : Run (threads P) (.start peers) tr t) (hreturned : Returned tr a rq between after) :
    (t.system.clients a).currentState = .registered ↔ ∃ e ∈ after, Settles a e := by
  obtain ⟨front, name, ip, udpPort, tcpPort, log, log', rfl, -⟩ := hreturned.calls
  have hidle : ∀ e ∈ after, commands a e.1 = false := fun e he =>
    hreturned.idle e (List.mem_append_right _ he)
  rw [List.append_cons, ← List.append_assoc, List.append_cons] at h
  obtain ⟨t₂, hfront, hafter⟩ := h.split
  obtain ⟨t₁, -, hstep⟩ := hfront.last
  -- The second step leaves the client in REGISTERING, with its user outside the call.
  have hset : (t₂.system.clients a).currentState = .registering ∧ t₂.inside a = false := by
    change t₁.step (.setRegistering a) = some (t₂, log') at hstep
    simp only [Threads.step] at hstep
    split at hstep
    case isTrue =>
      cases hstep
      simp [P2PClient.registerSet]
    case isFalse => cases hstep
  obtain ⟨-, hregistered, hkept⟩ := idle_run hafter hset.2 hidle
  constructor
  · intro hstate
    by_contra hnone
    rw [hkept fun e he hsettles => hnone ⟨e, he, hsettles⟩, hset.1] at hstate
    cases hstate
  · exact hregistered

end Run

/-! ### A registration on its own -/

/-- The datagram of the call, the server's work on it, and the reply at the client. -/
def called : ThreadMove Rat × ThreadLog Rat :=
  (.sendRegister peer1 "127.0.0.1" true,
    {log := {up := [(.register 1 "peer1" "127.0.0.1" 5001 6001, peer1)]}})

def servedCall : ThreadMove Rat × ThreadLog Rat :=
  (.move (.serve 0),
    {log := {served := some (.register 1 "peer1" "127.0.0.1" 5001 6001, peer1),
             down := [(.registered (.int 1), peer1)]}})

def replyHandled : ThreadMove Rat × ThreadLog Rat :=
  (.move (.deliver 0 true), {handled := some (.registered (.int 1), peer1)})

def callOver : ThreadMove Rat × ThreadLog Rat := (.setRegistering peer1, {})

/-- The call is over before the reply is there. -/
def slowReply : ThreadHistory Rat := [called, servedCall, callOver, replyHandled]

theorem reply_kept_iff_slow : ∃ t : Threads Rat, Run (threads Rat) (.start household) slowReply t ∧
    ((t.system.clients peer1).currentState = .registered ↔
      ∃ e ∈ [replyHandled], Settles peer1 e) := by
  obtain ⟨t, tr, hrun, rfl⟩ := (threads Rat).exec_view (.start household)
    (slowReply.map Prod.fst) Prod.snd (v := slowReply) rfl
  have hreturned : Returned slowReply peer1 1 [servedCall] [replyHandled] := by
    refine ⟨?_, ?_, ?_⟩
    · exact ⟨[], _, _, _, _, _, _, rfl, rfl⟩
    · decide
    · exact ⟨replyHandled, by simp, rfl⟩
  exact ⟨t, hrun, reply_kept_iff hrun hreturned⟩

/-- The reply is there before the call is over. -/
def fastReply : ThreadHistory Rat := [called, servedCall, replyHandled, callOver]

theorem fast_reply_overwritten : ∃ t : Threads Rat,
    Run (threads Rat) (.start household) fastReply t ∧
    Returned fastReply peer1 1 [servedCall, replyHandled] [] ∧
    (t.system.clients peer1).currentState = .registering := by
  obtain ⟨t, tr, hrun, hview⟩ := (threads Rat).exec_view (.start household)
    (fastReply.map Prod.fst) (fun r => ((r.1.system.clients peer1).currentState, r.2))
    (v := (.registering, fastReply)) rfl
  obtain ⟨hstate, rfl⟩ := Prod.mk.inj hview
  refine ⟨t, hrun, ⟨?_, ?_, ?_⟩, hstate⟩
  · exact ⟨[], _, _, _, _, _, _, rfl, rfl⟩
  · decide
  · exact ⟨replyHandled, by simp, rfl⟩

end P2PShopping
