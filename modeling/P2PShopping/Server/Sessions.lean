import P2PShopping.Library.Cell
import P2PShopping.Server.Requests

/-! The session table and the registrations behind it.

Any message may come from any address here, in any order, and workers and the event
thread interleave freely. The table holds a session for exactly the addresses whose
last completed REGISTER or DE_REGISTER was a REGISTER, as long as the event thread
never meets an event of an address without an entry: `operator[]` gives such an
address a null pointer. -/
namespace P2PShopping
open Collections Json Handler Runs

variable {P : Type} [Double P]

/-! ### What the history says -/

/-- The command of a message that prints without a type error: its handler runs. -/
def commandOf (j : Json P) : Option String :=
  match MessageParser.printMessage j with
  | .ok () => (do getString (← j.index "command") : Except Fault String).toOption
  | .error _ => none

/-- What a step does to the registration of `a`: a REGISTER or DE_REGISTER of it completes. -/
def registration? (a : SockaddrIn) : ServerInput P → Cell.Update Unit
  | .receive j clientAddr =>
    if clientAddr = a then
      if commandOf j = some "REGISTER" then .put ()
      else if commandOf j = some "DE_REGISTER" then .clear
      else .keep
    else .keep
  | _ => .keep

/-- The last REGISTER or DE_REGISTER of `a` that completed was a REGISTER. -/
def LastRegistered (a : SockaddrIn) (tr : List (ServerInput P × Sent P)) : Prop :=
  Cell.value (fun e => registration? a e.1) tr = some ()

/-- The claim of the table on a state and the history that led to it. -/
structure SessionsAgree (tr : List (ServerInput P × Sent P)) (s : Server P) : Prop where
  entry_iff : ∀ a, (s.peerSessions.lookup (getPeerIdentifier a)).isSome = true ↔
    LastRegistered a tr
  session : ∀ key entry, s.peerSessions.lookup key = some entry →
    ∃ session, entry = some session ∧ getPeerIdentifier session.peerAddr = key

/-- An event is popped only if its sender has an entry. -/
def knownSender (s : Server P) : ServerInput P → Bool
  | .event =>
    match s.eventQueue with
    | (_, a) :: _ => (s.peerSessions.lookup (getPeerIdentifier a)).isSome
    | [] => true
  | _ => true

/-! ### Completed commands -/

theorem commandOf_of_reads {j : Json P} {command : String}
    (hprint : MessageParser.printMessage j = .ok ()) (h : j.Reads getString "command" command) :
    commandOf j = some command := by
  obtain ⟨v, hv, hget⟩ := h
  simp [commandOf, hprint, hv, hget, Except.toOption]

/-- **Nothing is caught once a REGISTER or DE_REGISTER has printed**: its handler
completes, or the run ends. -/
theorem registration_completes {j : Json P} {a : SockaddrIn} {s s' : Server P} {fault : Fault}
    (hcaught : fault.caught = true) (h : dispatch j a s = .error fault s') :
    commandOf j ≠ some "REGISTER" ∧ commandOf j ≠ some "DE_REGISTER" := by
  simp only [dispatch, bind_error, lift_error, lift_ok] at h
  rcases h with ⟨hprint, -⟩ | ⟨_, _, ⟨hprint, rfl⟩, h⟩
  · simp [commandOf, hprint]
  simp only [handleCommand, bind_error, readKey_ok] at h
  rcases h with h | ⟨command, _, ⟨hcommand, rfl⟩, h⟩
  · have hnone : commandOf j = none := by
      obtain ⟨herr | ⟨v, hv, herr⟩, -⟩ := readKey_error.mp h
      · simp [commandOf, hprint, herr, Except.toOption]
      · simp [commandOf, hprint, hv, herr, Except.toOption]
    simp [hnone]
  · rw [commandOf_of_reads hprint hcommand]
    refine ⟨?_, ?_⟩
    · intro hword
      cases hword
      obtain ⟨-, v, hv, herr⟩ := handleRegister_error hcommand hcaught h
      obtain ⟨name, hname⟩ := MessageParser.name_of_print hprint hcommand hv
      rw [hname] at herr
      cases herr
    · intro hword
      cases hword
      rw [handleDeregister_error hcommand h] at hcaught
      cases hcaught

/-! ### What one step does -/

/-- What a message leaves in the table, by the command that completed. -/
theorem receive_sessions {s s' : Server P} {j : Json P} {addr : SockaddrIn} {sent : Sent P}
    (h : s.step (.receive j addr) = some (s', sent)) :
    (commandOf j = some "REGISTER" ∧
      (((s.peerSessions.lookup (getPeerIdentifier addr)).isSome = true ∧
          s'.peerSessions = s.peerSessions) ∨
        s'.peerSessions =
          s.peerSessions.insert (getPeerIdentifier addr) (some {peerAddr := addr}))) ∨
    (commandOf j = some "DE_REGISTER" ∧
      s'.peerSessions = s.peerSessions.erase (getPeerIdentifier addr)) ∨
    (commandOf j ≠ some "REGISTER" ∧ commandOf j ≠ some "DE_REGISTER" ∧
      s'.peerSessions = s.peerSessions) := by
  rcases receive_step h with ⟨s₁, hprint, hhandled, rfl, rfl⟩ |
    ⟨fault, hcaught, hdispatch, rfl, rfl⟩
  · cases hhandled with
    | denied hcommand _ hknown =>
      exact .inl ⟨commandOf_of_reads hprint hcommand, .inl ⟨hknown, rfl⟩⟩
    | registered hcommand =>
      exact .inl ⟨commandOf_of_reads hprint hcommand, .inr rfl⟩
    | deregistered hcommand =>
      exact .inr (.inl ⟨commandOf_of_reads hprint hcommand, rfl⟩)
    | searched hcommand =>
      rw [commandOf_of_reads hprint hcommand]
      exact .inr (.inr ⟨by decide, by decide, rfl⟩)
    | offered hcommand =>
      rw [commandOf_of_reads hprint hcommand, recordOffer_eq]
      exact .inr (.inr ⟨by decide, by decide, rfl⟩)
    | ignored hcommand hunknown =>
      rw [commandOf_of_reads hprint hcommand]
      simp only [List.mem_cons, not_or] at hunknown
      exact .inr (.inr ⟨by simp [hunknown], by simp [hunknown], rfl⟩)
  · obtain ⟨hregister, hderegister⟩ := registration_completes hcaught hdispatch
    exact .inr (.inr ⟨hregister, hderegister, rfl⟩)

/-- Whether there is an entry for `a`, as a cell. -/
def presence (s : Server P) (a : SockaddrIn) : Option Unit :=
  (s.peerSessions.lookup (getPeerIdentifier a)).map fun _ => ()

theorem presence_eq_some {s : Server P} {a : SockaddrIn} :
    presence s a = some () ↔ (s.peerSessions.lookup (getPeerIdentifier a)).isSome = true := by
  cases h : s.peerSessions.lookup (getPeerIdentifier a) <;> simp [presence, h]

/-- **An entry comes and goes with the registrations**, if no event inserts one. -/
theorem presence_step {s s' : Server P} {l : ServerInput P} {sent : Sent P}
    (h : s.step l = some (s', sent)) (hknown : knownSender s l = true) (a : SockaddrIn) :
    presence s' a = (registration? a l).apply (presence s a) := by
  cases l with
  | receive j addr =>
    by_cases haddr : addr = a
    · subst haddr
      rcases receive_sessions h with ⟨hcommand, ⟨hentry, hs⟩ | hs⟩ | ⟨hcommand, hs⟩ |
        ⟨hregister, hderegister, hs⟩
      · rw [← presence_eq_some] at hentry
        simp [registration?, hcommand, Cell.Update.apply, presence, hs, ← hentry]
      · simp [registration?, hcommand, Cell.Update.apply, presence, hs]
      · simp [registration?, hcommand, Cell.Update.apply, presence, hs]
      · simp [registration?, hregister, hderegister, Cell.Update.apply, presence, hs]
    · have hkey : getPeerIdentifier a ≠ getPeerIdentifier addr := by simpa using Ne.symm haddr
      have hkeep : (registration? a (.receive j addr) : Cell.Update Unit) = .keep := by
        simp [registration?, haddr]
      rw [hkeep]
      rcases receive_sessions h with ⟨-, ⟨-, hs⟩ | hs⟩ | ⟨-, hs⟩ | ⟨-, -, hs⟩
      · simp [presence, hs, Cell.Update.apply]
      · simp [presence, hs, Cell.Update.apply, AList.lookup_insert_ne hkey]
      · simp [presence, hs, Cell.Update.apply, AList.lookup_erase_ne hkey]
      · simp [presence, hs, Cell.Update.apply]
  | push k =>
    obtain ⟨-, events, -, rfl⟩ := push_step h
    rfl
  | event =>
    obtain ⟨-, event, b, rest, sessions, machine, hqueue, rfl, hlookup⟩ := event_step h
    simp only [knownSender, hqueue] at hknown
    show (sessions.lookup (getPeerIdentifier a)).map _ = presence s a
    rw [hlookup, visited]
    split
    case isFalse => rfl
    case isTrue hkey =>
      rw [← hkey, ← presence_eq_some] at hknown
      rw [hknown]
      rfl
  | timeout k =>
    obtain ⟨rq, started, -, -, rfl⟩ := timeout_step h
    rfl
  | tick d =>
    obtain ⟨-, rfl⟩ := tick_step h
    rfl

/-- Every entry is a session under its own key. -/
def EntriesGood (s : Server P) : Prop :=
  ∀ key entry, s.peerSessions.lookup key = some entry →
    ∃ session, entry = some session ∧ getPeerIdentifier session.peerAddr = key

/-- Where an entry comes from: it was there, a registration put it there, or an event
of its address went through it. -/
theorem entry_origin {s s' : Server P} {l : ServerInput P} {sent : Sent P}
    (h : s.step l = some (s', sent)) {key : String} {entry : Option (PeerSession P)}
    (hentry : s'.peerSessions.lookup key = some entry) :
    s.peerSessions.lookup key = some entry ∨
    (∃ a, key = getPeerIdentifier a ∧ entry = some {peerAddr := a}) ∨
    ∃ event a rest, l = .event ∧ s.eventQueue = (event, a) :: rest ∧ key = getPeerIdentifier a ∧
      entry = (s.peerSessions.lookup key).join.map (PeerSession.visit event) := by
  cases l with
  | receive j addr =>
    rcases receive_sessions h with ⟨-, ⟨-, hs⟩ | hs⟩ | ⟨-, hs⟩ | ⟨-, -, hs⟩
    · exact .inl (hs ▸ hentry)
    · rw [hs] at hentry
      by_cases hkey : key = getPeerIdentifier addr
      · subst hkey
        rw [AList.lookup_insert] at hentry
        exact .inr (.inl ⟨addr, rfl, (Option.some.inj hentry).symm⟩)
      · rw [AList.lookup_insert_ne hkey] at hentry
        exact .inl hentry
    · rw [hs] at hentry
      by_cases hkey : key = getPeerIdentifier addr
      · subst hkey
        rw [AList.lookup_erase] at hentry
        cases hentry
      · rw [AList.lookup_erase_ne hkey] at hentry
        exact .inl hentry
    · exact .inl (hs ▸ hentry)
  | push k =>
    obtain ⟨-, events, -, rfl⟩ := push_step h
    exact .inl hentry
  | event =>
    obtain ⟨-, event, b, rest, sessions, machine, hqueue, rfl, hlookup⟩ := event_step h
    rw [hlookup, visited] at hentry
    split at hentry
    case isFalse => exact .inl hentry
    case isTrue hkey =>
      exact .inr (.inr ⟨event, b, rest, rfl, hqueue, hkey, (Option.some.inj hentry).symm⟩)
  | timeout k =>
    obtain ⟨rq, started, -, -, rfl⟩ := timeout_step h
    exact .inl hentry
  | tick d =>
    obtain ⟨-, rfl⟩ := tick_step h
    exact .inl hentry

theorem entriesGood_step {s s' : Server P} {l : ServerInput P} {sent : Sent P}
    (hgood : EntriesGood s) (h : s.step l = some (s', sent)) (hknown : knownSender s l = true) :
    EntriesGood s' := by
  intro key entry hentry
  rcases entry_origin h hentry with hold | ⟨a, rfl, rfl⟩ |
    ⟨event, a, rest, rfl, hqueue, rfl, rfl⟩
  · exact hgood key entry hold
  · exact ⟨_, rfl, rfl⟩
  · -- The sender has an entry, so a session, which the event moves on.
    simp only [knownSender, hqueue] at hknown
    obtain ⟨old, hold⟩ := Option.isSome_iff_exists.mp hknown
    obtain ⟨session, rfl, hsession⟩ := hgood _ old hold
    rw [hold]
    exact ⟨session.visit event, rfl, hsession⟩

/-! ### Runs -/

section Run
variable {s : Server P} {tr : List (ServerInput P × Sent P)}

theorem sessionsAgree_of_known (h : Run (serverMachine P) {} tr s)
    (hknown : StepsMeet (serverMachine P) (knownSender · ·) {} tr) : SessionsAgree tr s := by
  have hgood : EntriesGood s :=
    h.invariant_of (knownSender · ·) (fun _ s => EntriesGood s) (fun key entry h => by cases h)
      (fun _ _ _ _ _ _ hgood hC hstep => entriesGood_step hgood hstep hC) hknown
  have hpresence : ∀ a, presence s a = Cell.value (fun e => registration? a e.1) tr := by
    intro a
    refine h.invariant_of (knownSender · ·)
      (fun tr s => presence s a = Cell.value (fun e => registration? a e.1) tr) rfl ?_ hknown
    intro tr s l s' sent _ ih hC hstep
    rw [presence_step hstep hC, ih, Cell.value_snoc]
  exact ⟨fun a => by rw [← presence_eq_some, hpresence]; rfl, hgood⟩

/-- An event of an address without an entry leaves a null pointer behind. -/
theorem null_of_unknown {s s' : Server P} {l : ServerInput P} {sent : Sent P}
    (h : s.step l = some (s', sent)) (hunknown : ¬ knownSender s l = true) : ¬ EntriesGood s' := by
  cases l with
  | receive | push | timeout | tick => exact absurd rfl hunknown
  | event =>
    obtain ⟨-, event, b, rest, sessions, machine, hqueue, rfl, hlookup⟩ := event_step h
    simp only [knownSender, hqueue, Bool.not_eq_true, Option.isSome_eq_false_iff,
      Option.isNone_iff_eq_none] at hunknown
    intro hgood
    have hnull : sessions.lookup (getPeerIdentifier b) = some none := by
      rw [hlookup, visited, if_pos rfl, hunknown]
      rfl
    obtain ⟨session, hsession, -⟩ := hgood _ _ hnull
    cases hsession

/-- **The table agrees with the registrations in every state of a run iff no event of
an address without an entry was processed.** -/
theorem sessions_agree_iff (h : Run (serverMachine P) {} tr s) :
    StatesMeet (serverMachine P) SessionsAgree {} tr ↔
      StepsMeet (serverMachine P) (knownSender · ·) {} tr := by
  constructor
  · intro hagree front e back s₁ htr hrun
    by_contra hunknown
    subst htr
    obtain ⟨s₂, hstep⟩ := h.step_at hrun
    exact null_of_unknown hstep hunknown (hagree.next hrun hstep).session
  · intro hknown front back s₁ htr hrun
    exact sessionsAgree_of_known hrun (StepsMeet.front (htr ▸ hknown))

end Run

/-- A message is handled, its event pushed and processed. -/
def processed (m : ClientMessage Rat) (a : SockaddrIn) : List (ServerInput Rat) :=
  [.receive m.toJson a, .push 0, .event]

theorem sessions_agree_iff_registered : ∃ s tr,
    Run (serverMachine Rat) {} tr s ∧
      (s.peerSessions.lookup (getPeerIdentifier (loopback 5001))).map Option.isSome = some true ∧
      (StatesMeet (serverMachine Rat) SessionsAgree {} tr ↔
        StepsMeet (serverMachine Rat) (knownSender · ·) {} tr) := by
  obtain ⟨s, tr, hrun, hview⟩ := (serverMachine Rat).exec_view {}
    (processed (.register 1 "peer1" "127.0.0.1" 5001 6001) (loopback 5001))
    (fun r => (r.1.peerSessions.lookup (getPeerIdentifier (loopback 5001))).map Option.isSome)
    (v := some true) (by decide +kernel)
  exact ⟨s, tr, hrun, hview, sessions_agree_iff hrun⟩

/-- A search of a peer that never registered leaves a null session under its address. -/
theorem null_session : ∃ s tr, Run (serverMachine Rat) {} tr s ∧ ¬ SessionsAgree tr s := by
  obtain ⟨s, tr, hrun, hview⟩ := (serverMachine Rat).exec_view {}
    (processed (.lookingFor 1 "peer1" "lamp" "old" 10) (loopback 5001))
    (fun r => (r.1.peerSessions.lookup (getPeerIdentifier (loopback 5001))).map Option.isNone)
    (v := some true) (by decide +kernel)
  refine ⟨s, tr, hrun, fun hagree => ?_⟩
  obtain ⟨entry, hentry, hnull⟩ := Option.map_eq_some_iff.mp hview
  obtain ⟨session, rfl, -⟩ := hagree.session _ _ hentry
  cases hnull

end P2PShopping
