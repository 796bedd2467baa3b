import P2PShopping.Library.Automata
import P2PShopping.Server.StateMachine

/-! What the name-keyed tables stand for.

`StateMachine` files a handler under the name of its state and the name of its event,
one map inside another, and that is an automaton whose key is the pair of names
(`current_eq_reach`). What is meant is the automaton whose key is the pair of types.
The names of a `P2PState` and of a `P2PEvent` tell their types apart, those of a
`ServerState` do not: four of them are called UNKNOWN and share their transitions
(`implements_types_iff`). -/
namespace P2PShopping
open Collections Automata

/-! ### The table as an automaton -/

section Names
variable {S E : Type} [Named S] [Named E]

/-- These `addTransition` calls, one after another. -/
def StateMachine.build (s : S) (calls : List (Transition S E)) : StateMachine S E :=
  calls.foldl (fun m c => m.addTransition c.source c.event c.handler) {currentState := s}

def StateMachine.run (m : StateMachine S E) (events : List E) : StateMachine S E :=
  events.foldl StateMachine.processEvent m

def nameKey (s : S) (e : E) : String × String := (Named.getName s, Named.getName e)

/-- The nested maps hold what the table of the automaton holds. -/
structure Holds (m : StateMachine S E) (a : Automaton S E (String × String)) : Prop where
  current : m.currentState = a.current
  table : ∀ state event, (m.transitions.lookup state).bind (·.lookup event) = a.table (state, event)

theorem Holds.addTransition {m : StateMachine S E} {a : Automaton S E (String × String)}
    (h : Holds m a) (c : Transition S E) :
    Holds (m.addTransition c.source c.event c.handler) (a.add nameKey c) := by
  refine ⟨h.current, fun state event => ?_⟩
  have hold := h.table state event
  simp only [StateMachine.addTransition, Automaton.add, nameKey]
  by_cases hstate : state = Named.getName c.source
  · subst hstate
    rw [AList.lookup_insert, Option.bind_some]
    by_cases hevent : event = Named.getName c.event
    · subst hevent
      rw [AList.lookup_insert, Function.update_self]
    · rw [AList.lookup_insert_ne hevent, Function.update_of_ne (by simp [hevent]), ← hold]
      cases m.transitions.lookup (Named.getName c.source) <;> rfl
  · rw [AList.lookup_insert_ne hstate, Function.update_of_ne (by simp [hstate]), hold]

theorem Holds.processEvent {m : StateMachine S E} {a : Automaton S E (String × String)}
    (h : Holds m a) (e : E) : Holds (m.processEvent e) (a.process nameKey e) := by
  have hfound := h.table (Named.getName m.currentState) (Named.getName e)
  simp only [StateMachine.processEvent, Automaton.process, nameKey]
  rw [← h.current, ← hfound]
  cases m.transitions.lookup (Named.getName m.currentState) with
  | none => exact h
  | some row =>
    simp only [Option.bind_some]
    cases row.lookup (Named.getName e) with
    | none => exact h
    | some handler =>
      simp only
      cases handler e with
      | none => exact ⟨rfl, h.table⟩
      | some newState => exact ⟨rfl, h.table⟩

/-- **The machine is the automaton with the pair of names as its key.** -/
theorem current_eq_reach (s : S) (calls : List (Transition S E)) (events : List E) :
    ((StateMachine.build s calls).run events).currentState = reach nameKey s calls events := by
  have hbuilt : Holds (StateMachine.build s calls) (Automaton.build nameKey s calls) := by
    induction calls using List.reverseRecOn with
    | nil => exact ⟨rfl, fun _ _ => rfl⟩
    | append_singleton calls c ih =>
      rw [StateMachine.build, List.foldl_append, build_snoc]
      exact ih.addTransition c
  have hrun : Holds ((StateMachine.build s calls).run events)
      (events.foldl (Automaton.process nameKey) (Automaton.build nameKey s calls)) := by
    induction events using List.reverseRecOn with
    | nil => exact hbuilt
    | append_singleton events e ih =>
      rw [StateMachine.run, List.foldl_append, List.foldl_append]
      exact ih.processEvent e
  exact hrun.current

end Names

/-! ### What the names tell apart -/

theorem P2PEventType.getName_inj {t t' : P2PEventType} (h : t.getName = t'.getName) : t = t' := by
  cases t <;> cases t' <;> first | rfl | simp [getName] at h

theorem P2PStateType.getName_inj {s s' : P2PStateType} (h : s.getName = s'.getName) : s = s' := by
  cases s <;> cases s' <;> first | rfl | simp [getName] at h

/-- The states with a `case` of their own in `getName`. -/
def ServerStateType.Listed (s : ServerStateType) : Prop :=
  s = .listening ∨ s = .processingRegistration

instance (s : ServerStateType) : Decidable s.Listed :=
  inferInstanceAs (Decidable (s = .listening ∨ s = .processingRegistration))

/-- Two states share a name iff they are the same or neither is listed. -/
theorem ServerStateType.getName_eq_iff {s s' : ServerStateType} :
    s.getName = s'.getName ↔ s = s' ∨ ¬ s.Listed ∧ ¬ s'.Listed := by
  cases s <;> cases s' <;> simp [getName, Listed]

/-! ### The table keyed by types -/

section Types
variable {P : Type} [Double P] {S : Type} [Named S] [DecidableEq S]

def typeKey (s : S) (e : P2PEvent P) : S × P2PEventType := (s, e.type)

/-- After each of the events the machine is where the automaton keyed by types is. -/
def Implements (s : S) (calls : List (Transition S (P2PEvent P))) (events : List (P2PEvent P)) :
    Prop :=
  ∀ front back, events = front ++ back →
    ((StateMachine.build s calls).run front).currentState = reach typeKey s calls front

/-- The state is listed, or the last transition from a state that is not, for the
type of the event, does what the last one from this state does. -/
def NamesSuffice (calls : List (Transition ServerStateType (P2PEvent P))) (s : ServerStateType)
    (e : P2PEvent P) : Prop :=
  s.Listed ∨
    moved (last (fun c => ¬ c.source.Listed ∧ c.event.type = e.type) calls) s e =
      moved (last (fun c => c.source = s ∧ c.event.type = e.type) calls) s e

theorem implements_iff {s : S} {calls : List (Transition S (P2PEvent P))}
    {events : List (P2PEvent P)} :
    Implements s calls events ↔ ∀ front e back, events = front ++ e :: back →
      moved (last (filed nameKey (nameKey (reach typeKey s calls front) e)) calls)
          (reach typeKey s calls front) e =
        moved (last (filed typeKey (typeKey (reach typeKey s calls front) e)) calls)
          (reach typeKey s calls front) e := by
  simp only [Implements, current_eq_reach]
  exact reach_agree_iff

omit [DecidableEq S] in
theorem nameKey_eq_iff {s s' : S} {e e' : P2PEvent P} :
    nameKey s e = nameKey s' e' ↔ Named.getName s = Named.getName s' ∧ e.type = e'.type := by
  rw [nameKey, nameKey, Prod.mk.injEq]
  refine and_congr_right fun _ => ⟨P2PEventType.getName_inj, congrArg P2PEventType.getName⟩

/-- Where a state shares its name with no other, the names select what the types do. -/
theorem last_nameKey {calls : List (Transition S (P2PEvent P))} {s : S} {e : P2PEvent P}
    (hown : ∀ s' : S, Named.getName s' = Named.getName s → s' = s) :
    last (filed nameKey (nameKey s e)) calls = last (filed typeKey (typeKey s e)) calls := by
  refine last_filed_congr fun c _ => ?_
  rw [nameKey_eq_iff, typeKey, typeKey, Prod.mk.injEq]
  exact and_congr_left fun _ => ⟨hown c.source, congrArg Named.getName⟩

theorem namesSuffice_iff {calls : List (Transition ServerStateType (P2PEvent P))}
    {s : ServerStateType} {e : P2PEvent P} :
    moved (last (filed nameKey (nameKey s e)) calls) s e =
        moved (last (filed typeKey (typeKey s e)) calls) s e ↔ NamesSuffice calls s e := by
  by_cases hlisted : s.Listed
  · have hown : ∀ s' : ServerStateType, Named.getName s' = Named.getName s → s' = s := by
      intro s' hname
      exact (ServerStateType.getName_eq_iff.mp hname).resolve_right fun hboth => hboth.2 hlisted
    simp [NamesSuffice, hlisted, last_nameKey hown]
  · have hshared : last (filed nameKey (nameKey s e)) calls =
        last (fun c => ¬ c.source.Listed ∧ c.event.type = e.type) calls := by
      refine last_congr fun c _ => ?_
      rw [filed, decide_eq_decide, nameKey_eq_iff]
      refine and_congr_left fun _ => ServerStateType.getName_eq_iff.trans ⟨?_, ?_⟩
      · intro hsame
        rcases hsame with hsame | hboth
        · rwa [hsame]
        · exact hboth.1
      · intro hsource
        exact .inr ⟨hsource, hlisted⟩
    have htypes : last (filed typeKey (typeKey s e)) calls =
        last (fun c => c.source = s ∧ c.event.type = e.type) calls :=
      last_congr fun c _ => by simp [filed, typeKey]
    rw [hshared, htypes, NamesSuffice, or_iff_right hlisted]

theorem implements_of_peer (s : P2PStateType)
    (calls : List (Transition P2PStateType (P2PEvent P))) (events : List (P2PEvent P)) :
    Implements s calls events := by
  rw [implements_iff]
  intro front e back _
  rw [last_nameKey fun s' hname => P2PStateType.getName_inj hname]

/-- With transitions from listed states only the names suffice: in the other states
nothing leads anywhere, by name or by type. -/
theorem namesSuffice_of_listed {calls : List (Transition ServerStateType (P2PEvent P))}
    (h : ∀ c ∈ calls, c.source.Listed) (s : ServerStateType) (e : P2PEvent P) :
    NamesSuffice calls s e := by
  by_cases hlisted : s.Listed
  · exact .inl hlisted
  · right
    congr 1
    refine last_congr fun c hc => ?_
    have hother : c.source ≠ s := fun hsame => hlisted (hsame ▸ h c hc)
    simp [h c hc, hother]

/-- The machine of a session and the server's own, as `setupTransitions` leaves them. -/
theorem machines_implement (events : List (P2PEvent P)) :
    (∃ calls, peerStateMachine = StateMachine.build .unregistered calls ∧
      Implements (P := P) .unregistered calls events) ∧
    ∃ calls, serverStateMachine = StateMachine.build .listening calls ∧
      Implements (P := P) .listening calls events := by
  constructor
  · exact ⟨[⟨.unregistered, registerEvent, fun _ => some .registering⟩], rfl,
      implements_of_peer _ _ _⟩
  · refine ⟨[⟨.listening, registerEvent, fun _ => some .processingRegistration⟩], rfl, ?_⟩
    rw [implements_iff]
    intro front e back _
    refine namesSuffice_iff.mpr (namesSuffice_of_listed (fun c hc => ?_) _ _)
    obtain rfl := List.mem_singleton.mp hc
    exact .inl rfl

/-- **The tables of the peers are the automaton keyed by types**, and those of the server
are as long as the names suffice in the state each event comes in. -/
theorem implements_types_iff :
    (∀ (s : P2PStateType) (calls : List (Transition P2PStateType (P2PEvent P))) events,
      Implements s calls events) ∧
    ∀ (s : ServerStateType) (calls : List (Transition ServerStateType (P2PEvent P))) events,
      Implements s calls events ↔ ∀ front e back, events = front ++ e :: back →
        NamesSuffice calls (reach typeKey s calls front) e := by
  refine ⟨implements_of_peer, fun s calls events => ?_⟩
  rw [implements_iff]
  simp only [namesSuffice_iff]

end Types

/-- The events of these types, without data. -/
def bare (type : P2PEventType) : P2PEvent Rat := ⟨type, {requestNumber := 0}⟩

/-- A BUY leads from LISTENING to PROCESSING_PURCHASE, and an OFFER from
PROCESSING_SEARCH to PROCESSING_OFFER. -/
def purchaseTable : List (Transition ServerStateType (P2PEvent Rat)) :=
  [⟨.listening, bare .buy, fun _ => some .processingPurchase⟩,
   ⟨.processingSearch, bare .offer, fun _ => some .processingOffer⟩]

/-- The OFFER leads on from PROCESSING_PURCHASE, too. -/
theorem purchase_not_implemented :
    ((StateMachine.build .listening purchaseTable).run [bare .buy, bare .offer]).currentState =
        .processingOffer ∧
      reach typeKey .listening purchaseTable [bare .buy, bare .offer] = .processingPurchase ∧
      ¬ Implements .listening purchaseTable [bare .buy, bare .offer] := by
  have hcode : ((StateMachine.build .listening purchaseTable).run
      [bare .buy, bare .offer]).currentState = .processingOffer := by
    rfl
  have htypes : reach typeKey .listening purchaseTable [bare .buy, bare .offer] =
      .processingPurchase := by
    rfl
  refine ⟨hcode, htypes, fun h => ?_⟩
  have hsame := h [bare .buy, bare .offer] [] rfl
  rw [hcode, htypes] at hsame
  cases hsame

end P2PShopping
