import P2PShopping.Library.Collections
import P2PShopping.Wire.Event

/-! The generic state machine and its two instances.

A table of handlers is keyed by the name of the state and the name of the event.
The server keeps one machine for itself and one in every session; both have the
single transition their `setupTransitions` adds. -/
namespace P2PShopping
open Collections

/-- `getName` of `State` and of `Event`. -/
class Named (α : Type) where
  getName : α → String

instance : Named P2PStateType := ⟨P2PStateType.getName⟩
instance : Named ServerStateType := ⟨ServerStateType.getName⟩
instance {P : Type} [Double P] : Named (P2PEvent P) := ⟨P2PEvent.getName⟩

/-- A handler returns `none` for the null pointer. -/
structure StateMachine (S E : Type) where
  currentState : S
  transitions : Map String (Map String (E → Option S)) := ∅

namespace StateMachine
variable {S E : Type} [Named S] [Named E]

def addTransition (m : StateMachine S E) (fromState : S) (event : E) (handler : E → Option S) :
    StateMachine S E :=
  let row := (m.transitions.lookup (Named.getName fromState)).getD ∅
  {m with transitions :=
    m.transitions.insert (Named.getName fromState) (row.insert (Named.getName event) handler)}

def processEvent (m : StateMachine S E) (event : E) : StateMachine S E :=
  match m.transitions.lookup (Named.getName m.currentState) with
  | none => m
  | some stateTransitions =>
    match stateTransitions.lookup (Named.getName event) with
    | none => m
    | some handler =>
      match handler event with
      | some newState => {m with currentState := newState}
      | none => m

end StateMachine

variable {P : Type} [Double P]

/-- The event the tables are set up with. -/
def registerEvent : P2PEvent P := ⟨.register, {requestNumber := 0}⟩

def peerStateMachine : StateMachine P2PStateType (P2PEvent P) :=
  StateMachine.addTransition {currentState := .unregistered} .unregistered registerEvent
    fun _ => some .registering

def serverStateMachine : StateMachine ServerStateType (P2PEvent P) :=
  StateMachine.addTransition {currentState := .listening} .listening registerEvent
    fun _ => some .processingRegistration

end P2PShopping
