import P2PShopping.Server.Step
import P2PShopping.Wire.Canonical

/-! Objects that have the same under each key.

A receiver only looks keys up, so it cannot tell a message from what `json::parse` makes
of its text: `parseMessage` gives the same event, and a command handler does the same. -/
namespace P2PShopping
open Json

variable {P : Type}

namespace Json

/-- Two objects with the same values under the same keys. -/
inductive Alike : Json P → Json P → Prop where
  | intro {members members' : List (String × Json P)} :
      (∀ key, members.lookup key = members'.lookup key) → Alike (.obj members) (.obj members')

namespace Alike
variable {j j' : Json P} {key : String}

theorem index_eq (h : Alike j j') (key : String) : j.index key = j'.index key := by
  obtain ⟨hlookup⟩ := h
  rw [index_obj, index_obj, hlookup]

theorem contains_eq (h : Alike j j') (key : String) : j.contains key = j'.contains key := by
  obtain ⟨hlookup⟩ := h
  rw [contains_obj, contains_obj, hlookup]

theorem value_eq {α : Type} (h : Alike j j') (get : Json P → Except Fault α) (key : String)
    (default : α) : j.value get key default = j'.value get key default := by
  obtain ⟨hlookup⟩ := h
  rw [value_obj, value_obj, hlookup]

end Alike

end Json

/-! ### Two computations -/

/-- Both complete, with related results, or both fault alike. -/
inductive BothRun {α : Type} (R : α → α → Prop) : Except Fault α → Except Fault α → Prop where
  | ok {a b : α} : R a b → BothRun R (.ok a) (.ok b)
  | error {fault : Fault} : BothRun R (.error fault) (.error fault)

theorem BothRun.refl {α : Type} {R : α → α → Prop} (h : ∀ a, R a a) (x : Except Fault α) :
    BothRun R x x := by
  cases x with
  | ok a => exact .ok (h a)
  | error fault => exact .error

theorem BothRun.bind {α β : Type} {R : α → α → Prop} {S : β → β → Prop}
    {x y : Except Fault α} {f g : α → Except Fault β} (h : BothRun R x y)
    (hnext : ∀ a b, R a b → BothRun S (f a) (g b)) : BothRun S (x >>= f) (y >>= g) := by
  cases h with
  | ok hab => exact hnext _ _ hab
  | error => exact .error

theorem BothRun.bind_same {α β : Type} {S : β → β → Prop} (x : Except Fault α)
    {f g : α → Except Fault β} (hnext : ∀ a, BothRun S (f a) (g a)) :
    BothRun S (x >>= f) (x >>= g) := by
  cases x with
  | ok a => exact hnext a
  | error fault => exact .error

/-- The same value, and objects alike. -/
def SameValue {α : Type} (a b : α × Json P) : Prop := a.1 = b.1 ∧ Alike a.2 b.2

theorem indexInsert_alike {j j' : Json P} (h : Alike j j') (key : String) :
    BothRun SameValue (j.indexInsert key) (j'.indexInsert key) := by
  obtain ⟨hlookup⟩ := h
  rename_i members members'
  rw [indexInsert_obj, indexInsert_obj, hlookup]
  cases members'.lookup key with
  | some v => exact .ok ⟨rfl, .intro hlookup⟩
  | none =>
    refine .ok ⟨rfl, .intro fun k => ?_⟩
    rw [List.lookup_append, List.lookup_append, hlookup]

/-! ### The parser -/

namespace MessageParser
variable [Double P]

theorem printCommandFields_alike {j j' : Json P} (h : Alike j j') (command : String) :
    printCommandFields j command = printCommandFields j' command := by
  simp only [printCommandFields, h.value_eq, h.contains_eq, h.index_eq]

theorem printMessage_alike {j j' : Json P} (h : Alike j j') :
    printMessage j = printMessage j' := by
  simp only [printMessage, h.value_eq, printCommandFields_alike h]

omit [Double P] in
/-- A key that is read through the inserting operator. -/
theorem insert_alike {β : Type} {S : β → β → Prop} {j j' : Json P} (h : Alike j j')
    (key : String) {f f' : Json P × Json P → Except Fault β}
    (hnext : ∀ v k k', Alike k k' → BothRun S (f (v, k)) (f' (v, k'))) :
    BothRun S (j.indexInsert key >>= f) (j'.indexInsert key >>= f') := by
  refine (indexInsert_alike h key).bind ?_
  intro ⟨v, k⟩ ⟨v', k'⟩ ⟨hv, hk⟩
  obtain rfl : v = v' := hv
  exact hnext v k k' hk

theorem populate_alike (type : P2PEventType) (data : MessageData P) {j j' : Json P}
    (h : Alike j j') : BothRun SameValue (populate type data j) (populate type data j') := by
  cases type with
  | register =>
    simp only [populate]
    refine insert_alike h _ fun ip k k' hk => .bind_same _ fun ip => ?_
    refine insert_alike hk _ fun udpPort l l' hl => .bind_same _ fun udpPort => ?_
    exact insert_alike hl _ fun tcpPort m m' hm => .bind_same _ fun tcpPort => .ok ⟨rfl, hm⟩
  | lookingFor =>
    simp only [populate]
    refine insert_alike h _ fun item k k' hk => .bind_same _ fun item => ?_
    refine insert_alike hk _ fun description l l' hl => .bind_same _ fun description => ?_
    exact insert_alike hl _ fun maxPrice m m' hm => .bind_same _ fun maxPrice => .ok ⟨rfl, hm⟩
  | search =>
    simp only [populate]
    refine insert_alike h _ fun item k k' hk => .bind_same _ fun item => ?_
    exact insert_alike hk _ fun description l l' hl => .bind_same _ fun description => .ok ⟨rfl, hl⟩
  | offer | accept | refuse | negotiate =>
    simp only [populate]
    refine insert_alike h _ fun item k k' hk => .bind_same _ fun item => ?_
    exact insert_alike hk _ fun price l l' hl => .bind_same _ fun price => .ok ⟨rfl, hl⟩
  | notAvailable | notFound | found =>
    simp only [populate]
    refine insert_alike h _ fun item k k' hk => .bind_same _ fun item => ?_
    simp only [hk.contains_eq]
    split
    · exact insert_alike hk _ fun price l l' hl => .bind_same _ fun price => .ok ⟨rfl, hl⟩
    · exact .ok ⟨rfl, hk⟩
  | registerDenied =>
    simp only [populate, h.contains_eq]
    split
    · exact insert_alike h _ fun reason k k' hk => .bind_same _ fun reason => .ok ⟨rfl, hk⟩
    · exact .ok ⟨rfl, h⟩
  | _ => exact .ok ⟨rfl, h⟩

omit [Double P] in
theorem validate_alike {j j' : Json P} (h : Alike j j') (type : P2PEventType) :
    validateCommandFields j type = validateCommandFields j' type := by
  cases type <;> simp only [validateCommandFields, h.contains_eq]

theorem BothRun.eq {α : Type} {x y : Except Fault α} (h : BothRun Eq x y) : x = y := by
  cases h with
  | ok hab => rw [hab]
  | error => rfl

theorem readMessage_alike {j j' : Json P} (h : Alike j j') : readMessage j = readMessage j' := by
  apply BothRun.eq
  unfold readMessage
  rw [printMessage_alike h]
  refine .bind_same _ fun _ => ?_
  simp only [h.contains_eq]
  split
  · exact .ok rfl
  · refine insert_alike h _ fun rq k k' hk => .bind_same _ fun rq => ?_
    simp only [hk.value_eq]
    refine .bind_same _ fun name => ?_
    refine insert_alike hk _ fun command l l' hl => .bind_same _ fun command => ?_
    refine (populate_alike _ _ hl).bind ?_
    intro ⟨data, m⟩ ⟨data', m'⟩ ⟨hdata, hm⟩
    obtain rfl : data = data' := hdata
    simp only [validate_alike hm]
    split
    · exact .ok rfl
    · exact .ok rfl

/-- **The parser sees the members of a message, not their order.** -/
theorem parseMessage_alike {j j' : Json P} (h : Alike j j') :
    parseMessage j = parseMessage j' := by
  rw [parseMessage, parseMessage, readMessage_alike h]

end MessageParser

/-! ### The handlers -/

section Handlers
variable [Double P]
open Handler

theorem readKey_alike {j j' : Json P} (h : Alike j j') {α : Type} (key : String)
    (get : Json P → Except Fault α) :
    (readKey j key get : Handler P α) = readKey j' key get := by
  rw [readKey, readKey, h.index_eq]

theorem handleCommand_alike {j j' : Json P} (h : Alike j j') (clientAddr : SockaddrIn) :
    handleCommand j clientAddr = handleCommand j' clientAddr := by
  have hregister : handleRegister j clientAddr = handleRegister j' clientAddr := by
    simp only [handleRegister, readKey_alike h]
  have hderegister : handleDeregister j clientAddr = handleDeregister j' clientAddr := by
    simp only [handleDeregister, readKey_alike h]
  have hlookingFor : handleLookingFor j clientAddr = handleLookingFor j' clientAddr := by
    simp only [handleLookingFor, readKey_alike h]
  have hoffer : handleOffer j clientAddr = handleOffer j' clientAddr := by
    simp only [handleOffer, readKey_alike h]
  have hhandler : ∀ command, ∀ handler ∈ (commandHandlers (P := P)).lookup command,
      handler j clientAddr = handler j' clientAddr := by
    intro command handler hmem
    have hmem' : (command, handler) ∈ commandHandlers (P := P) := by
      obtain ⟨front, back, hsplit, -⟩ := List.lookup_eq_some_iff.mp hmem
      rw [hsplit]
      exact List.mem_append_right _ (List.mem_cons_self ..)
    simp only [commandHandlers, List.mem_cons, Prod.mk.injEq, List.not_mem_nil, or_false] at hmem'
    obtain ⟨-, rfl⟩ | ⟨-, rfl⟩ | ⟨-, rfl⟩ | ⟨-, rfl⟩ := hmem'
    · exact hregister
    · exact hderegister
    · exact hlookingFor
    · exact hoffer
  rw [handleCommand, handleCommand, readKey_alike h]
  congr 1
  funext command
  cases hlookup : (commandHandlers (P := P)).lookup command with
  | none => rfl
  | some handler => exact hhandler command handler hlookup

/-- **So does the server.** -/
theorem dispatch_alike {j j' : Json P} (h : Alike j j') (clientAddr : SockaddrIn) :
    dispatch j clientAddr = dispatch j' clientAddr := by
  rw [dispatch, dispatch, MessageParser.printMessage_alike h, handleCommand_alike h]

end Handlers

end P2PShopping
