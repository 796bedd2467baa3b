import P2PShopping.Client.Presence
import P2PShopping.Library.Queues

/-! The inventory, and what it offers.

`inventory_` is one vector in which a name may stand several times. Additions go to
its end, and a removal and a search both stop at the first entry of the name, so to
each name it is a queue of prices (`inventory_queue`), whatever else the client
does in between, and a search is answered with the price at its head. -/
namespace P2PShopping
open Json Runs Queues

variable {P : Type} [Double P]

/-- What an input of the client does to the queues of prices. -/
def stockOp : ClientInput P × Option (ClientMessage P) → Option (Op String P)
  | (.user (.addItem name _ price) _, _) => some (.put name price)
  | (.user (.removeItem name) _, _) => some (.take name)
  | _ => none

/-- The prices of the `addItem` calls for a name that no `removeItem` of the name has
consumed, oldest first. Only the calls for the name are looked at. -/
def unsold (tr : ClientHistory P) (name : String) : List P :=
  contents ((tr.filterMap stockOp).filter (·.key = name)) name

/-! ### One step -/

section Step
variable (c : P2PClient P)

omit [Double P] in
theorem request_inventory (required next : P2PStateType) (message : Int32 → ClientMessage P)
    (sent : Bool) : (c.request required next message sent).client.inventory = c.inventory := by
  obtain ⟨rq, state, hclient⟩ := c.request_frame required next message sent
  rw [hclient]

omit [Double P] in
theorem answerOffer_inventory (requestNumber : Int32) (agrees : Offer P → Bool)
    (next : P2PStateType) (message : ClientMessage P) (sent : Bool) :
    (c.answerOffer requestNumber agrees next message sent).client.inventory = c.inventory := by
  obtain ⟨offers, state, hclient⟩ := c.answerOffer_frame requestNumber agrees next message sent
  rw [hclient]

/-- Only `addItem` and `removeItem` touch the inventory. -/
theorem run_inventory (op : UserOp P) (sent : Bool) :
    (op.run c sent).1.inventory =
      match op with
      | .addItem name description price => c.inventory ++ [{name, description, price}]
      | .removeItem name => c.inventory.eraseP (·.name = name)
      | _ => c.inventory := by
  cases op with
  | registerWithServer localIp => exact request_inventory c _ _ _ sent
  | deregister => exact request_inventory c _ _ _ sent
  | searchItem itemName description maxPrice => exact request_inventory c _ _ _ sent
  | negotiateOffer rq itemName counterPrice =>
    simp only [UserOp.run, P2PClient.negotiateOffer]
    split
    · rfl
    · exact answerOffer_inventory c _ _ _ _ sent
  | acceptOffer rq itemName price => exact answerOffer_inventory c _ _ _ _ sent
  | refuseOffer rq itemName price => exact answerOffer_inventory c _ _ _ _ sent
  | addItem name description price => rfl
  | removeItem name => rfl
  | quit =>
    simp only [UserOp.run, P2PClient.quit]
    split
    · exact request_inventory c _ _ _ sent
    · rfl

theorem receive_inventory (message : Json P) (sent : Bool) :
    (c.handleReceivedMessage message sent).1.inventory = c.inventory := by
  obtain ⟨offers, state, hclient⟩ := c.receive_frame message sent
  rw [hclient]

/-- The prices under each name, in the order of the vector. -/
def stock : String → List P := queue Item.name Item.price c.inventory

/-- **A step of the client is the operation of the queues.** -/
theorem step_stock {c' : P2PClient P} {input : ClientInput P} {m : Option (ClientMessage P)}
    (h : (clientMachine P).step c input = some (c', m)) :
    stock c' = match stockOp (input, m) with
      | some op => op.apply (stock c)
      | none => stock c := by
  cases input with
  | receive message sent =>
    obtain rfl : (c.handleReceivedMessage message sent).1 = c' :=
      congrArg Prod.fst (Option.some.inj h)
    simp only [stock, receive_inventory, stockOp]
  | user op sent =>
    obtain rfl : (op.run c sent).1 = c' := congrArg Prod.fst (Option.some.inj h)
    rw [stock, run_inventory]
    cases op with
    | addItem name description price => exact queue_append ..
    | removeItem name => exact queue_eraseP ..
    | _ => rfl

/-- A search is answered from the head of the queue. -/
theorem handleSearchEvent_stock (hstate : c.currentState = .registered) (data : MessageData P) :
    c.handleSearchEvent data true =
      (stock c data.itemName).head?.map (.offer data.requestNumber c.name data.itemName) := by
  rw [stock, ← find?_val]
  unfold P2PClient.handleSearchEvent
  rw [if_neg (by simp [hstate])]
  cases c.inventory.find? (·.name = data.itemName) <;> rfl

end Step

/-! ### Runs -/

section Run
variable {config : ClientConfig} {tr : ClientHistory P} {c : P2PClient P}

/-- **The inventory is one queue of prices for each name.** -/
theorem inventory_queue (h : Run (clientMachine P) (.new config) tr c) :
    stock c = contents (tr.filterMap stockOp) := by
  refine h.invariant (fun tr c => stock c = contents (tr.filterMap stockOp)) rfl ?_
  intro tr s input s' m _ ih hstep
  rw [step_stock s hstep, List.filterMap_append]
  cases hop : stockOp (input, m) with
  | none => simpa [hop] using ih
  | some op =>
    have hlast : [(input, m)].filterMap stockOp = [op] := by simp [hop]
    rw [hlast, contents_snoc, ← ih]

/-- **A SEARCH is answered with the oldest price that is left, or not at all**, and
leaves the client as it was. -/
theorem search_answers_oldest (h : Run (clientMachine P) (.new config) tr c)
    (hstate : c.currentState = .registered) {message : Json P} {data : MessageData P}
    (hmessage : MessageParser.parseMessage message = some ⟨.search, data⟩) :
    (∀ price later, unsold tr data.itemName = price :: later →
      c.handleReceivedMessage message true =
        (c, some (.offer data.requestNumber c.name data.itemName price))) ∧
    (unsold tr data.itemName = [] → c.handleReceivedMessage message true = (c, none)) := by
  have hqueue : unsold tr data.itemName = stock c data.itemName := by
    rw [unsold, contents_own, inventory_queue h]
  have hanswer : c.handleReceivedMessage message true =
      (c, (unsold tr data.itemName).head?.map
        (.offer data.requestNumber c.name data.itemName)) := by
    rw [hqueue, ← handleSearchEvent_stock c hstate]
    simp only [P2PClient.handleReceivedMessage, hmessage]
  constructor
  · intro price later hsome
    rw [hanswer, hsome]
    rfl
  · intro hnil
    rw [hanswer, hnil]
    rfl

end Run

/-- Three lamps and a chair come in, one lamp goes, and somebody looks for a lamp. -/
def shelves : List (ClientInput Rat) :=
  [.user (.addItem "lamp" "old" 8) true, .user (.addItem "chair" "oak" 30) true,
   .user (.addItem "lamp" "new" 12) true, .user (.removeItem "lamp") true,
   .user (.registerWithServer "127.0.0.1") true, .user (.addItem "lamp" "red" 5) true,
   .receive (ServerMessage.registered (.int 1)).toJson true]

theorem search_answers_oldest_lamp : ∃ (c : P2PClient Rat) (tr : ClientHistory Rat),
    Run (clientMachine Rat) (.new ⟨"peer1", 5001, 6001⟩) tr c ∧
      c.handleReceivedMessage (ServerMessage.search 7 "lamp" (.str "any")).toJson true =
        (c, some (.offer 7 c.name "lamp" 12)) := by
  obtain ⟨c, tr, hrun, hview⟩ := (clientMachine Rat).exec_view (.new ⟨"peer1", 5001, 6001⟩)
    shelves (fun r => (r.1.currentState, unsold r.2 "lamp"))
    (v := (.registered, [12, 5])) (by decide +kernel)
  obtain ⟨hstate, hunsold⟩ := Prod.mk.inj hview
  exact ⟨c, tr, hrun,
    (search_answers_oldest hrun hstate (ServerMessage.parse_search 7 "lamp" "any")).1 12 [5]
      hunsold⟩

end P2PShopping
