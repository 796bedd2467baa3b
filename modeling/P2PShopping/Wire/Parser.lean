import P2PShopping.Wire.Event

/-! `MessageParser`.

A message is read in four passes. `printMessage` already converts the fields it
prints, so it rejects a wrong type before anything else looks; the populate
switch reads through the inserting `operator[]`; `validateCommandFields` then asks
the object the switch left behind. Printing itself leaves no trace here: what
matters of it is what it throws. -/
namespace P2PShopping.MessageParser
open Json

variable {P : Type} [Double P]

/-- What the command word starts to mean. `DE_REGISTER` is not among them. -/
def commandMap : List (String × P2PEventType) :=
  [("REGISTER", .register),
   ("REGISTER-DENIED", .registerDenied),
   ("REGISTERED", .registered),
   ("LOOKING_FOR", .lookingFor),
   ("SEARCH", .search),
   ("OFFER", .offer),
   ("NOT_AVAILABLE", .notAvailable),
   ("NEGOTIATE", .negotiate),
   ("ACCEPT", .accept),
   ("FOUND", .found),
   ("REFUSE", .refuse),
   ("NOT_FOUND", .notFound),
   ("RESERVE", .reserve),
   ("CANCEL", .cancel),
   ("BUY", .buy)]

def stringToEventType (commandStr : String) : P2PEventType :=
  (commandMap.lookup commandStr).getD .unknown

def printCommandFields (j : Json P) (command : String) : Except Fault Unit :=
  if command = "REGISTER" then do
    let _name ← j.value getString "name" "UNKNOWN"
    let _ip ← j.value getString "ip" "UNKNOWN"
    let _udpPort ← j.value getInt "udp_port" (-1)
    let _tcpPort ← j.value getInt "tcp_port" (-1)
  else if command = "REGISTER-DENIED" then do
    let _reason ← j.value getString "reason" "UNKNOWN"
  else if command = "LOOKING_FOR" ∨ command = "SEARCH" then do
    let _item ← j.value getString "item_name" "UNKNOWN"
    let _description ← j.value getString "description" "UNKNOWN"
    if j.contains "max_price" then do
      let _maxPrice ← getDouble (← j.index "max_price")
  else if command ∈ ["OFFER", "NEGOTIATE", "ACCEPT", "REFUSE", "NOT_AVAILABLE", "NOT_FOUND",
      "FOUND", "RESERVE", "CANCEL", "BUY"] then do
    if j.contains "name" then do
      let _name ← getString (← j.index "name")
    let _item ← j.value getString "item_name" "UNKNOWN"
    let _price ← j.value getDouble "price" (Double.ofInt 0)
  else
    pure ()

def printMessage (j : Json P) : Except Fault Unit := do
  let command ← j.value getString "command" "UNKNOWN"
  let _request ← j.value getInt "rq" (-1)
  printCommandFields j command

/-- The populate switch of `parseMessage`: the data and the object it leaves. -/
def populate (type : P2PEventType) (data : MessageData P) (j : Json P) :
    Except Fault (MessageData P × Json P) :=
  match type with
  | .register => do
    let (ip, j) ← j.indexInsert "ip"
    let ip ← getString ip
    let (udpPort, j) ← j.indexInsert "udp_port"
    let udpPort ← getInt udpPort
    let (tcpPort, j) ← j.indexInsert "tcp_port"
    let tcpPort ← getInt tcpPort
    pure ({data with ipAddress := ip, udpPort := udpPort, tcpPort := tcpPort}, j)
  | .lookingFor | .search => do
    let (item, j) ← j.indexInsert "item_name"
    let item ← getString item
    let (description, j) ← j.indexInsert "description"
    let description ← getString description
    let data := {data with itemName := item, itemDescription := description}
    if type = .lookingFor then do
      let (maxPrice, j) ← j.indexInsert "max_price"
      let maxPrice ← getDouble maxPrice
      pure ({data with maxPrice := maxPrice}, j)
    else
      pure (data, j)
  | .offer | .accept | .refuse => do
    let (item, j) ← j.indexInsert "item_name"
    let item ← getString item
    let (price, j) ← j.indexInsert "price"
    let price ← getDouble price
    pure ({data with itemName := item, price := price}, j)
  | .negotiate => do
    let (item, j) ← j.indexInsert "item_name"
    let item ← getString item
    let (price, j) ← j.indexInsert "max_price"
    let price ← getDouble price
    pure ({data with itemName := item, price := price}, j)
  | .notAvailable | .notFound | .found => do
    let (item, j) ← j.indexInsert "item_name"
    let item ← getString item
    let data := {data with itemName := item}
    if j.contains "price" then do
      let (price, j) ← j.indexInsert "price"
      let price ← getDouble price
      pure ({data with price := price}, j)
    else
      pure (data, j)
  | .registerDenied => do
    if j.contains "reason" then do
      let (reason, j) ← j.indexInsert "reason"
      let reason ← getString reason
      pure ({data with reason := reason}, j)
    else
      pure (data, j)
  | _ => pure (data, j)

def validateCommandFields (j : Json P) : P2PEventType → Bool
  | .register => j.contains "ip" && j.contains "udp_port" && j.contains "tcp_port"
  | .lookingFor => j.contains "item_name" && j.contains "description" &&
      j.contains "max_price" && j.contains "name"
  | .search => j.contains "item_name" && j.contains "description"
  | .offer => j.contains "item_name" && j.contains "price" && j.contains "name"
  | .negotiate | .accept | .refuse =>
    j.contains "item_name" && j.contains "price" && j.contains "name"
  | .notAvailable | .notFound | .found => j.contains "item_name"
  | .registerDenied | .registered => true
  | .deRegister => j.contains "name"
  | _ => false

/-- The `try` block of `parseMessage`, from the parsed value on. -/
def readMessage (j : Json P) : Except Fault (Option (P2PEvent P)) := do
  printMessage j
  if !j.contains "command" || !j.contains "rq" then
    return none
  let (rq, j) ← j.indexInsert "rq"
  let rq ← getInt rq
  let name ← j.value getString "name" ""
  let (command, j) ← j.indexInsert "command"
  let command ← getString command
  let type := stringToEventType command
  let (data, j) ← populate type {requestNumber := rq, senderName := name} j
  if !validateCommandFields j type then
    return none
  return some ⟨type, data⟩

/-- `none` is the null pointer, which both `catch` clauses return as well. -/
def parseMessage (j : Json P) : Option (P2PEvent P) :=
  match readMessage j with
  | .ok event => event
  | .error _ => none

/-! ### What printing has checked -/

section Printed
variable {j v : Json P} {key : String}

omit [Double P] in
theorem value_of_index {α : Type} {get : Json P → Except Fault α} {default : α}
    (h : j.index key = .ok v) : j.value get key default = get v := by
  cases j with
  | obj members =>
    rw [index_obj] at h
    rw [value_obj]
    cases hlookup : members.lookup key with
    | none => simp [hlookup] at h
    | some w =>
      obtain rfl : w = v := by simpa [hlookup] using h
      rfl
  | _ => cases h

theorem printMessage_ok (h : printMessage j = .ok ()) :
    ∃ command rq, j.value getString "command" "UNKNOWN" = .ok command ∧
      j.value getInt "rq" (-1) = .ok rq ∧ printCommandFields j command = .ok () := by
  unfold printMessage at h
  cases hcommand : j.value getString "command" "UNKNOWN" with
  | error => simp [hcommand] at h
  | ok command =>
    cases hrq : j.value getInt "rq" (-1) with
    | error => simp [hcommand, hrq] at h
    | ok rq => exact ⟨command, rq, rfl, rfl, by simpa [hcommand, hrq] using h⟩

/-- A message that prints has a request number that converts, if it has one. -/
theorem rq_of_print (h : printMessage j = .ok ()) (hrq : j.index "rq" = .ok v) :
    ∃ n, getInt v = .ok n := by
  obtain ⟨-, n, -, hn, -⟩ := printMessage_ok h
  exact ⟨n, by rwa [value_of_index hrq] at hn⟩

theorem printCommandFields_of_print {command : String} (h : printMessage j = .ok ())
    (hcommand : j.Reads getString "command" command) : printCommandFields j command = .ok () := by
  obtain ⟨command', rq, hvalue, -, hfields⟩ := printMessage_ok h
  obtain ⟨w, hw, hget⟩ := hcommand
  rw [value_of_index hw, hget] at hvalue
  cases hvalue
  exact hfields

/-- So does a REGISTER its name, -/
theorem name_of_print (h : printMessage j = .ok ())
    (hcommand : j.Reads getString "command" "REGISTER") (hname : j.index "name" = .ok v) :
    ∃ name, getString v = .ok name := by
  have hfields := printCommandFields_of_print h hcommand
  simp only [printCommandFields, if_true, value_of_index hname] at hfields
  cases hv : getString v with
  | ok name => exact ⟨name, rfl⟩
  | error fault => simp [hv] at hfields

/-- and a LOOKING_FOR its description. -/
theorem description_of_print (h : printMessage j = .ok ())
    (hcommand : j.Reads getString "command" "LOOKING_FOR")
    (hdescription : j.index "description" = .ok v) : ∃ description, v = .str description := by
  have hfields := printCommandFields_of_print h hcommand
  simp only [printCommandFields, value_of_index hdescription, String.reduceEq, if_false, true_or,
    if_true] at hfields
  cases hv : getString v with
  | ok description => exact ⟨description, getString_eq_ok.mp hv⟩
  | error fault =>
    cases hitem : j.value getString "item_name" "UNKNOWN" <;> simp [hitem, hv] at hfields

end Printed

end P2PShopping.MessageParser
