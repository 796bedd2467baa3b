import P2PShopping.Wire.Parser

/-! What `parseMessage` accepts.

Acceptance is decided in four passes, one of which inserts nulls under the keys it
misses. What they come to is a table: for every event type the keys a message must
have, the keys it may have, and the kind of value under each. `Schema` is that table
asked of the message as it came, `fill` the data it stands for, and `parse_schema`
says that the parser computes exactly these two. -/
namespace P2PShopping
open Json

variable {P : Type}

/-! ### Kinds of values -/

/-- The value under a key of an object. -/
def Json.member? : Json P → String → Option (Json P)
  | .obj members, key => members.lookup key
  | _, _ => none

inductive Kind where
  | string
  | number
  | numberOrBoolean
deriving DecidableEq

def Kind.fits : Kind → Json P → Bool
  | .string, .str _ => true
  | .number, .int _ | .number, .float _ => true
  | .numberOrBoolean, .int _ | .numberOrBoolean, .float _ | .numberOrBoolean, .bool _ => true
  | _, _ => false

/-- The key is there, with a value of the kind. -/
def Json.Has (j : Json P) (f : String × Kind) : Prop := ∃ v, j.member? f.1 = some v ∧ f.2.fits v

/-- If the key is there, its value is of the kind. -/
def Json.MayHave (j : Json P) (f : String × Kind) : Prop :=
  ∀ v, j.member? f.1 = some v → f.2.fits v

/-- The converted value under a key, or the default. -/
def Json.field {α : Type} (get : Json P → Except Fault α) (j : Json P) (key : String)
    (default : α) : α :=
  match j.member? key with
  | some v => (get v).toOption.getD default
  | none => default

/-! ### The table -/

namespace P2PEventType

/-- The keys a message of the type must have, besides its command and its number. -/
def required : P2PEventType → List (String × Kind)
  | .register => [("ip", .string), ("udp_port", .numberOrBoolean), ("tcp_port", .numberOrBoolean)]
  | .lookingFor =>
    [("name", .string), ("item_name", .string), ("description", .string), ("max_price", .number)]
  | .search => [("item_name", .string), ("description", .string)]
  | .offer | .accept | .refuse => [("name", .string), ("item_name", .string), ("price", .number)]
  | .negotiate =>
    [("name", .string), ("item_name", .string), ("price", .number), ("max_price", .number)]
  | .notAvailable | .notFound | .found => [("item_name", .string)]
  | _ => []

/-- The keys it may have, besides its sender's name. -/
def optional : P2PEventType → List (String × Kind)
  | .registerDenied => [("reason", .string)]
  | .search => [("max_price", .number)]
  | .notAvailable | .notFound | .found => [("price", .number)]
  | _ => []

end P2PEventType

structure Schema (j : Json P) (type : P2PEventType) : Prop where
  command : ∃ word, j.member? "command" = some (.str word) ∧
    MessageParser.commandMap.lookup word = some type
  served : type ∉ [.reserve, .cancel, .buy]
  number : j.Has ("rq", .numberOrBoolean)
  name : j.MayHave ("name", .string)
  required : ∀ f ∈ type.required, j.Has f
  optional : ∀ f ∈ type.optional, j.MayHave f

variable [Double P]

/-- The data of a message of the type, a NEGOTIATE's price being its `max_price`. -/
def fill (j : Json P) (type : P2PEventType) : MessageData P :=
  let data : MessageData P :=
    { requestNumber := j.field getInt "rq" 0
      senderName := j.field getString "name" "" }
  match type with
  | .register =>
    {data with
      ipAddress := j.field getString "ip" ""
      udpPort := j.field getInt "udp_port" 0
      tcpPort := j.field getInt "tcp_port" 0}
  | .lookingFor =>
    {data with
      itemName := j.field getString "item_name" ""
      itemDescription := j.field getString "description" ""
      maxPrice := j.field getDouble "max_price" (Double.ofInt 0)}
  | .search =>
    {data with
      itemName := j.field getString "item_name" ""
      itemDescription := j.field getString "description" ""}
  | .offer | .accept | .refuse | .notAvailable | .notFound | .found =>
    {data with
      itemName := j.field getString "item_name" ""
      price := j.field getDouble "price" (Double.ofInt 0)}
  | .negotiate =>
    {data with
      itemName := j.field getString "item_name" ""
      price := j.field getDouble "max_price" (Double.ofInt 0)}
  | .registerDenied => {data with reason := j.field getString "reason" ""}
  | _ => data

/-! ### Reading one key -/

section Key
variable {α : Type} {get : Json P → Except Fault α} {kind : Kind} {members : List (String × Json P)}
  {key : String}

omit [Double P] in
/-- A conversion that succeeds on exactly the values of a kind. -/
def Kind.Converts (kind : Kind) (get : Json P → Except Fault α) : Prop :=
  ∀ v, kind.fits v = true ↔ ∃ a, get v = .ok a

omit [Double P] in
theorem converts_string : Kind.string.Converts (getString (P := P)) := by
  intro v
  cases v <;> simp [Kind.fits, getString]

theorem converts_number : Kind.number.Converts (getDouble (P := P)) := by
  intro v
  cases v <;> simp [Kind.fits, getDouble]

theorem converts_numberOrBoolean : Kind.numberOrBoolean.Converts (getInt (P := P)) := by
  intro v
  cases v <;> simp [Kind.fits, getInt]

omit [Double P]

theorem index_eq_ok {j v : Json P} : j.index key = .ok v ↔ j.member? key = some v := by
  cases j with
  | obj members =>
    rw [index_obj]
    cases h : members.lookup key <;> simp [member?, h]
  | _ => simp [index, member?]

theorem contains_eq {j : Json P} : j.contains key = (j.member? key).isSome := by
  cases j <;> rfl

/-- A key must be there with a value of the kind iff it is there, and may be. -/
theorem has_iff {j : Json P} {f : String × Kind} :
    j.Has f ↔ j.contains f.1 = true ∧ j.MayHave f := by
  rw [contains_eq, Has, MayHave]
  cases j.member? f.1 <;> simp

/-- `value` throws on a value of the wrong kind only. -/
theorem value_ok_iff (hget : kind.Converts get) (default : α) :
    (∃ a, (Json.obj members).value get key default = .ok a) ↔
      (Json.obj members).MayHave (key, kind) := by
  rw [value_obj, MayHave]
  show _ ↔ ∀ v, members.lookup key = some v → _
  cases members.lookup key with
  | none => simp
  | some v => simp [hget v]

theorem value_eq_field {default a : α}
    (h : (Json.obj members).value get key default = .ok a) :
    (Json.obj members).field get key default = a := by
  rw [value_obj] at h
  show (match members.lookup key with | some v => _ | none => _) = a
  cases hlookup : members.lookup key with
  | none => simpa [hlookup] using h
  | some v =>
    have hv : get v = .ok a := by simpa [hlookup] using h
    simp [hv, Except.toOption]

theorem value_iff (hget : kind.Converts get) {default : α} {F : α → Prop} :
    (∃ a, (Json.obj members).value get key default = .ok a ∧ F a) ↔
      (Json.obj members).MayHave (key, kind) ∧ F ((Json.obj members).field get key default) := by
  rw [← value_ok_iff hget default]
  constructor
  · intro h
    obtain ⟨a, ha, hF⟩ := h
    exact ⟨⟨a, ha⟩, (value_eq_field ha).symm ▸ hF⟩
  · intro h
    obtain ⟨⟨a, ha⟩, hF⟩ := h
    exact ⟨a, ha, value_eq_field ha ▸ hF⟩

/-- A guarded conversion throws on a value of the wrong kind only. -/
theorem guarded_ok_iff (hget : kind.Converts get) {rest : Except Fault Unit} :
    (if (Json.obj members).contains key = true then
        (Json.obj members).index key >>= fun v => get v >>= fun _ => rest
      else rest) = .ok () ↔ (Json.obj members).MayHave (key, kind) ∧ rest = .ok () := by
  rw [contains_obj, index_obj, MayHave]
  show _ ↔ (∀ v, members.lookup key = some v → _) ∧ _
  cases members.lookup key with
  | none => simp
  | some v => simp [hget v, bind_eq_ok]

theorem not_converts_null (hget : kind.Converts get) (a : α) : get .null ≠ .ok a := by
  intro ha
  have hfits := (hget .null).mpr ⟨a, ha⟩
  cases kind <;> cases hfits

/-- The inserting access, then the conversion: what it inserts does not convert, so
the object is the same afterwards. -/
theorem insert_iff (hget : kind.Converts get) (default : α) {F : α → Json P → Prop} :
    (∃ v j, (Json.obj members).indexInsert key = .ok (v, j) ∧ ∃ a, get v = .ok a ∧ F a j) ↔
      (Json.obj members).Has (key, kind) ∧
        F ((Json.obj members).field get key default) (.obj members) := by
  rw [indexInsert_obj]
  show _ ↔ (∃ v, members.lookup key = some v ∧ _) ∧
    F (match members.lookup key with | some v => _ | none => _) _
  cases members.lookup key with
  | none => simp [not_converts_null hget]
  | some v =>
    have hfits := hget v
    cases hv : get v with
    | ok a => simp [hfits, hv, Except.toOption]
    | error fault => simp [hfits, hv]

theorem guardedInsert_iff {β : Type} (hget : kind.Converts get) {default : α} {fill : α → β}
    {r : β × Json P} :
    (if (Json.obj members).contains key = true then
        (Json.obj members).indexInsert key >>= fun p => get p.1 >>= fun a => .ok (fill a, p.2)
      else Except.ok (fill default, Json.obj members)) = .ok r ↔
      (Json.obj members).MayHave (key, kind) ∧
        (fill ((Json.obj members).field get key default), Json.obj members) = r := by
  rw [contains_obj, indexInsert_obj]
  show _ ↔ (∀ v, members.lookup key = some v → _) ∧
    (fill (match members.lookup key with | some v => _ | none => _), _) = r
  cases members.lookup key with
  | none => simp
  | some v =>
    have hfits := hget v
    cases hv : get v with
    | ok a => simp [hfits, hv, Except.toOption]
    | error fault => simp [hfits, hv]

end Key

/-! ### Printing -/

section Print
variable {members : List (String × Json P)}

theorem print_register : MessageParser.printCommandFields (.obj members) "REGISTER" = .ok () ↔
    (Json.obj members).MayHave ("name", .string) ∧ (Json.obj members).MayHave ("ip", .string) ∧
      (Json.obj members).MayHave ("udp_port", .numberOrBoolean) ∧
      (Json.obj members).MayHave ("tcp_port", .numberOrBoolean) := by
  simp only [MessageParser.printCommandFields, if_true, bind_eq_ok, exists_and_right,
    value_ok_iff converts_string, value_ok_iff converts_numberOrBoolean, pure_eq_ok, and_true]

theorem print_registerDenied :
    MessageParser.printCommandFields (.obj members) "REGISTER-DENIED" = .ok () ↔
      (Json.obj members).MayHave ("reason", .string) := by
  simp only [MessageParser.printCommandFields, String.reduceEq, if_true, if_false, bind_eq_ok,
    value_ok_iff converts_string, pure_eq_ok, and_true]

theorem print_search {word : String} (hword : word = "LOOKING_FOR" ∨ word = "SEARCH") :
    MessageParser.printCommandFields (.obj members) word = .ok () ↔
      (Json.obj members).MayHave ("item_name", .string) ∧
        (Json.obj members).MayHave ("description", .string) ∧
        (Json.obj members).MayHave ("max_price", .number) := by
  have hne : word ≠ "REGISTER" ∧ word ≠ "REGISTER-DENIED" := by
    rcases hword with rfl | rfl <;> decide
  simp only [MessageParser.printCommandFields, hne, hword, if_true, if_false, bind_eq_ok,
    exists_and_right, value_ok_iff converts_string, guarded_ok_iff converts_number, pure_eq_ok,
    and_true]

/-- The commands that are printed with a price. -/
abbrev offerWords : List String :=
  ["OFFER", "NEGOTIATE", "ACCEPT", "REFUSE", "NOT_AVAILABLE", "NOT_FOUND", "FOUND", "RESERVE",
    "CANCEL", "BUY"]

theorem print_offer {word : String} (hword : word ∈ offerWords) :
    MessageParser.printCommandFields (.obj members) word = .ok () ↔
      (Json.obj members).MayHave ("name", .string) ∧
        (Json.obj members).MayHave ("item_name", .string) ∧
        (Json.obj members).MayHave ("price", .number) := by
  have hne : word ≠ "REGISTER" ∧ word ≠ "REGISTER-DENIED" ∧ word ≠ "LOOKING_FOR" ∧
      word ≠ "SEARCH" := by
    refine ⟨?_, ?_, ?_, ?_⟩ <;> (intro h; revert hword; rw [h]; decide)
  simp only [MessageParser.printCommandFields, hne, hword, or_self, if_true, if_false,
    guarded_ok_iff converts_string, bind_eq_ok, exists_and_right, value_ok_iff converts_string,
    value_ok_iff converts_number, pure_eq_ok, and_true]

end Print

/-! ### The populate switch -/

section Populate
variable {members : List (String × Json P)} {data : MessageData P} {j : Json P}

/-- What the switch starts from. -/
abbrev common (members : List (String × Json P)) : MessageData P :=
  { requestNumber := (Json.obj members).field getInt "rq" 0
    senderName := (Json.obj members).field getString "name" "" }

/-- The switch comes to these data, and has inserted nothing. -/
abbrev Filled (members : List (String × Json P)) (type : P2PEventType) (data : MessageData P)
    (j : Json P) : Prop :=
  fill (.obj members) type = data ∧ Json.obj members = j

theorem populate_register :
    MessageParser.populate .register (common members) (.obj members) = .ok (data, j) ↔
      (Json.obj members).Has ("ip", .string) ∧
        (Json.obj members).Has ("udp_port", .numberOrBoolean) ∧
        (Json.obj members).Has ("tcp_port", .numberOrBoolean) ∧
        Filled members .register data j := by
  simp only [MessageParser.populate, bind_eq_ok, Prod.exists, insert_iff converts_string "",
    insert_iff converts_numberOrBoolean 0, pure_eq_ok, Except.ok.injEq, Prod.mk.injEq]
  rfl

theorem populate_lookingFor :
    MessageParser.populate .lookingFor (common members) (.obj members) = .ok (data, j) ↔
      (Json.obj members).Has ("item_name", .string) ∧
        (Json.obj members).Has ("description", .string) ∧
        (Json.obj members).Has ("max_price", .number) ∧ Filled members .lookingFor data j := by
  simp only [MessageParser.populate, if_true, bind_eq_ok, Prod.exists,
    insert_iff converts_string "", insert_iff converts_number (Double.ofInt 0), pure_eq_ok,
    Except.ok.injEq, Prod.mk.injEq]
  rfl

theorem populate_search :
    MessageParser.populate .search (common members) (.obj members) = .ok (data, j) ↔
      (Json.obj members).Has ("item_name", .string) ∧
        (Json.obj members).Has ("description", .string) ∧ Filled members .search data j := by
  simp only [MessageParser.populate, reduceCtorEq, if_false, bind_eq_ok, Prod.exists,
    insert_iff converts_string "", pure_eq_ok, Except.ok.injEq, Prod.mk.injEq]
  rfl

theorem populate_offer {type : P2PEventType} (htype : type ∈ [.offer, .accept, .refuse]) :
    MessageParser.populate type (common members) (.obj members) = .ok (data, j) ↔
      (Json.obj members).Has ("item_name", .string) ∧
        (Json.obj members).Has ("price", .number) ∧ Filled members type data j := by
  simp only [List.mem_cons, List.not_mem_nil, or_false] at htype
  rcases htype with rfl | rfl | rfl
  all_goals
    simp only [MessageParser.populate, bind_eq_ok, Prod.exists, insert_iff converts_string "",
      insert_iff converts_number (Double.ofInt 0), pure_eq_ok, Except.ok.injEq, Prod.mk.injEq]
    rfl

theorem populate_negotiate :
    MessageParser.populate .negotiate (common members) (.obj members) = .ok (data, j) ↔
      (Json.obj members).Has ("item_name", .string) ∧
        (Json.obj members).Has ("max_price", .number) ∧ Filled members .negotiate data j := by
  simp only [MessageParser.populate, bind_eq_ok, Prod.exists, insert_iff converts_string "",
    insert_iff converts_number (Double.ofInt 0), pure_eq_ok, Except.ok.injEq, Prod.mk.injEq]
  rfl

theorem populate_found {type : P2PEventType} (htype : type ∈ [.notAvailable, .notFound, .found]) :
    MessageParser.populate type (common members) (.obj members) = .ok (data, j) ↔
      (Json.obj members).Has ("item_name", .string) ∧
        (Json.obj members).MayHave ("price", .number) ∧ Filled members type data j := by
  simp only [List.mem_cons, List.not_mem_nil, or_false] at htype
  rcases htype with rfl | rfl | rfl
  all_goals
    simp only [MessageParser.populate, bind_eq_ok, Prod.exists, insert_iff converts_string "",
      pure_eq_ok]
    rw [guardedInsert_iff converts_number, Prod.mk.injEq]
    rfl

theorem populate_registerDenied :
    MessageParser.populate .registerDenied (common members) (.obj members) = .ok (data, j) ↔
      (Json.obj members).MayHave ("reason", .string) ∧
        Filled members .registerDenied data j := by
  simp only [MessageParser.populate, pure_eq_ok]
  rw [guardedInsert_iff converts_string, Prod.mk.injEq]
  rfl

end Populate

/-! ### All passes together -/

section Passes
variable {members : List (String × Json P)} {word : String} {type : P2PEventType}
  {data : MessageData P}

/-- The passes that depend on the command let the message through, with these data. -/
def Passes (members : List (String × Json P)) (word : String) (type : P2PEventType)
    (data : MessageData P) : Prop :=
  MessageParser.printCommandFields (.obj members) word = .ok () ∧
    ∃ j, MessageParser.populate type (common members) (.obj members) = .ok (data, j) ∧
      MessageParser.validateCommandFields j type = true

/-- The message has what its type asks for, and stands for these data. -/
def Fits (members : List (String × Json P)) (type : P2PEventType) (data : MessageData P) : Prop :=
  (∀ f ∈ type.required, (Json.obj members).Has f) ∧
    (∀ f ∈ type.optional, (Json.obj members).MayHave f) ∧ fill (.obj members) type = data

theorem fits_iff : Fits members type data ↔
    (∀ f ∈ type.required, (Json.obj members).contains f.1 = true ∧ (Json.obj members).MayHave f) ∧
      (∀ f ∈ type.optional, (Json.obj members).MayHave f) ∧ fill (.obj members) type = data := by
  simp only [Fits, has_iff]

theorem passes_register (hname : (Json.obj members).MayHave ("name", .string)) :
    Passes members "REGISTER" .register data ↔ Fits members .register data := by
  simp only [Passes, print_register, populate_register, MessageParser.validateCommandFields,
    fits_iff, P2PEventType.required, P2PEventType.optional, List.forall_mem_cons,
    List.not_mem_nil, false_imp_iff, implies_true, Bool.and_eq_true, and_assoc, exists_and_left,
    exists_eq_left', has_iff]
  tauto

theorem passes_registerDenied :
    Passes members "REGISTER-DENIED" .registerDenied data ↔ Fits members .registerDenied data := by
  simp only [Passes, print_registerDenied, populate_registerDenied,
    MessageParser.validateCommandFields, fits_iff, P2PEventType.required, P2PEventType.optional,
    List.forall_mem_cons, List.not_mem_nil, false_imp_iff, implies_true, and_assoc,
    exists_and_left, exists_eq_left']
  tauto

theorem passes_registered :
    Passes members "REGISTERED" .registered data ↔ Fits members .registered data := by
  simp [Passes, MessageParser.printCommandFields, MessageParser.populate,
    MessageParser.validateCommandFields, fits_iff, P2PEventType.required, P2PEventType.optional,
    fill]

theorem passes_lookingFor (hname : (Json.obj members).MayHave ("name", .string)) :
    Passes members "LOOKING_FOR" .lookingFor data ↔ Fits members .lookingFor data := by
  simp only [Passes, print_search (.inl rfl), populate_lookingFor,
    MessageParser.validateCommandFields, fits_iff, P2PEventType.required, P2PEventType.optional,
    List.forall_mem_cons, List.not_mem_nil, false_imp_iff, implies_true, Bool.and_eq_true,
    and_assoc, exists_and_left, exists_eq_left', has_iff]
  tauto

theorem passes_search : Passes members "SEARCH" .search data ↔ Fits members .search data := by
  simp only [Passes, print_search (.inr rfl), populate_search,
    MessageParser.validateCommandFields, fits_iff, P2PEventType.required, P2PEventType.optional,
    List.forall_mem_cons, List.not_mem_nil, false_imp_iff, implies_true, Bool.and_eq_true,
    and_assoc, exists_and_left, exists_eq_left', has_iff]
  tauto

theorem passes_negotiate :
    Passes members "NEGOTIATE" .negotiate data ↔ Fits members .negotiate data := by
  have hword : "NEGOTIATE" ∈ offerWords := by decide
  simp only [Passes, print_offer hword, populate_negotiate,
    MessageParser.validateCommandFields, fits_iff, P2PEventType.required, P2PEventType.optional,
    List.forall_mem_cons, List.not_mem_nil, false_imp_iff, implies_true, Bool.and_eq_true,
    and_assoc, exists_and_left, exists_eq_left', has_iff]
  tauto

theorem passes_offer (hword : word ∈ ["OFFER", "ACCEPT", "REFUSE"])
    (htype : type ∈ [.offer, .accept, .refuse]) :
    Passes members word type data ↔ Fits members type data := by
  have hsub : ["OFFER", "ACCEPT", "REFUSE"] ⊆ offerWords := by decide
  simp only [Passes, print_offer (hsub hword), populate_offer htype, fits_iff, and_assoc,
    exists_and_left, exists_eq_left', has_iff]
  simp only [List.mem_cons, List.not_mem_nil, or_false] at htype
  rcases htype with rfl | rfl | rfl
  all_goals
    simp only [MessageParser.validateCommandFields, P2PEventType.required,
      P2PEventType.optional, List.forall_mem_cons, List.not_mem_nil, false_imp_iff, implies_true,
      Bool.and_eq_true]
    tauto

theorem passes_found (hword : word ∈ ["NOT_AVAILABLE", "NOT_FOUND", "FOUND"])
    (htype : type ∈ [.notAvailable, .notFound, .found])
    (hname : (Json.obj members).MayHave ("name", .string)) :
    Passes members word type data ↔ Fits members type data := by
  have hsub : ["NOT_AVAILABLE", "NOT_FOUND", "FOUND"] ⊆ offerWords := by decide
  simp only [Passes, print_offer (hsub hword), populate_found htype, fits_iff, and_assoc,
    exists_and_left, exists_eq_left', has_iff]
  simp only [List.mem_cons, List.not_mem_nil, or_false] at htype
  rcases htype with rfl | rfl | rfl
  all_goals
    simp only [MessageParser.validateCommandFields, P2PEventType.required,
      P2PEventType.optional, List.forall_mem_cons, List.not_mem_nil, false_imp_iff, implies_true]
    tauto

/-- The commands the parser knows and the validation does not. -/
theorem not_passes (htype : type ∈ [.reserve, .cancel, .buy]) :
    ¬ Passes members word type data := by
  intro hpasses
  obtain ⟨-, j, -, hvalid⟩ := hpasses
  simp only [List.mem_cons, List.not_mem_nil, or_false] at htype
  rcases htype with rfl | rfl | rfl <;> cases hvalid

theorem passes_iff (hword : MessageParser.commandMap.lookup word = some type)
    (hname : (Json.obj members).MayHave ("name", .string)) :
    Passes members word type data ↔ type ∉ [.reserve, .cancel, .buy] ∧ Fits members type data := by
  obtain ⟨front, back, hsplit, -⟩ := List.lookup_eq_some_iff.mp hword
  have hmem : (word, type) ∈ MessageParser.commandMap := by simp [hsplit]
  by_cases htype : type ∈ [.reserve, .cancel, .buy]
  case pos => exact iff_of_false (not_passes htype) fun h => h.1 htype
  case neg =>
    rw [and_iff_right htype]
    simp only [MessageParser.commandMap, List.mem_cons, Prod.mk.injEq, List.not_mem_nil,
      or_false] at hmem
    rcases hmem with ⟨rfl, rfl⟩ | ⟨rfl, rfl⟩ | ⟨rfl, rfl⟩ | ⟨rfl, rfl⟩ | ⟨rfl, rfl⟩ | ⟨rfl, rfl⟩ |
      ⟨rfl, rfl⟩ | ⟨rfl, rfl⟩ | ⟨rfl, rfl⟩ | ⟨rfl, rfl⟩ | ⟨rfl, rfl⟩ | ⟨rfl, rfl⟩ | h
    · exact passes_register hname
    · exact passes_registerDenied
    · exact passes_registered
    · exact passes_lookingFor hname
    · exact passes_search
    · exact passes_offer (by decide) (by decide)
    · exact passes_found (by decide) (by decide) hname
    · exact passes_negotiate
    · exact passes_offer (by decide) (by decide)
    · exact passes_found (by decide) (by decide) hname
    · exact passes_offer (by decide) (by decide)
    · exact passes_found (by decide) (by decide) hname
    · rcases h with ⟨-, rfl⟩ | ⟨-, rfl⟩ | ⟨-, rfl⟩ <;> exact absurd (by decide) htype

end Passes

/-! ### The parser -/

section Parse
variable {members : List (String × Json P)} {event : P2PEvent P}

theorem returns_iff {α : Type} {c : Bool} {x : Except Fault (Option α)} {a : α} :
    (if c = true then pure none else x) = .ok (some a) ↔ c = false ∧ x = .ok (some a) := by
  cases c <;> simp

theorem printMessage_iff : MessageParser.printMessage (.obj members) = .ok () ↔
    (Json.obj members).MayHave ("command", .string) ∧
      (Json.obj members).MayHave ("rq", .numberOrBoolean) ∧
      MessageParser.printCommandFields (.obj members)
        ((Json.obj members).field getString "command" "UNKNOWN") = .ok () := by
  simp only [MessageParser.printMessage, bind_eq_ok, value_iff converts_string,
    value_iff converts_numberOrBoolean]

theorem readMessage_iff : MessageParser.readMessage (.obj members) = .ok (some event) ↔
    MessageParser.printMessage (.obj members) = .ok () ∧
      (Json.obj members).Has ("rq", .numberOrBoolean) ∧
      (Json.obj members).MayHave ("name", .string) ∧
      (Json.obj members).Has ("command", .string) ∧
      ∃ j, MessageParser.populate
          (MessageParser.stringToEventType ((Json.obj members).field getString "command" ""))
          (common members) (.obj members) = .ok (event.data, j) ∧
        MessageParser.validateCommandFields j event.type = true ∧
        MessageParser.stringToEventType ((Json.obj members).field getString "command" "") =
          event.type := by
  simp only [MessageParser.readMessage, bind_eq_ok, Prod.exists, returns_iff,
    insert_iff converts_numberOrBoolean 0, insert_iff converts_string "",
    value_iff converts_string]
  constructor
  · intro h
    obtain ⟨_, hprint, -, hrq, hname, hcommand, data, j, hpopulate, hvalid, hevent⟩ := h
    cases hevent
    exact ⟨hprint, hrq, hname, hcommand, j, hpopulate, by simpa using hvalid, rfl⟩
  · intro h
    obtain ⟨hprint, hrq, hname, hcommand, j, hpopulate, hvalid, htype⟩ := h
    refine ⟨(), hprint, ?_, hrq, hname, hcommand, event.data, j, hpopulate, ?_, ?_⟩
    · rw [(has_iff.mp hrq).1, (has_iff.mp hcommand).1]
      rfl
    · rw [htype, hvalid]
      rfl
    · rw [htype]
      rfl

omit [Double P] in
theorem has_command : (Json.obj members).Has ("command", .string) ↔
    ∃ word, (Json.obj members).member? "command" = some (.str word) := by
  constructor
  · intro h
    obtain ⟨v, hv, hfits⟩ := h
    obtain ⟨word, hword⟩ := (converts_string v).mp hfits
    exact ⟨word, by rw [hv, getString_eq_ok.mp hword]⟩
  · intro h
    obtain ⟨word, hword⟩ := h
    exact ⟨_, hword, rfl⟩

omit [Double P] in
theorem field_command {j : Json P} {word default : String}
    (h : j.member? "command" = some (.str word)) : j.field getString "command" default = word := by
  simp [field, h, Except.toOption]

omit [Double P] in
/-- A type that passes the validation came from a word of the table. -/
theorem lookup_of_valid {word : String} {j : Json P}
    (h : MessageParser.validateCommandFields j (MessageParser.stringToEventType word) = true) :
    MessageParser.commandMap.lookup word = some (MessageParser.stringToEventType word) := by
  unfold MessageParser.stringToEventType at h ⊢
  cases hword : MessageParser.commandMap.lookup word with
  | some type => rfl
  | none =>
    rw [hword] at h
    cases h

/-- The passes in one: the message has a command of the table and passes for it. -/
theorem readMessage_passes : MessageParser.readMessage (.obj members) = .ok (some event) ↔
    (∃ word, (Json.obj members).member? "command" = some (.str word) ∧
      MessageParser.commandMap.lookup word = some event.type ∧
      Passes members word event.type event.data) ∧
      (Json.obj members).Has ("rq", .numberOrBoolean) ∧
      (Json.obj members).MayHave ("name", .string) := by
  rw [readMessage_iff, has_command]
  constructor
  · intro h
    obtain ⟨hprint, hrq, hname, ⟨word, hword⟩, j, hpopulate, hvalid, htype⟩ := h
    obtain ⟨-, -, hfields⟩ := printMessage_iff.mp hprint
    rw [field_command hword] at hpopulate htype hfields
    rw [← htype] at hvalid
    refine ⟨⟨word, hword, ?_, hfields, j, ?_, ?_⟩, hrq, hname⟩
    · rw [← htype]
      exact lookup_of_valid hvalid
    · rwa [← htype]
    · rwa [← htype]
  · intro h
    obtain ⟨⟨word, hword, hlookup, hfields, j, hpopulate, hvalid⟩, hrq, hname⟩ := h
    have htype : MessageParser.stringToEventType word = event.type := by
      simp [MessageParser.stringToEventType, hlookup]
    have hprint : MessageParser.printMessage (.obj members) = .ok () := by
      rw [printMessage_iff, field_command hword]
      exact ⟨(has_iff.mp (has_command.mpr ⟨word, hword⟩)).2, (has_iff.mp hrq).2, hfields⟩
    refine ⟨hprint, hrq, hname, ⟨word, hword⟩, j, ?_, hvalid, ?_⟩
    · rw [field_command hword, htype]
      exact hpopulate
    · rw [field_command hword, htype]

/-- An object is read iff it meets the schema. -/
theorem readMessage_schema : MessageParser.readMessage (.obj members) = .ok (some event) ↔
    Schema (.obj members) event.type ∧ event.data = fill (.obj members) event.type := by
  rw [readMessage_passes]
  constructor
  · intro h
    obtain ⟨⟨word, hword, hlookup, hpasses⟩, hrq, hname⟩ := h
    obtain ⟨hserved, hrequired, hoptional, hdata⟩ := (passes_iff hlookup hname).mp hpasses
    exact ⟨⟨⟨word, hword, hlookup⟩, hserved, hrq, hname, hrequired, hoptional⟩, hdata.symm⟩
  · intro h
    obtain ⟨⟨⟨word, hword, hlookup⟩, hserved, hrq, hname, hrequired, hoptional⟩, hdata⟩ := h
    exact ⟨⟨word, hword, hlookup, (passes_iff hlookup hname).mpr
      ⟨hserved, hrequired, hoptional, hdata.symm⟩⟩, hrq, hname⟩

theorem parseMessage_eq_some {j : Json P} : MessageParser.parseMessage j = some event ↔
    MessageParser.readMessage j = .ok (some event) := by
  unfold MessageParser.parseMessage
  cases MessageParser.readMessage j <;> simp

end Parse

/-- **The parser accepts exactly its schema**, and returns the data of the message. -/
theorem parse_schema (j : Json P) (event : P2PEvent P) :
    MessageParser.parseMessage j = some event ↔
      Schema j event.type ∧ event.data = fill j event.type := by
  rw [parseMessage_eq_some]
  cases j with
  | obj members => exact readMessage_schema
  | _ =>
    -- Nothing but an object survives the first `value`.
    refine iff_of_false (fun h => by cases h) fun h => ?_
    obtain ⟨word, hword, -⟩ := h.1.command
    cases hword

end P2PShopping
