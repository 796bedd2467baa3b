import P2PShopping.Server.Rejection

/-! The two readings of a message.

A handler reads the raw JSON; `parseMessage` reads the text again for the event
queue, with a command map, required keys and types of its own. The two agree on every
LOOKING_FOR and OFFER a handler completes. They part on DE_REGISTER, which the command
map does not have, and on a REGISTER without the addresses that only the parser asks
for. -/
namespace P2PShopping
open Collections Json Handler

variable {P : Type} [Double P]

/-! ### What a handler has read -/

/-- The event has the type of the command, and what the command's handler read is in it. -/
inductive SameReading (j : Json P) : String → P2PEvent P → Prop where
  | register {data : MessageData P} : j.Reads getInt "rq" data.requestNumber →
      j.Reads getString "name" data.senderName → SameReading j "REGISTER" ⟨.register, data⟩
  | deRegister {data : MessageData P} : j.Reads getInt "rq" data.requestNumber →
      j.Reads getString "name" data.senderName → SameReading j "DE_REGISTER" ⟨.deRegister, data⟩
  | lookingFor {data : MessageData P} : j.Reads getInt "rq" data.requestNumber →
      j.Reads getString "name" data.senderName → j.Reads getString "item_name" data.itemName →
      j.Reads getDouble "max_price" data.maxPrice →
      SameReading j "LOOKING_FOR" ⟨.lookingFor, data⟩
  | offer {data : MessageData P} : j.Reads getInt "rq" data.requestNumber →
      j.Reads getString "name" data.senderName → j.Reads getString "item_name" data.itemName →
      j.Reads getDouble "price" data.price → SameReading j "OFFER" ⟨.offer, data⟩

/-- The parser returns an event, and the same reading of the message. -/
def ReadingsAgree (j : Json P) (word : String) : Prop :=
  ∃ event, MessageParser.parseMessage j = some event ∧ SameReading j word event

section Reads
variable {α : Type} {get : Json P → Except Fault α} {kind : Kind} {j : Json P} {key : String}

omit [Double P]

theorem has_of_reads (hget : kind.Converts get) {a : α} (h : j.Reads get key a) :
    j.Has (key, kind) := by
  obtain ⟨v, hv, ha⟩ := h
  exact ⟨v, index_eq_ok.mp hv, (hget v).mpr ⟨a, ha⟩⟩

/-- A key of the right kind reads as its field. -/
theorem reads_field (hget : kind.Converts get) (h : j.Has (key, kind)) (default : α) :
    j.Reads get key (j.field get key default) := by
  obtain ⟨v, hv, hfits⟩ := h
  obtain ⟨a, ha⟩ := (hget v).mp hfits
  refine ⟨v, index_eq_ok.mpr hv, ?_⟩
  simp only [field, hv, ha, Except.toOption]
  rfl

end Reads

/-! ### What a completed handler implies -/

section Completed
variable {members : List (String × Json P)} {addr : SockaddrIn} {s s' : Server P} {word : String}

/-- A message whose handler completed has every key its handler reads. -/
theorem answerable_of_dispatch (h : dispatch (.obj members) addr s = .ok () s')
    (hword : (Json.obj members).member? "command" = some (.str word)) :
    MessageParser.printMessage (.obj members) = .ok () ∧
      Answerable (.obj members) word := by
  obtain ⟨u, s₁, hlift, hhandled⟩ := bind_ok.mp h
  obtain ⟨hprint, hsame⟩ := lift_ok.mp hlift
  rw [hsame] at hhandled
  have hsurvives : Survives (handleCommand (.obj members) addr) s := by
    intro fault t hfault
    rw [hhandled] at hfault
    cases hfault
  obtain ⟨word', hword', hanswerable⟩ := (survives_handleCommand hprint).mp hsurvives
  rw [hword] at hword'
  cases hword'
  exact ⟨hprint, hanswerable⟩

/-- A message with the keys and kinds of its type is parsed, to the data it stands for. -/
theorem parse_of_required {type : P2PEventType}
    (hword : (Json.obj members).member? "command" = some (.str word))
    (hlookup : MessageParser.commandMap.lookup word = some type)
    (hserved : type ∉ [.reserve, .cancel, .buy])
    (hrq : (Json.obj members).Has ("rq", .numberOrBoolean))
    (hname : (Json.obj members).MayHave ("name", .string))
    (hrequired : ∀ f ∈ type.required, (Json.obj members).Has f) (hoptional : type.optional = []) :
    MessageParser.parseMessage (.obj members) = some ⟨type, fill (.obj members) type⟩ := by
  rw [parseMessage_eq_some, readMessage_schema]
  exact ⟨⟨⟨word, hword, hlookup⟩, hserved, hrq, hname, hrequired, by simp [hoptional]⟩, rfl⟩

theorem register_agree (h : dispatch (.obj members) addr s = .ok () s')
    (hword : (Json.obj members).member? "command" = some (.str "REGISTER")) :
    ReadingsAgree (.obj members) "REGISTER" ↔
      ∀ key ∈ ["ip", "udp_port", "tcp_port"], (Json.obj members).contains key = true := by
  obtain ⟨hprint, hanswerable⟩ := answerable_of_dispatch h hword
  obtain ⟨hrq, hfields⟩ := printed hprint hword
  obtain ⟨hname, hip, hudp, htcp⟩ := print_register.mp hfields
  constructor
  · intro hagree
    obtain ⟨event, hparse, -⟩ := hagree
    obtain ⟨hschema, -⟩ := readMessage_schema.mp (parseMessage_eq_some.mp hparse)
    have htype : event.type = .register := by
      obtain ⟨word, hword', hlookup⟩ := hschema.command
      rw [hword] at hword'
      cases hword'
      exact (Option.some.inj hlookup).symm
    have hrequired := hschema.required
    rw [htype] at hrequired
    simp only [P2PEventType.required, List.forall_mem_cons, has_iff] at hrequired
    obtain ⟨hip, hudp, htcp, -⟩ := hrequired
    simp [hip.1, hudp.1, htcp.1, -contains_obj]
  · intro hkeys
    have hnumber : (Json.obj members).Has ("rq", .numberOrBoolean) :=
      has_iff.mpr ⟨hanswerable.keys "rq" (by simp) (by decide), hrq⟩
    have hsender : (Json.obj members).Has ("name", .string) :=
      has_iff.mpr ⟨hanswerable.keys "name" (by simp) (by decide), hname⟩
    refine ⟨_, parse_of_required hword rfl (by decide) hnumber hname ?_ rfl,
      .register (reads_field converts_numberOrBoolean hnumber 0)
        (reads_field converts_string hsender "")⟩
    simp only [P2PEventType.required, List.forall_mem_cons, List.not_mem_nil, false_imp_iff,
      implies_true, and_true, has_iff]
    exact ⟨⟨hkeys _ (by simp), hip⟩, ⟨hkeys _ (by simp), hudp⟩, ⟨hkeys _ (by simp), htcp⟩⟩

theorem deregister_disagree
    (hword : (Json.obj members).member? "command" = some (.str "DE_REGISTER")) :
    ¬ ReadingsAgree (.obj members) "DE_REGISTER" := by
  intro hagree
  obtain ⟨event, hparse, -⟩ := hagree
  obtain ⟨hschema, -⟩ := readMessage_schema.mp (parseMessage_eq_some.mp hparse)
  obtain ⟨word, hword', hlookup⟩ := hschema.command
  rw [hword] at hword'
  cases hword'
  cases hlookup

/-- The handler of the word is the one that completed. -/
theorem handler_of_dispatch {handler : Json P → SockaddrIn → Handler P Unit}
    (h : dispatch (.obj members) addr s = .ok () s')
    (hword : (Json.obj members).member? "command" = some (.str word))
    (hhandler : commandHandlers.lookup word = some handler) :
    handler (.obj members) addr s = .ok () s' := by
  simp only [dispatch, handleCommand, bind_ok, lift_ok, readKey_ok] at h
  obtain ⟨_, _, ⟨-, rfl⟩, word', _, ⟨hread, rfl⟩, h⟩ := h
  obtain rfl := hread.unique ⟨_, index_eq_ok.mpr hword, rfl⟩
  rwa [hhandler] at h

theorem lookingFor_agree (h : dispatch (.obj members) addr s = .ok () s')
    (hword : (Json.obj members).member? "command" = some (.str "LOOKING_FOR")) :
    ReadingsAgree (.obj members) "LOOKING_FOR" := by
  obtain ⟨rq, name, item, maxPrice, description, hrq, hname, hitem, hmax, hdescription, -⟩ :=
    handleLookingFor_ok (handler_of_dispatch h hword rfl)
  have hnumber := has_of_reads converts_numberOrBoolean hrq
  have hsender := has_of_reads converts_string hname
  have hitem := has_of_reads converts_string hitem
  have hprice := has_of_reads converts_number hmax
  have htext : (Json.obj members).Has ("description", .string) := by
    obtain ⟨text, rfl⟩ := MessageParser.description_of_print (dispatch_ok h).1
      ⟨_, index_eq_ok.mpr hword, rfl⟩ hdescription
    exact ⟨_, index_eq_ok.mp hdescription, rfl⟩
  refine ⟨_, parse_of_required hword rfl (by decide) hnumber (has_iff.mp hsender).2 ?_ rfl,
    .lookingFor (reads_field converts_numberOrBoolean hnumber 0)
      (reads_field converts_string hsender "") (reads_field converts_string hitem "")
      (reads_field converts_number hprice _)⟩
  simp only [P2PEventType.required, List.forall_mem_cons, List.not_mem_nil, false_imp_iff,
    implies_true, and_true]
  exact ⟨hsender, hitem, htext, hprice⟩

theorem offer_agree (h : dispatch (.obj members) addr s = .ok () s')
    (hword : (Json.obj members).member? "command" = some (.str "OFFER")) :
    ReadingsAgree (.obj members) "OFFER" := by
  obtain ⟨rq, name, item, price, hrq, hname, hitem, hprice, -⟩ :=
    handleOffer_ok (handler_of_dispatch h hword rfl)
  have hnumber := has_of_reads converts_numberOrBoolean hrq
  have hsender := has_of_reads converts_string hname
  have hitem := has_of_reads converts_string hitem
  have hprice := has_of_reads converts_number hprice
  refine ⟨_, parse_of_required hword rfl (by decide) hnumber (has_iff.mp hsender).2 ?_ rfl,
    .offer (reads_field converts_numberOrBoolean hnumber 0)
      (reads_field converts_string hsender "") (reads_field converts_string hitem "")
      (reads_field converts_number hprice _)⟩
  simp only [P2PEventType.required, List.forall_mem_cons, List.not_mem_nil, false_imp_iff,
    implies_true, and_true]
  exact ⟨hsender, hitem, hprice⟩

end Completed

/-- **When the two readings agree.** For a message whose registered handler completed,
the parser returns the same reading iff the command is LOOKING_FOR or OFFER, or
REGISTER with an address and two ports. -/
theorem readings_agree_iff {j : Json P} {addr : SockaddrIn} {s s' : Server P} {word : String}
    (h : dispatch j addr s = .ok () s') (hword : j.Reads getString "command" word)
    (hregistered : (commandHandlers (P := P)).lookup word ≠ none) :
    ReadingsAgree j word ↔ word = "LOOKING_FOR" ∨ word = "OFFER" ∨ (word = "REGISTER" ∧
      ∀ key ∈ ["ip", "udp_port", "tcp_port"], j.contains key = true) := by
  obtain ⟨v, hv, hget⟩ := hword
  rw [getString_eq_ok] at hget
  subst hget
  have hmember := index_eq_ok.mp hv
  cases j with
  | obj members =>
    obtain ⟨handler, hhandler⟩ := Option.ne_none_iff_exists'.mp hregistered
    rcases commandHandlers_cases hhandler with ⟨rfl, -⟩ | ⟨rfl, -⟩ | ⟨rfl, -⟩ | ⟨rfl, -⟩
    · rw [register_agree h hmember]
      simp
    · exact iff_of_false (deregister_disagree hmember) (by simp)
    · exact iff_of_true (lookingFor_agree h hmember) (by simp)
    · exact iff_of_true (offer_agree h hmember) (by simp)
  | _ => cases hmember

/-- A REGISTER that only the server's handler understands. -/
def bareRegister : Json Rat :=
  .obj [("command", .str "REGISTER"), ("rq", .int 1), ("name", .str "peer1")]

theorem readings_agree_iff_bare : ReadingsAgree bareRegister "REGISTER" ↔
    "REGISTER" = "LOOKING_FOR" ∨ "REGISTER" = "OFFER" ∨ ("REGISTER" = "REGISTER" ∧
      ∀ key ∈ ["ip", "udp_port", "tcp_port"], bareRegister.contains key = true) := by
  obtain ⟨s', hdispatch⟩ : ∃ s', dispatch bareRegister (loopback 5001) {} = .ok () s' := ⟨_, rfl⟩
  exact readings_agree_iff hdispatch ⟨_, rfl, rfl⟩ (by simp [commandHandlers])

/-- The client's own goodbye ends its session, and is no event. -/
theorem goodbye_disagrees :
    ¬ ∀ (j : Json Rat) (addr : SockaddrIn) (s s' : Server Rat) (word : String),
      dispatch j addr s = .ok () s' → j.Reads getString "command" word →
      (commandHandlers (P := Rat)).lookup word ≠ none → ReadingsAgree j word := by
  intro h
  have hagree := h (ClientMessage.deRegister 2 "peer1").toJson (loopback 5001) {} _ "DE_REGISTER"
    rfl ⟨_, rfl, rfl⟩ (by simp [commandHandlers])
  exact deregister_disagree rfl hagree

end P2PShopping
