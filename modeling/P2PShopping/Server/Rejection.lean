import P2PShopping.Server.Step
import P2PShopping.Wire.Schema

/-! Messages the server cannot serve.

The text of a datagram is any JSON value. `printMessage` checks the types of the keys
it prints, and a handler then reads its own keys through the asserting `operator[]`.
Here is which messages survive that: what is thrown is caught and changes nothing
(`rejected_untouched`), and a message fails an assertion iff it prints and lacks a
key its handler reads (`handlesSafely_iff`). -/
namespace P2PShopping
open Collections Json Handler

variable {P : Type} [Double P]

/-- The keys each handler reads through the asserting `operator[]`, in this order. -/
def handlerKeys : List (String × List String) :=
  [("REGISTER", ["name", "rq"]),
   ("DE_REGISTER", ["name"]),
   ("LOOKING_FOR", ["rq", "item_name", "max_price", "name", "description"]),
   ("OFFER", ["rq", "name", "item_name", "price"])]

def keysOf (word : String) : List String := (handlerKeys.lookup word).getD []

@[simp] theorem keysOf_register : keysOf "REGISTER" = ["name", "rq"] := rfl
@[simp] theorem keysOf_deregister : keysOf "DE_REGISTER" = ["name"] := rfl
@[simp] theorem keysOf_lookingFor :
    keysOf "LOOKING_FOR" = ["rq", "item_name", "max_price", "name", "description"] := rfl
@[simp] theorem keysOf_offer : keysOf "OFFER" = ["rq", "name", "item_name", "price"] := rfl

/-! ### Conversions only throw -/

section Throws
variable {α β : Type}

omit [Double P] in
/-- Every fault of it is a thrown exception. -/
def OnlyThrows (x : Except Fault α) : Prop := ∀ fault, x = .error fault → fault.caught = true

theorem onlyThrows_ok (a : α) : OnlyThrows (.ok a) := by
  intro fault h
  cases h

theorem onlyThrows_bind {x : Except Fault α} {f : α → Except Fault β} (hx : OnlyThrows x)
    (hf : ∀ a, OnlyThrows (f a)) : OnlyThrows (x >>= f) := by
  cases x with
  | ok a => exact hf a
  | error fault =>
    intro fault' h
    cases h
    exact hx fault rfl

omit [Double P] in
theorem onlyThrows_getString (v : Json P) : OnlyThrows (getString v) := by
  intro fault h
  cases v <;> cases h <;> rfl

theorem onlyThrows_getInt (v : Json P) : OnlyThrows (getInt v) := by
  intro fault h
  cases v <;> cases h <;> rfl

theorem onlyThrows_getDouble (v : Json P) : OnlyThrows (getDouble v) := by
  intro fault h
  cases v <;> cases h <;> rfl

omit [Double P] in
theorem onlyThrows_value {get : Json P → Except Fault α} (hget : ∀ v, OnlyThrows (get v))
    (j : Json P) (key : String) (default : α) : OnlyThrows (j.value get key default) := by
  cases j with
  | obj members =>
    rw [value_obj]
    split
    · exact hget _
    · exact onlyThrows_ok _
  | _ =>
    intro fault h
    cases h
    rfl

omit [Double P] in
theorem onlyThrows_indexInsert (j : Json P) (key : String) : OnlyThrows (j.indexInsert key) := by
  intro fault h
  cases j with
  | obj members =>
    rw [indexInsert_obj] at h
    split at h <;> cases h
  | null => cases h
  | _ =>
    cases h
    rfl

omit [Double P] in
/-- The asserting access behind `contains`. -/
theorem onlyThrows_guarded {get : Json P → Except Fault α} (hget : ∀ v, OnlyThrows (get v))
    {j : Json P} {key : String} {rest : α → Except Fault β} {other : Except Fault β}
    (hrest : ∀ a, OnlyThrows (rest a)) (hother : OnlyThrows other) :
    OnlyThrows (if j.contains key = true then
      j.index key >>= fun v => get v >>= rest else other) := by
  split
  case isFalse => exact hother
  case isTrue h =>
    rw [contains_eq, Option.isSome_iff_exists] at h
    obtain ⟨v, hv⟩ := h
    rw [index_eq_ok.mpr hv, ok_bind]
    exact onlyThrows_bind (hget v) hrest

theorem onlyThrows_printCommandFields (j : Json P) (command : String) :
    OnlyThrows (MessageParser.printCommandFields j command) := by
  have hstring := onlyThrows_value onlyThrows_getString j
  have hint := onlyThrows_value onlyThrows_getInt j
  have hdouble := onlyThrows_value onlyThrows_getDouble j
  unfold MessageParser.printCommandFields
  split
  · exact onlyThrows_bind (hstring _ _) fun _ => onlyThrows_bind (hstring _ _) fun _ =>
      onlyThrows_bind (hint _ _) fun _ => onlyThrows_bind (hint _ _) fun _ => onlyThrows_ok _
  · split
    · exact onlyThrows_bind (hstring _ _) fun _ => onlyThrows_ok _
    · split
      · exact onlyThrows_bind (hstring _ _) fun _ => onlyThrows_bind (hstring _ _) fun _ =>
          onlyThrows_guarded onlyThrows_getDouble (fun _ => onlyThrows_ok _) (onlyThrows_ok _)
      · split
        · have hrest : OnlyThrows (do
              let _item ← j.value getString "item_name" "UNKNOWN"
              let _price ← j.value getDouble "price" (Double.ofInt 0)) :=
            onlyThrows_bind (hstring _ _) fun _ => onlyThrows_bind (hdouble _ _) fun _ =>
              onlyThrows_ok _
          exact onlyThrows_guarded onlyThrows_getString (fun _ => hrest) hrest
        · exact onlyThrows_ok _

theorem onlyThrows_printMessage (j : Json P) : OnlyThrows (MessageParser.printMessage j) :=
  onlyThrows_bind (onlyThrows_value onlyThrows_getString _ _ _) fun _ =>
    onlyThrows_bind (onlyThrows_value onlyThrows_getInt _ _ _) fun _ =>
      onlyThrows_printCommandFields j _

omit [Double P] in
/-- The inserting access, then the conversion. -/
theorem onlyThrows_insert {get : Json P → Except Fault α} (hget : ∀ v, OnlyThrows (get v))
    {j : Json P} {key : String} {rest : Json P × Json P → α → Except Fault β}
    (hrest : ∀ p a, OnlyThrows (rest p a)) :
    OnlyThrows (j.indexInsert key >>= fun p => get p.1 >>= rest p) :=
  onlyThrows_bind (onlyThrows_indexInsert j key) fun p =>
    onlyThrows_bind (hget p.1) fun a => hrest p a

theorem onlyThrows_populate (type : P2PEventType) (data : MessageData P) (j : Json P) :
    OnlyThrows (MessageParser.populate type data j) := by
  cases type <;> simp only [MessageParser.populate, pure_eq_ok, if_true, reduceCtorEq, if_false]
  case register =>
    exact onlyThrows_insert onlyThrows_getString fun _ _ =>
      onlyThrows_insert onlyThrows_getInt fun _ _ =>
        onlyThrows_insert onlyThrows_getInt fun _ _ => onlyThrows_ok _
  case lookingFor =>
    exact onlyThrows_insert onlyThrows_getString fun _ _ =>
      onlyThrows_insert onlyThrows_getString fun _ _ =>
        onlyThrows_insert onlyThrows_getDouble fun _ _ => onlyThrows_ok _
  case search =>
    exact onlyThrows_insert onlyThrows_getString fun _ _ =>
      onlyThrows_insert onlyThrows_getString fun _ _ => onlyThrows_ok _
  case offer | accept | refuse | negotiate =>
    exact onlyThrows_insert onlyThrows_getString fun _ _ =>
      onlyThrows_insert onlyThrows_getDouble fun _ _ => onlyThrows_ok _
  case notAvailable | notFound | found =>
    refine onlyThrows_insert onlyThrows_getString fun _ _ => ?_
    split
    · exact onlyThrows_insert onlyThrows_getDouble fun _ _ => onlyThrows_ok _
    · exact onlyThrows_ok _
  case registerDenied =>
    split
    · exact onlyThrows_insert onlyThrows_getString fun _ _ => onlyThrows_ok _
    · exact onlyThrows_ok _
  all_goals exact onlyThrows_ok _

/-- `parseMessage` fails no assertion: what it returns a null pointer for was thrown. -/
theorem onlyThrows_readMessage (j : Json P) : OnlyThrows (MessageParser.readMessage j) := by
  simp only [MessageParser.readMessage]
  refine onlyThrows_bind (onlyThrows_printMessage j) fun _ => ?_
  split
  · exact onlyThrows_ok _
  · refine onlyThrows_insert onlyThrows_getInt fun _ _ => ?_
    refine onlyThrows_bind (onlyThrows_value onlyThrows_getString _ _ _) fun _ => ?_
    refine onlyThrows_insert onlyThrows_getString fun _ _ => ?_
    refine onlyThrows_bind (onlyThrows_populate _ _ _) fun _ => ?_
    split
    · exact onlyThrows_ok _
    · exact onlyThrows_ok _

end Throws

/-! ### Which reads survive -/

/-- It completes, or what stops it is caught. -/
def Survives {α : Type} (x : Handler P α) (s : Server P) : Prop :=
  ∀ fault s', x s = .error fault s' → fault.caught = true

section Survives
variable {α β : Type} {j : Json P} {key : String} {s : Server P}

theorem survives_lift {x : Except Fault α} {f : α → Handler P β} (hx : OnlyThrows x) :
    Survives (lift x >>= f) s ↔ ∀ a, x = .ok a → Survives (f a) s := by
  simp only [Survives, bind_error, lift_error, lift_ok]
  cases x with
  | ok a => simp
  | error fault =>
    have hcaught := hx fault rfl
    simp [hcaught]

/-- An asserting access needs its key, and what follows if the value converts. -/
theorem survives_readKey {get : Json P → Except Fault α} {f : α → Handler P β}
    (hget : ∀ v, OnlyThrows (get v)) (hobj : ∃ members, j = .obj members) :
    Survives (readKey j key get >>= f) s ↔
      j.contains key = true ∧ ∀ a, j.Reads get key a → Survives (f a) s := by
  obtain ⟨members, rfl⟩ := hobj
  cases hv : members.lookup key with
  | none =>
    refine iff_of_false (fun h => ?_) fun h => ?_
    · have hfault : readKey (.obj members) key get s = .error (.missingKey key) s :=
        readKey_error.mpr ⟨.inl (by simp [hv]), rfl⟩
      cases h _ _ (bind_error.mpr (.inl hfault))
    · simp [hv] at h
  | some v =>
    have hindex : (Json.obj members).index key = .ok v := by simp [hv]
    have hlift : readKey (.obj members) key get = (lift (get v) : Handler P α) := by
      simp [readKey, hv]
    rw [hlift, survives_lift (hget v)]
    simp [Reads, hv]

theorem survives_modify {g : Server P → Server P} {f : Unit → Handler P β} :
    Survives (modify g >>= f) s ↔ Survives (f ()) (g s) :=
  Iff.rfl

theorem survives_get {f : Server P → Handler P β} :
    Survives (get >>= f) s ↔ Survives (f s) s :=
  Iff.rfl

theorem survives_modify_last {g : Server P → Server P} : Survives (modify g) s := by
  intro fault s' h
  cases h

omit [Double P] in
theorem onlyThrows_pure (v : Json P) : OnlyThrows (pure v : Except Fault (Json P)) :=
  onlyThrows_ok v

theorem survives_pure {a : α} : Survives (pure a : Handler P α) s := by
  intro fault s' h
  cases h

theorem survives_broadcast {searcherId : String} {message : ServerMessage P}
    {sessions : List (Sigma fun _ : String => Option (PeerSession P))} :
    Survives (broadcast searcherId message sessions) s := by
  intro fault s' h
  rw [broadcast_eq] at h
  cases h

omit [Double P] in
theorem reads_iff {get : Json P → Except Fault α} {kind : Kind} (hget : kind.Converts get)
    {Q : Prop} : (∀ a, j.Reads get key a → Q) ↔ (j.Has (key, kind) → Q) := by
  have hhas : j.Has (key, kind) ↔ ∃ a, j.Reads get key a := by
    constructor
    · intro h
      obtain ⟨v, hv, hfits⟩ := h
      obtain ⟨a, ha⟩ := (hget v).mp hfits
      exact ⟨a, v, index_eq_ok.mpr hv, ha⟩
    · intro h
      obtain ⟨a, v, hv, ha⟩ := h
      exact ⟨v, index_eq_ok.mp hv, (hget v).mpr ⟨a, ha⟩⟩
  rw [hhas]
  exact ⟨fun h h' => h'.elim h, fun h a ha => h ⟨a, ha⟩⟩

omit [Double P] in
theorem has_of_mayHave {f : String × Kind} (h : j.MayHave f) : j.Has f ↔ j.contains f.1 = true := by
  rw [has_iff]
  exact and_iff_left h

variable {addr : SockaddrIn} (hobj : ∃ members, j = .obj members)
include hobj

theorem survives_register (hname : j.MayHave ("name", .string)) :
    Survives (handleRegister j addr) s ↔
      j.contains "name" = true ∧ j.contains "rq" = true := by
  have hrest : ∀ peerId : String, Survives (do
      if ((← get).peerSessions.lookup peerId).isSome then
        let rq ← readKey j "rq" pure
        sendToClient (.registerDenied rq "Peer already registered") addr
      else
        modify (·.setSession peerId (some {peerAddr := addr}))
        let rq ← readKey j "rq" pure
        sendToClient (.registered rq) addr) s ↔ j.contains "rq" = true := by
    intro peerId
    rw [survives_get]
    split <;> simp [survives_modify, survives_readKey onlyThrows_pure hobj, sendToClient,
      survives_modify_last]
  rw [handleRegister, survives_readKey onlyThrows_getString hobj]
  simp only [hrest, reads_iff converts_string, has_of_mayHave hname]
  tauto

theorem survives_deregister :
    Survives (handleDeregister j addr) s ↔ j.contains "name" = true := by
  rw [handleDeregister]
  simp only [survives_modify, survives_readKey onlyThrows_pure hobj, survives_pure, implies_true,
    and_true]

theorem survives_lookingFor (hrq : j.MayHave ("rq", .numberOrBoolean))
    (hitem : j.MayHave ("item_name", .string)) (hmax : j.MayHave ("max_price", .number)) :
    Survives (handleLookingFor j addr) s ↔
      j.contains "rq" = true ∧ j.contains "item_name" = true ∧ j.contains "max_price" = true ∧
        j.contains "name" = true ∧
          (j.Has ("name", .string) → j.contains "description" = true) := by
  rw [handleLookingFor]
  simp only [survives_readKey onlyThrows_getInt hobj, survives_readKey onlyThrows_getString hobj,
    survives_readKey onlyThrows_getDouble hobj, survives_modify, survives_get,
    survives_readKey onlyThrows_pure hobj, survives_broadcast, implies_true, and_true]
  simp only [reads_iff converts_numberOrBoolean, reads_iff converts_string,
    reads_iff converts_number, has_of_mayHave hrq, has_of_mayHave hitem, has_of_mayHave hmax]
  tauto

theorem survives_offer (hrq : j.MayHave ("rq", .numberOrBoolean))
    (hname : j.MayHave ("name", .string)) (hitem : j.MayHave ("item_name", .string)) :
    Survives (handleOffer j addr) s ↔
      j.contains "rq" = true ∧ j.contains "name" = true ∧ j.contains "item_name" = true ∧
        j.contains "price" = true := by
  rw [handleOffer]
  simp only [survives_readKey onlyThrows_getInt hobj, survives_readKey onlyThrows_getString hobj,
    survives_readKey onlyThrows_getDouble hobj, survives_modify_last, implies_true, and_true]
  simp only [reads_iff converts_numberOrBoolean, reads_iff converts_string, has_of_mayHave hrq,
    has_of_mayHave hname, has_of_mayHave hitem]
  tauto

end Survives

/-! ### Which messages survive -/

/-- A message whose command is `word` has what its handler reads. Only a LOOKING_FOR
with a name that is a string comes to its description. -/
structure Answerable (j : Json P) (word : String) : Prop where
  keys : ∀ key ∈ keysOf word, key ≠ "description" → j.contains key = true
  description : word = "LOOKING_FOR" → j.Has ("name", .string) → j.contains "description" = true

/-- Handling the message completes, or is rejected by an exception that is caught;
and the parser only returns a null pointer for what was thrown. -/
def HandlesSafely (j : Json P) (addr : SockaddrIn) (s : Server P) : Prop :=
  Survives (handleNewMessage j addr) s ∧ OnlyThrows (MessageParser.readMessage j)

section Command
variable {members : List (String × Json P)} {addr : SockaddrIn} {s : Server P} {word : String}

omit [Double P] in
theorem answerable_iff : Answerable (.obj members) word ↔
    (∀ key ∈ keysOf word, key ≠ "description" → (Json.obj members).contains key = true) ∧
      (word = "LOOKING_FOR" → (Json.obj members).Has ("name", .string) →
        (Json.obj members).contains "description" = true) :=
  ⟨fun h => ⟨h.keys, h.description⟩, fun h => ⟨h.1, h.2⟩⟩

/-- The types that printing has checked, for the word the message has. -/
theorem printed (hprint : MessageParser.printMessage (.obj members) = .ok ())
    (hword : (Json.obj members).member? "command" = some (.str word)) :
    (Json.obj members).MayHave ("rq", .numberOrBoolean) ∧
      MessageParser.printCommandFields (.obj members) word = .ok () := by
  obtain ⟨-, hrq, hfields⟩ := printMessage_iff.mp hprint
  rw [field_command hword] at hfields
  exact ⟨hrq, hfields⟩

/-- What was printed has the right types, so only missing keys are left to fail on. -/
theorem survives_handler {handler : Json P → SockaddrIn → Handler P Unit}
    (hword : (Json.obj members).member? "command" = some (.str word))
    (hprint : MessageParser.printMessage (.obj members) = .ok ())
    (hhandler : commandHandlers.lookup word = some handler) :
    Survives (handler (.obj members) addr) s ↔ Answerable (.obj members) word := by
  have hobj : ∃ ms, Json.obj members = .obj ms := ⟨members, rfl⟩
  obtain ⟨hrq, hfields⟩ := printed hprint hword
  rw [answerable_iff]
  rcases commandHandlers_cases hhandler with ⟨rfl, rfl⟩ | ⟨rfl, rfl⟩ | ⟨rfl, rfl⟩ | ⟨rfl, rfl⟩
  · rw [survives_register hobj (print_register.mp hfields).1]
    simp
  · rw [survives_deregister hobj]
    simp
  · obtain ⟨hitem, -, hmax⟩ := (print_search (.inl rfl)).mp hfields
    rw [survives_lookingFor hobj hrq hitem hmax]
    simp [and_assoc]
  · obtain ⟨hname, hitem, -⟩ := (print_offer (by decide)).mp hfields
    rw [survives_offer hobj hrq hname hitem]
    simp

/-- The two tables have the same words. -/
theorem keysOf_of_lookup_none (h : (commandHandlers (P := P)).lookup word = none) :
    keysOf word = [] ∧ word ≠ "LOOKING_FOR" := by
  have hne : word ≠ "REGISTER" ∧ word ≠ "DE_REGISTER" ∧ word ≠ "LOOKING_FOR" ∧ word ≠ "OFFER" := by
    refine ⟨?_, ?_, ?_, ?_⟩ <;> (intro hword; rw [hword] at h; cases h)
  have hnone : handlerKeys.lookup word = none := by
    rw [List.lookup_eq_none_iff]
    simp [handlerKeys, hne]
  exact ⟨by simp [keysOf, hnone], hne.2.2.1⟩

theorem survives_handleCommand (hprint : MessageParser.printMessage (.obj members) = .ok ()) :
    Survives (handleCommand (.obj members) addr) s ↔
      ∃ word, (Json.obj members).member? "command" = some (.str word) ∧
        Answerable (.obj members) word := by
  have hobj : ∃ ms, Json.obj members = .obj ms := ⟨members, rfl⟩
  obtain ⟨hcommand, -⟩ := printMessage_iff.mp hprint
  rw [handleCommand, survives_readKey onlyThrows_getString hobj]
  constructor
  · intro h
    obtain ⟨hcontains, hrest⟩ := h
    obtain ⟨word, hword⟩ := has_command.mp (has_iff.mpr ⟨hcontains, hcommand⟩)
    have hhandled := hrest word ⟨_, index_eq_ok.mpr hword, rfl⟩
    refine ⟨word, hword, ?_⟩
    cases hlookup : (commandHandlers (P := P)).lookup word with
    | some handler =>
      rw [hlookup] at hhandled
      exact (survives_handler hword hprint hlookup).mp hhandled
    | none =>
      obtain ⟨hkeys, hne⟩ := keysOf_of_lookup_none hlookup
      exact ⟨by simp [hkeys], fun h => absurd h hne⟩
  · intro h
    obtain ⟨word, hword, hanswerable⟩ := h
    refine ⟨(has_iff.mp (has_command.mpr ⟨word, hword⟩)).1, ?_⟩
    intro word' hreads
    obtain rfl := hreads.unique ⟨_, index_eq_ok.mpr hword, rfl⟩
    cases hlookup : (commandHandlers (P := P)).lookup word' with
    | some handler => exact (survives_handler hword hprint hlookup).mpr hanswerable
    | none => exact survives_pure

end Command

/-- **A message is handled safely iff it does not print, or has the keys its handler
reads.** -/
theorem handlesSafely_iff (j : Json P) (addr : SockaddrIn) (s : Server P) :
    HandlesSafely j addr s ↔ (MessageParser.printMessage j = .ok () →
      ∃ word, j.member? "command" = some (.str word) ∧ Answerable j word) := by
  have hdispatch : Survives (handleNewMessage j addr) s ↔ Survives (dispatch j addr) s := by
    simp only [Survives, handleNewMessage, bind_error, modify_error, and_false, exists_false,
      or_false]
  rw [HandlesSafely, and_iff_left (onlyThrows_readMessage j), hdispatch, dispatch,
    survives_lift (onlyThrows_printMessage j)]
  cases j with
  | obj members =>
    constructor
    · intro h hprint
      exact (survives_handleCommand hprint).mp (h () hprint)
    · intro h u hprint
      exact (survives_handleCommand hprint).mpr (h hprint)
  | _ => exact iff_of_true (fun u hprint => by cases hprint) fun hprint => by cases hprint

/-- An object without a command prints as "UNKNOWN", and the server fails on it. -/
theorem command_missing : ¬ ∀ (j : Json Rat) (addr : SockaddrIn) (s : Server Rat),
    HandlesSafely j addr s := by
  intro h
  cases (h (.obj []) (loopback 5001) {}).1 (.missingKey "command") _ rfl

/-! ### What a rejection leaves -/

/-- The message is an object with a command and every key its handler reads. -/
def KeysPresent (j : Json P) : Prop :=
  (∃ members, j = .obj members) ∧ j.contains "command" = true ∧
    ∀ word, j.member? "command" = some (.str word) →
      ∀ key ∈ keysOf word, j.contains key = true

/-- No assertion about a key fails in it. -/
def FindsKeys {α : Type} (x : Handler P α) (s : Server P) : Prop :=
  ∀ key s', x s ≠ .error (.missingKey key) s'

section FindsKeys
variable {α β : Type} {j : Json P} {addr : SockaddrIn} {s : Server P}

theorem findsKeys_bind {x : Handler P α} {f : α → Handler P β} (hx : FindsKeys x s)
    (hf : ∀ a s₁, x s = .ok a s₁ → FindsKeys (f a) s₁) : FindsKeys (x >>= f) s := by
  intro key s' h
  rcases bind_error.mp h with h | ⟨a, s₁, hok, h⟩
  · exact hx key s' h
  · exact hf a s₁ hok key s' h

theorem findsKeys_readKey {key : String} {get : Json P → Except Fault α}
    (hget : ∀ v, OnlyThrows (get v)) (hkey : j.contains key = true) :
    FindsKeys (readKey j key get) s := by
  intro key' s' h
  rw [contains_eq, Option.isSome_iff_exists] at hkey
  obtain ⟨w, hw⟩ := hkey
  rw [readKey_error, index_eq_ok.mpr hw] at h
  obtain ⟨herr | ⟨v, -, herr⟩, -⟩ := h
  · cases herr
  · cases hget v _ herr

theorem findsKeys_get : FindsKeys (get : Handler P (Server P)) s := by
  intro key s' h
  cases h

theorem findsKeys_modify {g : Server P → Server P} : FindsKeys (modify g) s := by
  intro key s' h
  cases h

theorem findsKeys_register (hkeys : ∀ key ∈ ["name", "rq"], j.contains key = true) :
    FindsKeys (handleRegister j addr) s := by
  have hrq : ∀ s, FindsKeys (readKey j "rq" (pure : Json P → Except Fault (Json P))) s :=
    fun s => findsKeys_readKey onlyThrows_pure (hkeys _ (by simp))
  refine findsKeys_bind (findsKeys_readKey onlyThrows_getString (hkeys _ (by simp)))
    fun _ _ _ => findsKeys_bind findsKeys_get fun _ _ _ => ?_
  split
  · exact findsKeys_bind (hrq _) fun _ _ _ => findsKeys_modify
  · exact findsKeys_bind findsKeys_modify fun _ _ _ =>
      findsKeys_bind (hrq _) fun _ _ _ => findsKeys_modify

theorem findsKeys_deregister (hkeys : ∀ key ∈ ["name"], j.contains key = true) :
    FindsKeys (handleDeregister j addr) s :=
  findsKeys_bind findsKeys_modify fun _ _ _ =>
    findsKeys_bind (findsKeys_readKey onlyThrows_pure (hkeys _ (by simp))) fun _ _ _ _ _ h => by
      cases h

theorem findsKeys_lookingFor
    (hkeys : ∀ key ∈ ["rq", "item_name", "max_price", "name", "description"],
      j.contains key = true) : FindsKeys (handleLookingFor j addr) s := by
  refine findsKeys_bind (findsKeys_readKey onlyThrows_getInt (hkeys _ (by simp))) fun _ _ _ => ?_
  refine findsKeys_bind (findsKeys_readKey onlyThrows_getString (hkeys _ (by simp)))
    fun _ _ _ => ?_
  refine findsKeys_bind (findsKeys_readKey onlyThrows_getDouble (hkeys _ (by simp)))
    fun _ _ _ => ?_
  refine findsKeys_bind (findsKeys_readKey onlyThrows_getString (hkeys _ (by simp)))
    fun _ _ _ => ?_
  refine findsKeys_bind findsKeys_get fun _ _ _ => findsKeys_bind findsKeys_modify fun _ _ _ => ?_
  refine findsKeys_bind findsKeys_modify fun _ _ _ => ?_
  refine findsKeys_bind (findsKeys_readKey onlyThrows_pure (hkeys _ (by simp))) fun _ _ _ => ?_
  refine findsKeys_bind findsKeys_get fun _ _ _ key s' h => ?_
  rw [broadcast_eq] at h
  cases h

theorem findsKeys_offer (hkeys : ∀ key ∈ ["rq", "name", "item_name", "price"],
    j.contains key = true) : FindsKeys (handleOffer j addr) s := by
  refine findsKeys_bind (findsKeys_readKey onlyThrows_getInt (hkeys _ (by simp))) fun _ _ _ => ?_
  refine findsKeys_bind (findsKeys_readKey onlyThrows_getString (hkeys _ (by simp)))
    fun _ _ _ => ?_
  refine findsKeys_bind (findsKeys_readKey onlyThrows_getString (hkeys _ (by simp)))
    fun _ _ _ => ?_
  exact findsKeys_bind (findsKeys_readKey onlyThrows_getDouble (hkeys _ (by simp)))
    fun _ _ _ => findsKeys_modify

theorem findsKeys_dispatch (hkeys : KeysPresent j) : FindsKeys (dispatch j addr) s := by
  obtain ⟨-, hcommand, hkeys⟩ := hkeys
  refine findsKeys_bind (fun key s' h => ?_) fun _ _ _ => ?_
  · cases onlyThrows_printMessage j _ (lift_error.mp h).1
  refine findsKeys_bind (findsKeys_readKey onlyThrows_getString hcommand) fun word _ hread => ?_
  obtain ⟨⟨v, hv, hword⟩, -⟩ := readKey_ok.mp hread
  rw [getString_eq_ok] at hword
  subst hword
  have hpresent := hkeys word (index_eq_ok.mp hv)
  cases hlookup : (commandHandlers (P := P)).lookup word with
  | some handler =>
    rcases commandHandlers_cases hlookup with ⟨rfl, rfl⟩ | ⟨rfl, rfl⟩ | ⟨rfl, rfl⟩ | ⟨rfl, rfl⟩
    · exact findsKeys_register hpresent
    · exact findsKeys_deregister hpresent
    · exact findsKeys_lookingFor hpresent
    · exact findsKeys_offer hpresent
  | none =>
    intro key s' h
    cases h

end FindsKeys

/-- **A rejected message leaves the server untouched**: whatever handling a message with
all its keys throws, sessions, searches, threads, outbox and queue are as before. -/
theorem rejected_untouched {j : Json P} {addr : SockaddrIn} {s s' : Server P} {fault : Fault}
    (hkeys : KeysPresent j) (h : handleNewMessage j addr s = .error fault s') : s' = s := by
  rcases bind_error.mp h with h | ⟨_, _, _, h⟩
  · cases fault with
    | typeError id => exact dispatch_error rfl h
    | missingKey key => exact absurd h (findsKeys_dispatch hkeys key s')
  · cases h

/-- A LOOKING_FOR that gives a number for its name. -/
def unnamedSearch : Json Rat :=
  .obj [("command", .str "LOOKING_FOR"), ("rq", .int 1), ("name", .int 5),
    ("item_name", .str "lamp"), ("description", .str "old"), ("max_price", .int 10)]

theorem rejected_untouched_unnamed : ∃ s' : Server Rat,
    handleNewMessage unnamedSearch (loopback 5001) {} = .error (.typeError 302) s' ∧ s' = {} := by
  have hkeys : KeysPresent unnamedSearch := by
    refine ⟨⟨_, rfl⟩, rfl, ?_⟩
    intro word hword
    cases hword
    decide
  have hrejected : handleNewMessage unnamedSearch (loopback 5001) {} =
      .error (.typeError 302) {} := rfl
  exact ⟨{}, hrejected, rejected_untouched hkeys hrejected⟩

end P2PShopping
