import P2PShopping.Client.Client
import P2PShopping.Library.InputStream

/-! `processUserCommand`.

A line is taken apart by extractions whose failures nobody looks at: whatever they
leave in the local variables goes into the call. `readItem` is the part that `add`
and `search` share. It reads a name, a description in quotes or without, and a price,
and which lines hold all three is a matter of their text (`ItemText`). A line that is
written with all three goes into the call as it was written (`itemLine_roundTrip`), but
the call is made without them too (`guarded_iff`). -/
namespace P2PShopping
open Numerals InputStream

variable {P : Type}

/-- What a command depends on besides its line. -/
structure Env (P : Type) where
  localIp : String
  sent : Bool
  /-- The decimals that do not overflow a `double`. -/
  inRange : Rat → Bool
  /-- The `double` that a decimal is stored as. -/
  store : Rat → P
  /-- What the uninitialized `int` and `double` of a handler hold. -/
  number : Int32
  price : P

/-- A `std::string` that was empty before the extraction. -/
def textOf (extracted : Option (List Char)) : String := String.ofList (extracted.getD [])

/-! ### Reading a line -/

def readDescription (iss : Stream) : Stream × Option (List Char) :=
  let (iss, _) := iss.get
  match iss.peek with
  | (iss, some '"') =>
    let (iss, _) := iss.get
    iss.getline '"'
  | (iss, _) => iss.word

/-- Name, description and price. -/
def readItem (iss : Stream) (inRange : Rat → Bool) :
    Option (List Char) × Option (List Char) × Stream.Extracted :=
  let (iss, name) := iss.word
  let (iss, description) := readDescription iss
  (name, description, (iss.double inRange).2)

section Commands
variable [Double P]

/-- The `double` after the extraction. -/
def Env.stored (env : Env P) : Stream.Extracted → P
  | .untouched => env.price
  | .failed => Double.ofInt 0
  | .outOfRange numeral | .read numeral => env.store numeral.value

/-- The branch for `add`. -/
def handleAddCommand (env : Env P) (iss : Stream) : UserOp P :=
  let (name, description, price) := readItem iss env.inRange
  .addItem (textOf name) (textOf description) (env.stored price)

def handleSearchCommand (env : Env P) (iss : Stream) : UserOp P :=
  let (itemName, description, maxPrice) := readItem iss env.inRange
  .searchItem (textOf itemName) (textOf description) (env.stored maxPrice)

/-- The prompts for a number, a name and a price, which `std::cin` answers. -/
def readAnswer (env : Env P) (cin : Stream) : (Int32 × String × P) × Stream :=
  let (cin, requestNumber) := cin.int
  let cin := cin.ignore '\n'
  let (cin, itemName) := cin.getline '\n'
  let (cin, price) := cin.double env.inRange
  let cin := cin.ignore '\n'
  let requestNumber := match requestNumber with
    | some n => Int32.ofInt n
    | none => env.number
  ((requestNumber, textOf itemName, env.stored price), cin)

def handleNegotiateCommand (env : Env P) (cin : Stream) : UserOp P × Stream :=
  let ((requestNumber, itemName, counterPrice), cin) := readAnswer env cin
  (.negotiateOffer requestNumber itemName counterPrice, cin)

def handleAcceptCommand (env : Env P) (cin : Stream) : UserOp P × Stream :=
  let ((requestNumber, itemName, price), cin) := readAnswer env cin
  (.acceptOffer requestNumber itemName price, cin)

def handleRefuseCommand (env : Env P) (cin : Stream) : UserOp P × Stream :=
  let ((requestNumber, itemName, price), cin) := readAnswer env cin
  (.refuseOffer requestNumber itemName price, cin)

/-- The operation a line calls, if it does more than print, and what is left of the
input after its prompts. -/
def readCommand (env : Env P) (command : String) (cin : Stream) : Option (UserOp P) × Stream :=
  let (iss, cmd) := Stream.word {rest := command.toList}
  let cmd := textOf cmd
  if cmd = "add" then (some (handleAddCommand env iss), cin)
  else if cmd = "remove" ∨ cmd = "rm" then (some (.removeItem (textOf iss.word.2)), cin)
  else if cmd = "list" ∨ cmd = "ls" then (none, cin)
  else if cmd = "help" ∨ cmd = "h" then (none, cin)
  else if cmd = "register" ∨ cmd = "r" then (some (.registerWithServer env.localIp), cin)
  else if cmd = "deregister" ∨ cmd = "d" then (some .deregister, cin)
  else if cmd = "search" ∨ cmd = "s" then (some (handleSearchCommand env iss), cin)
  else if cmd = "listOffers" ∨ cmd = "ls offers" then (none, cin)
  else if cmd = "negotiate" ∨ cmd = "n" then
    let (op, cin) := handleNegotiateCommand env cin
    (some op, cin)
  else if cmd = "accept" ∨ cmd = "a" then
    let (op, cin) := handleAcceptCommand env cin
    (some op, cin)
  else if cmd = "refuse" ∨ cmd = "f" then
    let (op, cin) := handleRefuseCommand env cin
    (some op, cin)
  else if cmd = "status" then (none, cin)
  else if cmd = "quit" ∨ cmd = "q" then (some .quit, cin)
  else (none, cin)

/-- The client after the command, the datagram that went out, and the rest of the input. -/
def processUserCommand (env : Env P) (command : String) (c : P2PClient P) (cin : Stream) :
    (P2PClient P × Option (ClientMessage P)) × Stream :=
  match readCommand env command cin with
  | (some op, cin) => (op.run c env.sent, cin)
  | (none, cin) => ((c, none), cin)

end Commands

/-! ### The text of an item -/

/-- A description as it stands in a line, before the text `rest`. -/
inductive Written : List Char → List Char → List Char → Prop where
  | quoted {description rest : List Char} : '"' ∉ description →
      Written description ('"' :: (description ++ ['"'])) rest
  /-- The first word, if the text does not begin with a quote. -/
  | bare {blanks word rest : List Char} : Stream.Blank blanks → Stream.IsWord word →
      (blanks ++ word).head? ≠ some '"' → Stops (!isSpace ·) rest →
      Written word (blanks ++ word) rest

/-- A text that begins with a name, one blank, a description and a price. -/
structure ItemText (args name description : List Char) (price : Field) : Prop where
  isName : Stream.IsWord name
  isNumeral : price.IsNumeral
  shape : ∃ front blank text back rest, args =
      front ++ (name ++ blank :: (text ++ (back ++ (price.text ++ rest)))) ∧
    Stream.Blank front ∧ isSpace blank = true ∧
    Written description text (back ++ (price.text ++ rest)) ∧
    Stream.Blank back ∧ price.Ends rest

/-! ### Reading it -/

section Read
variable {args name description after : List Char} {price : Field} {inRange : Rat → Bool}

/-- A description in quotes. -/
theorem readDescription_quoted (blank : Char) (hquote : '"' ∉ description) :
    readDescription {rest := blank :: '"' :: (description ++ '"' :: after)} =
      ({rest := after}, some description) := by
  simp only [readDescription, Stream.get_cons, Stream.peek_cons, Stream.getline_run hquote]

/-- Without a quote, a word. -/
theorem readDescription_word (blank c : Char) {cs : List Char} (hc : c ≠ '"') :
    readDescription {rest := blank :: c :: cs} = Stream.word {rest := c :: cs} := by
  simp only [readDescription, Stream.get_cons, Stream.peek_cons]
  split
  case h_1 hquote => exact absurd (Option.some.inj (Prod.mk.inj hquote).2) hc
  case h_2 hother => rw [← (Prod.mk.inj hother).1]

/-- A description that is followed by something is read as it is written. -/
theorem readDescription_written {text : List Char} (blank : Char)
    (h : Written description text after) (hafter : after ≠ []) :
    readDescription {rest := blank :: (text ++ after)} = ({rest := after}, some description) := by
  cases h with
  | quoted hquote =>
    have htext : '"' :: (description ++ ['"']) ++ after = '"' :: (description ++ '"' :: after) := by
      simp
    rw [htext, readDescription_quoted blank hquote]
  | @bare blanks _ _ hblanks hword hhead hstops =>
    have hne : blanks ++ description ≠ [] := by simp [hword.nonempty]
    obtain ⟨c, cs, htext⟩ := List.exists_cons_of_ne_nil hne
    have hc : c ≠ '"' := by
      rw [htext] at hhead
      simpa using hhead
    have hempty : after.isEmpty = false := by simpa using hafter
    have hrun := Stream.word_run hblanks hword hstops
    rw [← List.append_assoc, htext, hempty] at hrun
    rw [htext, List.cons_append, readDescription_word blank c hc]
    exact hrun

/-- A stream that is good after the description has read it from such a text. -/
theorem readDescription_good {s : Stream} (h : (readDescription s).1.good = true) :
    ∃ c text after description, s = {rest := c :: (text ++ after)} ∧
      Written description text after ∧ readDescription s = ({rest := after}, some description) := by
  have hpeeked : s.get.1.peek.1.good = true := by
    unfold readDescription at h
    simp only at h
    split at h
    case h_1 t hpeek =>
      obtain ⟨line, rest, hline, -⟩ := Stream.getline_good h
      have hget : t.get.1.good = true := by rw [hline, Stream.good_mk]
      obtain ⟨c, rest, ht⟩ := Stream.get_good hget
      rw [hpeek, ht, Stream.good_mk]
    case h_2 t next hnext hpeek =>
      obtain ⟨blanks, w, rest, ht, -⟩ := Stream.word_good h
      rw [hpeek, ht, Stream.good_mk]
  obtain ⟨c₁, rest₁, hpeek⟩ := Stream.peek_good hpeeked
  have hget : s.get.1.good = true := by rw [hpeek, Stream.good_mk]
  obtain ⟨c, rest, rfl⟩ := Stream.get_good hget
  obtain rfl : rest = c₁ :: rest₁ := congrArg Stream.rest hpeek
  by_cases hquote : c₁ = '"'
  · subst hquote
    have hline : (Stream.getline {rest := rest₁} '"').1.good = true := h
    obtain ⟨description, after, htext, hmem⟩ := Stream.getline_good hline
    obtain rfl : rest₁ = description ++ '"' :: after := congrArg Stream.rest htext
    exact ⟨c, '"' :: (description ++ ['"']), after, description, by simp, .quoted hmem,
      readDescription_quoted c hmem⟩
  · rw [readDescription_word c c₁ hquote] at h ⊢
    obtain ⟨blanks, w, after, htext, hblanks, hw, hstops, -, hword⟩ := Stream.word_good h
    have htext : c₁ :: rest₁ = blanks ++ w ++ after := by
      rw [List.append_assoc]
      exact congrArg Stream.rest htext
    refine ⟨c, blanks ++ w, after, w, by rw [htext], .bare hblanks hw ?_ hstops, hword⟩
    obtain ⟨d, ds, hfront⟩ := List.exists_cons_of_ne_nil
      (show blanks ++ w ≠ [] by simp [hw.nonempty])
    rw [hfront] at htext ⊢
    obtain rfl : c₁ = d := (List.cons.inj htext).1
    simpa using hquote

/-- What `readItem` finds in such a text. -/
theorem readItem_itemText (h : ItemText args name description price) :
    readItem {rest := args} inRange = (some name, some description,
      if inRange price.value then .read price else .outOfRange price) := by
  obtain ⟨hname, hnumeral, front, blank, text, back, rest, rfl, hfront, hblank, hwritten, hback,
    hends⟩ := h
  have hafter : back ++ (price.text ++ rest) ≠ [] := by simp [text_ne_nil hnumeral]
  have hstops : Stops (!isSpace ·) (blank :: (text ++ (back ++ (price.text ++ rest)))) := by
    intro a ha
    obtain rfl : blank = a := Option.some.inj ha
    simp [hblank]
  have hword := Stream.word_run hfront hname hstops
  simp only [List.isEmpty_cons] at hword
  simp only [readItem, hword, readDescription_written blank hwritten hafter,
    Stream.double_run hback hnumeral hends, apply_ite Prod.snd]

/-- A price is read from such texts only. -/
theorem readItem_read {iss : Stream} (h : (readItem iss inRange).2.2 = .read price) :
    iss.good = true ∧ inRange price.value = true ∧
      ∃ name description, ItemText iss.rest name description price := by
  have hread : ((readDescription iss.word.1).1.double inRange).2 = .read price := h
  obtain ⟨hrange, back, rest, hafter, hback, hnumeral, hends⟩ := Stream.double_read hread
  have hgood : (readDescription iss.word.1).1.good = true := by rw [hafter, Stream.good_mk]
  obtain ⟨blank, text, after, description, hbefore, hwritten, hdescription⟩ :=
    readDescription_good hgood
  obtain rfl : after = back ++ (price.text ++ rest) := by
    rw [hdescription] at hafter
    exact congrArg Stream.rest hafter
  have hgood : iss.word.1.good = true := by rw [hbefore, Stream.good_mk]
  obtain ⟨front, name, tail, rfl, hfront, hname, hstops, -, hword⟩ := Stream.word_good hgood
  obtain rfl : tail = blank :: (text ++ (back ++ (price.text ++ rest))) := by
    rw [hword] at hbefore
    exact congrArg Stream.rest hbefore
  have hblank : isSpace blank = true := by simpa using hstops blank rfl
  exact ⟨rfl, hrange, name, description, hname, hnumeral, front, blank, text, back, rest, rfl,
    hfront, hblank, hwritten, hback, hends⟩

theorem ItemText.ne_nil (h : ItemText args name description price) : args ≠ [] := by
  obtain ⟨-, -, front, blank, text, back, rest, rfl, -⟩ := h
  simp

end Read

/-! ### The command of a line -/

/-- The line begins with the word `cmd`, and `args` follows it. -/
def Begins (line cmd : String) (args : List Char) : Prop :=
  ∃ blanks, line.toList = blanks ++ (cmd.toList ++ args) ∧ Stream.Blank blanks ∧
    Stream.IsWord cmd.toList ∧ Stops (!isSpace ·) args

theorem Begins.word {line cmd : String} {args : List Char} (h : Begins line cmd args) :
    Stream.word {rest := line.toList} =
      ({rest := args, eofbit := args.isEmpty}, some cmd.toList) := by
  obtain ⟨blanks, hline, hblanks, hcmd, hargs⟩ := h
  rw [hline, Stream.word_run hblanks hcmd hargs]

section Line
variable [Double P] {env : Env P} {line : String} {args : List Char}

theorem readCommand_add (h : Begins line "add" args) (cin : Stream) :
    readCommand env line cin =
      (some (handleAddCommand env {rest := args, eofbit := args.isEmpty}), cin) := by
  simp only [readCommand, h.word, textOf, Option.getD_some, String.ofList_toList, if_true]

theorem readCommand_search {cmd : String} (hcmd : cmd = "search" ∨ cmd = "s")
    (h : Begins line cmd args) (cin : Stream) :
    readCommand env line cin =
      (some (handleSearchCommand env {rest := args, eofbit := args.isEmpty}), cin) := by
  rcases hcmd with rfl | rfl <;>
    simp [readCommand, h.word, textOf]

/-! ### A line and its call -/

/-- What follows the command: a name, a description in quotes and a price. -/
def itemLine (name description : String) (price : Field) : String :=
  " " ++ name ++ " \"" ++ description ++ "\" " ++ String.ofList price.text

theorem itemLine_itemText {name description : String} {price : Field}
    (hname : Stream.IsWord name.toList) (hquote : '"' ∉ description.toList)
    (hnumeral : price.IsNumeral) :
    ItemText (itemLine name description price).toList name.toList description.toList price := by
  have hspace : Stream.Blank [' '] := by simp [Stream.Blank, isSpace]
  have hends : price.Ends [] := fun c hc => by cases hc
  refine ⟨hname, hnumeral, [' '], ' ', '"' :: (description.toList ++ ['"']), [' '], [], ?_, hspace,
    rfl, .quoted hquote, hspace, hends⟩
  simp [itemLine]

theorem begins_itemLine {cmd name description : String} {price : Field}
    (hcmd : Stream.IsWord cmd.toList) :
    Begins (cmd ++ itemLine name description price) cmd
      (itemLine name description price).toList := by
  refine ⟨[], by simp, Stream.blank_nil, hcmd, ?_⟩
  intro c hc
  obtain rfl : ' ' = c := by simpa [itemLine] using hc
  rfl

/-- The operands of a call, from a text that holds them. -/
theorem readItem_operands (env : Env P) {name description : String} {price : Field}
    (h : ItemText args name.toList description.toList price) :
    ∃ extracted, readItem {rest := args, eofbit := args.isEmpty} env.inRange =
        (some name.toList, some description.toList, extracted) ∧
      env.stored extracted = env.store price.value := by
  have hnotEmpty : args.isEmpty = false := by simpa using h.ne_nil
  refine ⟨_, by rw [hnotEmpty, readItem_itemText h], ?_⟩
  split
  · rfl
  · rfl

/-- **A name, a quoted description and a price go into the call as they were typed.** -/
theorem itemLine_roundTrip {name description : String} {price : Field}
    (hname : Stream.IsWord name.toList) (hquote : '"' ∉ description.toList)
    (hnumeral : price.IsNumeral) (c : P2PClient P) (cin : Stream) :
    processUserCommand env ("add" ++ itemLine name description price) c cin =
        (({c with inventory := c.inventory ++ [⟨name, description, env.store price.value⟩]}, none),
          cin) ∧
      (c.currentState = .registered → env.sent = true →
        processUserCommand env ("search" ++ itemLine name description price) c cin =
          (({c with nextRequestNumber := c.nextRequestNumber + 1, currentState := .searching},
            some (.lookingFor c.nextRequestNumber c.name name description
              (env.store price.value))), cin)) := by
  obtain ⟨extracted, hitem, hstored⟩ := readItem_operands env
    (itemLine_itemText hname hquote hnumeral)
  constructor
  · have hline : Begins ("add" ++ itemLine name description price) "add" _ :=
      begins_itemLine (by decide)
    simp only [processUserCommand, readCommand_add hline, handleAddCommand, hitem, textOf,
      Option.getD_some, String.ofList_toList, hstored, UserOp.run, P2PClient.addItem]
  · intro hstate hsent
    have hline : Begins ("search" ++ itemLine name description price) "search" _ :=
      begins_itemLine (by decide)
    simp only [processUserCommand, readCommand_search (.inl rfl) hline, handleSearchCommand, hitem,
      textOf, Option.getD_some, String.ofList_toList, hstored, UserOp.run, P2PClient.searchItem,
      P2PClient.request, hstate, hsent, OpResult.effect]
    rfl

end Line

def lampEnv : Env Rat :=
  {localIp := "127.0.0.1", sent := true,
   inRange := fun d => d < 2 ^ 1024 - 2 ^ 970 ∧ 2 ^ 970 - 2 ^ 1024 < d,
   store := id, number := 0, price := 77}

def seller : P2PClient Rat := .new ⟨"peer1", 5000, 5001⟩

/-- `12.50` -/
def lampPrice : Field := ⟨none, ⟨"12".toList, by simp⟩, some ⟨"50".toList, by simp⟩, none⟩

theorem itemLine_roundTrip_lamp :
    processUserCommand lampEnv ("add" ++ itemLine "lamp" "an old one" lampPrice) seller
        {rest := []} =
      (({seller with inventory := [⟨"lamp", "an old one", lampPrice.value⟩]}, none),
        {rest := []}) ∧
    processUserCommand lampEnv ("search" ++ itemLine "lamp" "an old one" lampPrice)
        {seller with currentState := .registered} {rest := []} =
      (({seller with nextRequestNumber := 2, currentState := .searching},
        some (.lookingFor 1 "peer1" "lamp" "an old one" lampPrice.value)), {rest := []}) := by
  have hname : Stream.IsWord "lamp".toList := by decide
  have hquote : '"' ∉ "an old one".toList := by decide
  have hnumeral : lampPrice.IsNumeral := by decide
  exact ⟨(itemLine_roundTrip hname hquote hnumeral seller {rest := []}).1,
    (itemLine_roundTrip hname hquote hnumeral {seller with currentState := .registered}
      {rest := []}).2 rfl rfl⟩

section Line
variable [Double P] {env : Env P} {line : String} {args : List Char}

/-! ### A line and no price -/

/-- The calls that take an item. -/
def UserOp.TakesItem : UserOp P → Prop
  | .addItem _ _ _ | .searchItem _ _ _ => True
  | _ => False

/-- The call for such a line is made only with a price that was read, and a line that is
not written with all three changes no inventory and sends no search. -/
structure Guarded (env : Env P) (line : String) (args : List Char) : Prop where
  called : ∀ {cin op}, (readCommand env line cin).1 = some op → op.TakesItem →
    ∃ name description price, readItem (Stream.word {rest := line.toList}).1 env.inRange =
      (some name, some description, .read price)
  quiet : (¬ ∃ name description price, ItemText args name description price) → ∀ c cin,
    (processUserCommand env line c cin).1.1.inventory = c.inventory ∧
      ∀ rq searcher itemName description maxPrice, (processUserCommand env line c cin).1.2 ≠
        some (.lookingFor rq searcher itemName description maxPrice)

/-- **The call is guarded on the lines that are written with all three and a price in
range**, and on no others: nothing looks at the stream before the call. -/
theorem guarded_iff {cmd : String} (hcmd : cmd = "add" ∨ cmd = "search" ∨ cmd = "s")
    (hline : Begins line cmd args) :
    Guarded env line args ↔ ∃ name description price, ItemText args name description price ∧
      env.inRange price.value = true := by
  constructor
  · intro h
    have hcalled : ∃ op, (readCommand env line {rest := []}).1 = some op ∧ op.TakesItem := by
      rcases hcmd with rfl | hsearch
      · exact ⟨_, congrArg Prod.fst (readCommand_add hline _), trivial⟩
      · exact ⟨_, congrArg Prod.fst (readCommand_search hsearch hline _), trivial⟩
    obtain ⟨op, hop, htakes⟩ := hcalled
    obtain ⟨_, _, price, hread⟩ := h.called hop htakes
    obtain ⟨-, hrange, name, description, htext⟩ :=
      readItem_read (congrArg (fun item => item.2.2) hread)
    rw [hline.word] at htext
    exact ⟨name, description, price, htext, hrange⟩
  · intro h
    obtain ⟨name, description, price, htext, hrange⟩ := h
    have hnotEmpty : args.isEmpty = false := by simpa using htext.ne_nil
    refine ⟨fun _ _ => ⟨name, description, price, ?_⟩,
      fun hnone => absurd ⟨name, description, price, htext⟩ hnone⟩
    rw [hline.word, hnotEmpty, readItem_itemText htext, if_pos hrange]

end Line

theorem guarded_iff_lamp :
    Guarded lampEnv ("add" ++ itemLine "lamp" "an old one" lampPrice)
      (itemLine "lamp" "an old one" lampPrice).toList := by
  have hname : Stream.IsWord "lamp".toList := by decide
  have hquote : '"' ∉ "an old one".toList := by decide
  have htext := itemLine_itemText hname hquote (show lampPrice.IsNumeral by decide)
  exact (guarded_iff (.inl rfl) (begins_itemLine (by decide))).mpr
    ⟨_, _, _, htext, by decide +kernel⟩

/-- A quote that is not closed: the price is never read, and the item is added at
whatever the variable held. -/
theorem unclosed_lamp_added :
    Begins "add lamp \"old 5" "add" " lamp \"old 5".toList ∧
      (processUserCommand lampEnv "add lamp \"old 5" seller {rest := []}).1.1.inventory =
        [⟨"lamp", "old 5", 77⟩] ∧
      ¬ Guarded lampEnv "add lamp \"old 5" " lamp \"old 5".toList := by
  have hadded : (processUserCommand lampEnv "add lamp \"old 5" seller {rest := []}).1.1.inventory =
      [⟨"lamp", "old 5", 77⟩] := by
    rfl
  have hstops : Stops (!isSpace ·) " lamp \"old 5".toList := by
    intro c hc
    obtain rfl : ' ' = c := Option.some.inj hc
    rfl
  refine ⟨⟨[], rfl, Stream.blank_nil, by decide, hstops⟩, hadded, fun h => ?_⟩
  have hnone : ¬ ∃ name description price,
      ItemText " lamp \"old 5".toList name description price := by
    intro hitem
    obtain ⟨name, description, price, htext⟩ := hitem
    have huntouched : (readItem {rest := " lamp \"old 5".toList} lampEnv.inRange).2.2 =
        .untouched := by
      rfl
    rw [readItem_itemText htext] at huntouched
    split at huntouched <;> cases huntouched
  rw [(h.quiet hnone seller {rest := []}).1] at hadded
  cases hadded

end P2PShopping
