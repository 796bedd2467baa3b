import P2PShopping.Client.CommandLine
import P2PShopping.Library.Lines

/-! `startCommandLoop`.

The loop and the prompts read one stream, and nothing resets its flags. A number that
is read takes up its line, and the loop goes on with the lines after it; text that is no
number leaves the stream failed, so the prompts after it read nothing and the loop finds
no further command (`commandLoop_processed`). The commands that a text holds are all
processed iff every prompt that one of them comes after gets its numbers
(`commands_processed_iff`). -/
namespace P2PShopping
open Numerals InputStream

variable {P : Type} [Double P]

/-! ### The loop -/

/-- What a round of the loop depends on besides the input: what the receive thread
handles before the command, and what becomes of the command's datagram and variables. -/
structure Round (P : Type) where
  received : List (Json P × Bool) := []
  sent : Bool
  number : Int32
  price : P

def Round.env (r : Round P) (env : Env P) : Env P :=
  {env with sent := r.sent, number := r.number, price := r.price}

/-- The receive thread handles these messages. -/
def P2PClient.receiveAll (c : P2PClient P) (messages : List (Json P × Bool)) : P2PClient P :=
  messages.foldl (fun c m => (c.handleReceivedMessage m.1 m.2).1) c

/-- The client the loop leaves, and the commands it has processed with the datagrams
they sent. `fuel` bounds the rounds. -/
def commandLoop (env : Env P) :
    Nat → (Nat → Round P) → P2PClient P → Stream →
      P2PClient P × List (String × Option (ClientMessage P))
  | 0, _, c, _ => (c, [])
  | fuel + 1, rounds, c, cin =>
    if c.running then
      let (cin, line) := cin.getline '\n'
      if cin.failbit then (c, [])
      else
        let c := c.receiveAll (rounds 0).received
        let later := fun n => rounds (n + 1)
        let command := textOf line
        if command = "" then commandLoop env fuel later c cin
        else
          let ((c, datagram), cin) := processUserCommand ((rounds 0).env env) command c cin
          let (c, log) := commandLoop env fuel later c cin
          (c, (command, datagram) :: log)
    else (c, [])

/-- Every round takes off a line, so there are no more rounds than characters, and one. -/
def startCommandLoop (env : Env P) (rounds : Nat → Round P) (c : P2PClient P) (cin : Stream) :
    P2PClient P × List (String × Option (ClientMessage P)) :=
  commandLoop env (cin.rest.length + 1) rounds c cin

/-- The commands of the log. -/
def processedCommands (r : P2PClient P × List (String × Option (ClientMessage P))) : List String :=
  r.2.map Prod.fst

/-! ### What is typed -/

/-- The first word of a line. -/
def commandWord (command : String) : String := textOf (Stream.word {rest := command.toList}).2

/-- The commands that prompt for a number, a name and a price. -/
def Prompts (command : String) : Prop :=
  commandWord command ∈ ["negotiate", "n", "accept", "a", "refuse", "f"]

def Quits (command : String) : Prop := commandWord command ∈ ["quit", "q"]

instance (command : String) : Decidable (Prompts command) :=
  inferInstanceAs (Decidable (_ ∈ _))

instance (command : String) : Decidable (Quits command) :=
  inferInstanceAs (Decidable (_ ∈ _))

/-- A command line, with the lines that answer its prompts for numbers. -/
structure Turn where
  command : String
  answers : Option (List Char × List Char) := none

/-- The turn of a command and the text after it. An answer is the next line that is not
blank, whatever it says, and a name is the next line. -/
def nextTurn (command : String) (rest : List Char) : Turn × List Char :=
  if Prompts command then
    let (number, rest) := answerLine rest
    let (_, rest) := firstLine rest
    let (price, rest) := answerLine rest
    ({command, answers := some (number, price)}, rest)
  else ({command}, rest)

/-- The turns of a text, up to the first quit. -/
def turns : Nat → List Char → List Turn
  | 0, _ => []
  | _ + 1, [] => []
  | fuel + 1, text =>
    let (line, rest) := firstLine text
    let command := String.ofList line
    if Quits command then [{command}]
    else
      let next := nextTurn command rest
      next.1 :: turns fuel next.2

def typedTurns (text : List Char) : List Turn := turns text.length text

/-- The command lines that are not empty. -/
def commandLines (ts : List Turn) : List String := (ts.map Turn.command).filter (· ≠ "")

/-- The prompts for numbers get numbers. -/
def Turn.Answered (inRange : Rat → Bool) (t : Turn) : Prop :=
  ∀ number price, t.answers = some (number, price) →
    StartsInt number ∧ StartsDecimal inRange price

/-- Every prompt that another command comes after gets its numbers. -/
def AllAnswered (inRange : Rat → Bool) (ts : List Turn) : Prop :=
  ∀ front t back, ts = front ++ t :: back → (∃ u ∈ back, u.command ≠ "") → t.Answered inRange

/-! ### One round -/

section Round
variable (env : Env P) (command : String) (cin : Stream)

omit [Double P] in
theorem request_running (c : P2PClient P) (required next : P2PStateType)
    (message : Int32 → ClientMessage P) (sent : Bool) :
    (c.request required next message sent).client.running = c.running := by
  obtain ⟨rq, state, hclient⟩ := c.request_frame required next message sent
  rw [hclient]

omit [Double P] in
theorem answerOffer_running (c : P2PClient P) (requestNumber : Int32) (agrees : Offer P → Bool)
    (next : P2PStateType) (message : ClientMessage P) (sent : Bool) :
    (c.answerOffer requestNumber agrees next message sent).client.running = c.running := by
  obtain ⟨offers, state, hclient⟩ := c.answerOffer_frame requestNumber agrees next message sent
  rw [hclient]

/-- Only quitting stops the loop. -/
theorem run_running (op : UserOp P) (c : P2PClient P) (sent : Bool) :
    (op.run c sent).1.running =
      match op with
      | .quit => false
      | _ => c.running := by
  cases op with
  | registerWithServer localIp => exact request_running c _ _ _ sent
  | deregister => exact request_running c _ _ _ sent
  | searchItem itemName description maxPrice => exact request_running c _ _ _ sent
  | negotiateOffer rq itemName counterPrice =>
    simp only [UserOp.run, P2PClient.negotiateOffer]
    split
    · rfl
    · exact answerOffer_running c _ _ _ _ sent
  | acceptOffer rq itemName price => exact answerOffer_running c _ _ _ _ sent
  | refuseOffer rq itemName price => exact answerOffer_running c _ _ _ _ sent
  | addItem name description price => rfl
  | removeItem name => rfl
  | quit => rfl

theorem receiveAll_running (messages : List (Json P × Bool)) (c : P2PClient P) :
    (c.receiveAll messages).running = c.running := by
  induction messages generalizing c with
  | nil => rfl
  | cons m messages ih =>
    obtain ⟨offers, state, hclient⟩ := c.receive_frame m.1 m.2
    have hfirst : (c.handleReceivedMessage m.1 m.2).1.running = c.running := by rw [hclient]
    exact (ih _).trans hfirst

/-- Only the prompts read the input. -/
theorem readCommand_cin :
    (readCommand env command cin).2 =
      if Prompts command then (readAnswer env cin).2 else cin := by
  have hprompts : Prompts command ↔
      (commandWord command = "negotiate" ∨ commandWord command = "n") ∨
      (commandWord command = "accept" ∨ commandWord command = "a") ∨
      (commandWord command = "refuse" ∨ commandWord command = "f") := by
    simp [Prompts, or_assoc]
  generalize hcmd : commandWord command = cmd at hprompts
  rw [commandWord] at hcmd
  simp only [readCommand, hcmd, handleNegotiateCommand, handleAcceptCommand, handleRefuseCommand,
    apply_ite Prod.snd, hprompts]
  by_cases hprompt : (cmd = "negotiate" ∨ cmd = "n") ∨ (cmd = "accept" ∨ cmd = "a") ∨
      (cmd = "refuse" ∨ cmd = "f")
  · rcases hprompt with (rfl | rfl) | (rfl | rfl) | rfl | rfl <;> simp
  · obtain ⟨hnegotiate, hrest⟩ := not_or.mp hprompt
    obtain ⟨haccept, hrefuse⟩ := not_or.mp hrest
    simp only [if_neg hnegotiate, if_neg haccept, if_neg hrefuse, if_neg hprompt, ite_self]

/-- `quit` is called by its words. -/
theorem readCommand_quit : (readCommand env command cin).1 = some .quit ↔ Quits command := by
  have hquits : Quits command ↔ commandWord command = "quit" ∨ commandWord command = "q" := by
    simp [Quits]
  generalize hcmd : commandWord command = cmd at hquits
  rw [commandWord] at hcmd
  simp only [readCommand, hcmd, handleAddCommand, handleSearchCommand, handleNegotiateCommand,
    handleAcceptCommand, handleRefuseCommand, apply_ite Prod.fst, hquits]
  by_cases hquit : cmd = "quit" ∨ cmd = "q"
  · rcases hquit with rfl | rfl <;> simp
  · simp only [hquit, if_false, apply_ite (· = some UserOp.quit), Option.some.injEq, reduceCtorEq,
      ite_self]

theorem processUserCommand_cin (c : P2PClient P) :
    (processUserCommand env command c cin).2 =
      if Prompts command then (readAnswer env cin).2 else cin := by
  rw [← readCommand_cin]
  unfold processUserCommand
  split
  case h_1 hread => rw [hread]
  case h_2 hread => rw [hread]

theorem processUserCommand_running (c : P2PClient P) :
    (processUserCommand env command c cin).1.1.running =
      if Quits command then false else c.running := by
  have hquit := readCommand_quit env command cin
  unfold processUserCommand
  split
  case h_1 op cin' hread =>
    rw [hread, Option.some.injEq] at hquit
    simp only [run_running]
    cases op with
    | quit => rw [if_pos (hquit.mp rfl)]
    | _ => rw [if_neg (hquit.not.mp (by simp))]
  case h_2 cin' hread =>
    rw [hread] at hquit
    rw [if_neg (hquit.not.mp (by simp))]

end Round

/-! ### What a turn leaves -/

section Turn
variable {env : Env P} {cin : Stream} {rest : List Char} {command : String}

theorem readAnswer_cin :
    (readAnswer env cin).2 =
      (((cin.int.1.ignore '\n').getline '\n').1.double env.inRange).1.ignore '\n' := by
  rfl

/-- The prompts read the lines of two numbers and of a name, -/
theorem readAnswer_at (h : Stream.At cin rest)
    (hnumber : StartsInt (answerLine rest).1)
    (hprice : StartsDecimal env.inRange (answerLine (firstLine (answerLine rest).2).2).1) :
    Stream.At (readAnswer env cin).2 (answerLine (firstLine (answerLine rest).2).2).2 :=
  (h.int_line hnumber).getline.double_line hprice

/-- and read nothing more after a text that is no number. -/
theorem readAnswer_dead (h : Stream.At cin rest)
    (hbad : ¬ (StartsInt (answerLine rest).1 ∧
      StartsDecimal env.inRange (answerLine (firstLine (answerLine rest).2).2).1)) :
    (readAnswer env cin).2.good = false := by
  have hlast : ∀ s : Stream, s.good = false → (s.ignore '\n').good = false := by
    intro s hs
    rw [Stream.ignore_dead hs, Stream.good_failed]
  rw [readAnswer_cin]
  apply hlast
  by_cases hnumber : StartsInt (answerLine rest).1
  · exact (h.int_line hnumber).getline.double_dead fun hprice => hbad ⟨hnumber, hprice⟩
  · have hignored := hlast _ (h.int_dead hnumber)
    rw [Stream.getline_dead hignored, Stream.double_dead (Stream.good_failed _), Stream.good_failed]

theorem answered_of_no_answers {inRange : Rat → Bool} {t : Turn} (h : t.answers = none) :
    t.Answered inRange := by
  intro number price hanswers
  rw [h] at hanswers
  cases hanswers

theorem answered_iff {inRange : Rat → Bool} {number price : List Char} :
    Turn.Answered inRange {command, answers := some (number, price)} ↔
      StartsInt number ∧ StartsDecimal inRange price := by
  constructor
  · intro h
    exact h number price rfl
  · intro h number' price' hanswers
    cases hanswers
    exact h

theorem nextTurn_plain (h : ¬ Prompts command) : nextTurn command rest = ({command}, rest) := by
  rw [nextTurn, if_neg h]

theorem nextTurn_prompts (h : Prompts command) :
    nextTurn command rest =
      ({command, answers := some ((answerLine rest).1,
          (answerLine (firstLine (answerLine rest).2).2).1)},
        (answerLine (firstLine (answerLine rest).2).2).2) := by
  rw [nextTurn, if_pos h]

theorem nextTurn_command (command : String) (rest : List Char) :
    (nextTurn command rest).1.command = command := by
  by_cases h : Prompts command
  · rw [nextTurn_prompts h]
  · rw [nextTurn_plain h]

theorem nextTurn_length (command : String) (rest : List Char) :
    (nextTurn command rest).2.length ≤ rest.length := by
  by_cases h : Prompts command
  · rw [nextTurn_prompts h]
    calc (answerLine (firstLine (answerLine rest).2).2).2.length
        ≤ (firstLine (answerLine rest).2).2.length := answerLine_length _
      _ ≤ (answerLine rest).2.length := firstLine_length _
      _ ≤ rest.length := answerLine_length _
  · rw [nextTurn_plain h]

/-- A turn whose numbers are numbers leaves the lines after it, -/
theorem processUserCommand_at (env : Env P) (c : P2PClient P) (h : Stream.At cin rest)
    (hanswered : (nextTurn command rest).1.Answered env.inRange) :
    Stream.At (processUserCommand env command c cin).2 (nextTurn command rest).2 := by
  rw [processUserCommand_cin]
  by_cases hprompts : Prompts command
  · rw [nextTurn_prompts hprompts, answered_iff] at hanswered
    rw [if_pos hprompts, nextTurn_prompts hprompts]
    exact readAnswer_at h hanswered.1 hanswered.2
  · rw [if_neg hprompts, nextTurn_plain hprompts]
    exact h

/-- and any other one leaves a stream that has failed. -/
theorem processUserCommand_dead (env : Env P) (c : P2PClient P) (h : Stream.At cin rest)
    (hbad : ¬ (nextTurn command rest).1.Answered env.inRange) :
    (processUserCommand env command c cin).2.good = false := by
  rw [processUserCommand_cin]
  by_cases hprompts : Prompts command
  · rw [nextTurn_prompts hprompts, answered_iff] at hbad
    rw [if_pos hprompts]
    exact readAnswer_dead h hbad
  · rw [nextTurn_plain hprompts] at hbad
    exact absurd (answered_of_no_answers rfl) hbad

end Turn

/-! ### Rounds of the loop -/

section Loop
variable {env : Env P} {rounds : Nat → Round P} {c : P2PClient P} {cin : Stream} {fuel : Nat}
  {text : List Char}

theorem commandLoop_stopped (h : c.running = false) :
    commandLoop env fuel rounds c cin = (c, []) := by
  cases fuel with
  | zero => rfl
  | succ fuel => simp [commandLoop, h]

/-- Nothing is read from a stream that has failed. -/
theorem commandLoop_dead (h : cin.good = false) :
    commandLoop env fuel rounds c cin = (c, []) := by
  cases fuel with
  | zero => rfl
  | succ fuel => simp [commandLoop, Stream.getline_dead h]

theorem commandLoop_end (h : Stream.At cin []) :
    commandLoop env fuel rounds c cin = (c, []) := by
  rcases h with rfl | ⟨hdead, -⟩
  · cases fuel with
    | zero => rfl
    | succ fuel => simp [commandLoop, Stream.getline, Stream.sentryRaw]
  · exact commandLoop_dead hdead

theorem commandLoop_line (hrunning : c.running = true) (htext : text ≠ []) :
    commandLoop env (fuel + 1) rounds c {rest := text} =
      let cin := (Stream.getline {rest := text} '\n').1
      let c := c.receiveAll (rounds 0).received
      let later := fun n => rounds (n + 1)
      let command := String.ofList (firstLine text).1
      if command = "" then commandLoop env fuel later c cin
      else
        let r := processUserCommand ((rounds 0).env env) command c cin
        let next := commandLoop env fuel later r.1.1 r.2
        (next.1, (command, r.1.2) :: next.2) := by
  obtain ⟨hfailbit, hline⟩ := Stream.getline_line htext
  simp only [commandLoop, hrunning, if_true, hfailbit, hline, textOf, Option.getD_some,
    Bool.false_eq_true, if_false]

/-- Rounds beyond the characters of the text change nothing. -/
theorem commandLoop_fuel {fuel₁ fuel₂ : Nat} (hat : Stream.At cin text)
    (h₁ : text.length ≤ fuel₁) (h₂ : text.length ≤ fuel₂) :
    commandLoop env (fuel₁ + 1) rounds c cin = commandLoop env (fuel₂ + 1) rounds c cin := by
  induction fuel₁ generalizing text cin rounds c fuel₂ with
  | zero =>
    obtain rfl : text = [] := List.length_eq_zero_iff.mp (Nat.le_zero.mp h₁)
    rw [commandLoop_end hat, commandLoop_end hat]
  | succ fuel₁ ih =>
    cases hrunning : c.running with
    | false => rw [commandLoop_stopped hrunning, commandLoop_stopped hrunning]
    | true =>
      by_cases htext : text = []
      · subst htext
        rw [commandLoop_end hat, commandLoop_end hat]
      obtain rfl : cin = {rest := text} := hat.resolve_right fun h => htext h.2
      have hrest := (Stream.at_start text).getline
      have hshorter := firstLine_length_lt htext
      obtain ⟨fuel₂, rfl⟩ := Nat.exists_eq_succ_of_ne_zero (show fuel₂ ≠ 0 by omega)
      rw [commandLoop_line hrunning htext, commandLoop_line hrunning htext]
      generalize String.ofList (firstLine text).1 = command
      simp only
      by_cases hempty : command = ""
      · rw [if_pos hempty, if_pos hempty]
        exact ih hrest (by omega) (by omega)
      · rw [if_neg hempty, if_neg hempty]
        have hlength := nextTurn_length command (firstLine text).2
        by_cases hanswered : (nextTurn command (firstLine text).2).1.Answered env.inRange
        · have hnext := processUserCommand_at ((rounds 0).env env)
            (c.receiveAll (rounds 0).received) hrest hanswered
          have hsame : ∀ rounds' c', commandLoop env (fuel₁ + 1) rounds' c' _ =
              commandLoop env (fuel₂ + 1) rounds' c' _ :=
            fun _ _ => ih hnext (by omega) (by omega)
          rw [hsame]
        · have hdead := processUserCommand_dead ((rounds 0).env env)
            (c.receiveAll (rounds 0).received) hrest hanswered
          rw [commandLoop_dead hdead, commandLoop_dead hdead]

end Loop

/-! ### The turns that are heard -/

theorem turns_line {fuel : Nat} {text : List Char} (htext : text ≠ []) :
    turns (fuel + 1) text =
      let command := String.ofList (firstLine text).1
      let next := nextTurn command (firstLine text).2
      if Quits command then [{command}] else next.1 :: turns fuel next.2 := by
  cases text with
  | nil => exact absurd rfl htext
  | cons a text => rfl

theorem commandLines_cons (t : Turn) (ts : List Turn) :
    commandLines (t :: ts) =
      if t.command = "" then commandLines ts else t.command :: commandLines ts := by
  by_cases hempty : t.command = "" <;> simp [commandLines, hempty]

theorem commandLines_eq_nil_iff {ts : List Turn} :
    commandLines ts = [] ↔ ¬ ∃ u ∈ ts, u.command ≠ "" := by
  simp [commandLines]

open Classical in
/-- The turns up to the first whose prompts get no number. -/
noncomputable def heard (inRange : Rat → Bool) : List Turn → List Turn
  | [] => []
  | t :: ts => if t.Answered inRange then t :: heard inRange ts else [t]

section Heard
variable {inRange : Rat → Bool} {t : Turn} {ts : List Turn}

theorem heard_answered (h : t.Answered inRange) :
    heard inRange (t :: ts) = t :: heard inRange ts := by
  rw [heard, if_pos h]

theorem heard_last (h : ¬ t.Answered inRange) : heard inRange (t :: ts) = [t] := by
  rw [heard, if_neg h]

theorem allAnswered_nil : AllAnswered inRange [] := by
  intro front t back hts
  cases front <;> cases hts

theorem allAnswered_cons :
    AllAnswered inRange (t :: ts) ↔
      ((∃ u ∈ ts, u.command ≠ "") → t.Answered inRange) ∧ AllAnswered inRange ts := by
  constructor
  · intro h
    exact ⟨h [] t ts rfl, fun front u back hts => h (t :: front) u back (by rw [hts]; rfl)⟩
  · intro h front u back hts hlater
    obtain ⟨hfirst, hrest⟩ := h
    cases front with
    | nil =>
      obtain ⟨rfl, rfl⟩ := List.cons.inj hts
      exact hfirst hlater
    | cons x front =>
      obtain ⟨-, rfl⟩ := List.cons.inj hts
      exact hrest front u back rfl hlater

/-- After a prompt that gets no number there must be no command. -/
theorem allAnswered_last (hbad : ¬ t.Answered inRange) :
    AllAnswered inRange (t :: ts) ↔ commandLines ts = [] := by
  rw [allAnswered_cons, commandLines_eq_nil_iff]
  constructor
  · intro h hlater
    exact hbad (h.1 hlater)
  · intro hnone
    refine ⟨fun hlater => absurd hlater hnone, fun front u back hts hlater => ?_⟩
    obtain ⟨v, hv, hcommand⟩ := hlater
    exact absurd ⟨v, by simp [hts, hv], hcommand⟩ hnone

/-- All commands are among the turns that are heard iff every prompt that one comes after
gets its numbers. -/
theorem heard_iff (ts : List Turn) :
    commandLines (heard inRange ts) = commandLines ts ↔ AllAnswered inRange ts := by
  induction ts with
  | nil => exact iff_of_true rfl allAnswered_nil
  | cons t ts ih =>
    by_cases hanswered : t.Answered inRange
    · rw [heard_answered hanswered, allAnswered_cons, ← ih, commandLines_cons, commandLines_cons]
      split <;> simp [hanswered]
    · rw [heard_last hanswered, allAnswered_last hanswered, commandLines_cons, commandLines_cons]
      split
      · exact eq_comm
      · exact (List.cons_inj_right _).trans eq_comm

end Heard

/-! ### The whole loop -/

section Run
variable {env : Env P} {rounds : Nat → Round P} {c : P2PClient P} {cin : Stream} {text : List Char}
  {fuel : Nat}

theorem processedCommands_line (hrunning : c.running = true) (htext : text ≠ []) :
    processedCommands (commandLoop env (fuel + 1) rounds c {rest := text}) =
      let cin := (Stream.getline {rest := text} '\n').1
      let c := c.receiveAll (rounds 0).received
      let later := fun n => rounds (n + 1)
      let command := String.ofList (firstLine text).1
      if command = "" then processedCommands (commandLoop env fuel later c cin)
      else
        let r := processUserCommand ((rounds 0).env env) command c cin
        command :: processedCommands (commandLoop env fuel later r.1.1 r.2) := by
  rw [commandLoop_line hrunning htext]
  simp only [processedCommands]
  split
  · rfl
  · rfl

theorem Quits.ne_empty {command : String} (h : Quits command) : command ≠ "" := by
  intro hempty
  subst hempty
  revert h
  decide

theorem Prompts.ne_empty {command : String} (h : Prompts command) : command ≠ "" := by
  intro hempty
  subst hempty
  revert h
  decide

/-- **The loop processes the commands of the turns that are heard**, by induction on its
rounds. -/
theorem commandLoop_processed (hat : Stream.At cin text) (hfuel : text.length ≤ fuel)
    (hrunning : c.running = true) :
    processedCommands (commandLoop env (fuel + 1) rounds c cin) =
      commandLines (heard env.inRange (turns fuel text)) := by
  induction fuel generalizing text cin rounds c with
  | zero =>
    obtain rfl : text = [] := List.length_eq_zero_iff.mp (Nat.le_zero.mp hfuel)
    rw [commandLoop_end hat]
    rfl
  | succ fuel ih =>
    by_cases htext : text = []
    · subst htext
      rw [commandLoop_end hat]
      rfl
    obtain rfl : cin = {rest := text} := hat.resolve_right fun h => htext h.2
    have hrest := (Stream.at_start text).getline
    have hshorter := firstLine_length_lt htext
    have hreceived := (receiveAll_running (rounds 0).received c).trans hrunning
    rw [processedCommands_line hrunning htext, turns_line htext]
    generalize String.ofList (firstLine text).1 = command
    generalize c.receiveAll (rounds 0).received = c at *
    have hlength := nextTurn_length command (firstLine text).2
    have hcommand := nextTurn_command command (firstLine text).2
    have hkept := processUserCommand_running ((rounds 0).env env) command
      (Stream.getline {rest := text} '\n').1 c
    simp only
    by_cases hempty : command = ""
    · -- the loop passes over the line, and the turn is no command
      subst hempty
      rw [if_pos rfl, if_neg fun h => h.ne_empty rfl, nextTurn_plain fun h => h.ne_empty rfl,
        heard_answered (answered_of_no_answers rfl), commandLines_cons, if_pos rfl]
      have hfewer : (firstLine text).2.length ≤ fuel := by omega
      exact ih hrest hfewer hreceived
    rw [if_neg hempty]
    by_cases hquits : Quits command
    · rw [if_pos hquits] at hkept
      rw [if_pos hquits, commandLoop_stopped hkept, heard_answered (answered_of_no_answers rfl),
        commandLines_cons, if_neg hempty]
      rfl
    rw [if_neg hquits] at hkept
    rw [if_neg hquits]
    by_cases hanswered : (nextTurn command (firstLine text).2).1.Answered env.inRange
    · have hnext := processUserCommand_at ((rounds 0).env env) c hrest hanswered
      rw [heard_answered hanswered, commandLines_cons, hcommand, if_neg hempty,
        ih hnext (by omega) (hkept.trans hreceived)]
    · have hdead := processUserCommand_dead ((rounds 0).env env) c hrest hanswered
      rw [heard_last hanswered, commandLines_cons, hcommand, if_neg hempty, commandLoop_dead hdead]
      rfl

/-- Rounds beyond those change nothing. -/
theorem startCommandLoop_fuel (env : Env P) (rounds : Nat → Round P) (c : P2PClient P)
    (hfuel : text.length < fuel) :
    commandLoop env fuel rounds c {rest := text} =
      startCommandLoop env rounds c {rest := text} := by
  obtain ⟨fuel, rfl⟩ := Nat.exists_eq_succ_of_ne_zero (Nat.ne_zero_of_lt hfuel)
  exact commandLoop_fuel (Stream.at_start text) (Nat.le_of_lt_succ hfuel) le_rfl

/-- **The commands that a text holds are all processed iff every prompt for a number that
another of them comes after gets one.** -/
theorem commands_processed_iff (env : Env P) (rounds : Nat → Round P) (c : P2PClient P)
    (text : List Char) :
    processedCommands (startCommandLoop env rounds c.start {rest := text}) =
        commandLines (typedTurns text) ↔
      AllAnswered env.inRange (typedTurns text) := by
  have hstarted : c.start.running = true := rfl
  rw [startCommandLoop, commandLoop_processed (Stream.at_start text) le_rfl hstarted]
  exact heard_iff _

end Run

/-- `soon` is no number: the loop ends there, and the client is still registered. -/
theorem quit_after_soon :
    let typed := "negotiate\nsoon\nlamp\n6\nquit\n".toList
    let c := {seller with currentState := .registered}
    let rounds := fun _ => {sent := true, number := 0, price := 77}
    let r := startCommandLoop lampEnv rounds c.start {rest := typed}
    commandLines (typedTurns typed) = ["negotiate", "quit"] ∧ processedCommands r = ["negotiate"] ∧
      r.1.currentState = .registered := by
  refine ⟨?_, ?_, ?_⟩
  · decide +kernel
  · decide +kernel
  · decide +kernel

end P2PShopping
