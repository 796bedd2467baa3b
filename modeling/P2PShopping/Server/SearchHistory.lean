import P2PShopping.Server.Searches

/-! What a timer says, from what was handled before it.

The handlers that touch the store are called here one after another on messages of
any kind, from any addresses, at any times, and timers fire for any numbers. A
call that completes moves the store as its event says (`call_event`), so the
message of a timer is the verdict on the search that the history leaves open. -/
namespace P2PShopping
open Collections Json Handler Runs

variable {P : Type} [Double P]

/-- A handler of the search store, called on a message and a time. -/
inductive SearchCall (P : Type) where
  | lookingFor (msg : Json P) (clientAddr : SockaddrIn) (now : Int)
  | offer (msg : Json P) (clientAddr : SockaddrIn) (now : Int)
  | timer (rq : Int32)

def SearchCall.run : SearchCall P → Handler P Unit
  | .lookingFor msg clientAddr now => do
    modify ({· with clock := now})
    handleLookingFor msg clientAddr
  | .offer msg clientAddr now => do
    modify ({· with clock := now})
    handleOffer msg clientAddr
  | .timer rq => modify (processOffersAfterTimeout rq)

variable (P) in
/-- Completed calls, each with what it sent. -/
def searchMachine : Machine (Server P) (SearchCall P) (Sent P) where
  step s call :=
    match call.run {s with outbox := []} with
    | .ok _ s' => some s'.flush
    | .error _ _ => none

/-- The conversions at the head of `handleLookingFor`. -/
def readLookingFor (msg : Json P) (clientAddr : SockaddrIn) (now : Int) :
    Except Fault (LookingFor P) := do
  let rq ← getInt (← msg.index "rq")
  let item ← getString (← msg.index "item_name")
  let maxPrice ← getDouble (← msg.index "max_price")
  let name ← getString (← msg.index "name")
  return {rq, name, item, maxPrice, addr := clientAddr, now}

/-- The conversions at the head of `handleOffer`: the number and the offer. -/
def readOffer (msg : Json P) (clientAddr : SockaddrIn) : Except Fault (Int32 × OfferInfo P) := do
  let rq ← getInt (← msg.index "rq")
  let name ← getString (← msg.index "name")
  let _item ← getString (← msg.index "item_name")
  let price ← getDouble (← msg.index "price")
  return (rq, ⟨name, price, clientAddr⟩)

/-- The event a completed call is. -/
def SearchCall.event? : SearchCall P → Option (StoreEvent P)
  | .lookingFor msg clientAddr now =>
    (readLookingFor msg clientAddr now).toOption.map .lookingFor
  | .offer msg clientAddr now =>
    (readOffer msg clientAddr).toOption.map fun r => .offer r.1 now r.2
  | .timer rq => some (.timer rq)

def history (tr : List (SearchCall P × Sent P)) : List (StoreEvent P) :=
  tr.filterMap fun call => call.1.event?

theorem readLookingFor_of_reads {msg : Json P} {addr : SockaddrIn} {now : Int} {rq : Int32}
    {name item : String} {maxPrice : P} (hrq : msg.Reads getInt "rq" rq)
    (hname : msg.Reads getString "name" name) (hitem : msg.Reads getString "item_name" item)
    (hmax : msg.Reads getDouble "max_price" maxPrice) :
    readLookingFor msg addr now = .ok ⟨rq, name, item, maxPrice, addr, now⟩ := by
  obtain ⟨_, hrq, hrq'⟩ := hrq
  obtain ⟨_, hname, hname'⟩ := hname
  obtain ⟨_, hitem, hitem'⟩ := hitem
  obtain ⟨_, hmax, hmax'⟩ := hmax
  simp [readLookingFor, hrq, hrq', hname, hname', hitem, hitem', hmax, hmax']

theorem readOffer_of_reads {msg : Json P} {addr : SockaddrIn} {rq : Int32} {name item : String}
    {price : P} (hrq : msg.Reads getInt "rq" rq) (hname : msg.Reads getString "name" name)
    (hitem : msg.Reads getString "item_name" item) (hprice : msg.Reads getDouble "price" price) :
    readOffer msg addr = .ok (rq, ⟨name, price, addr⟩) := by
  obtain ⟨_, hrq, hrq'⟩ := hrq
  obtain ⟨_, hname, hname'⟩ := hname
  obtain ⟨_, hitem, hitem'⟩ := hitem
  obtain ⟨_, hprice, hprice'⟩ := hprice
  simp [readOffer, hrq, hrq', hname, hname', hitem, hitem', hprice, hprice']

/-- A completed call is one event, and moves the store as the event says. -/
theorem call_event {s s' : Server P} {call : SearchCall P} {sent : Sent P}
    (h : (searchMachine P).step s call = some (s', sent)) :
    ∃ e, call.event? = some e ∧ s'.activeSearches = e.apply s.activeSearches := by
  simp only [searchMachine] at h
  split at h
  case h_2 => cases h
  case h_1 s₁ hrun =>
  cases h
  cases call with
  | lookingFor msg addr now =>
    obtain ⟨_, _, hclock, hhandler⟩ := bind_ok.mp hrun
    obtain rfl := modify_ok.mp hclock
    obtain ⟨rq, name, item, maxPrice, description, hrq, hname, hitem, hmax, -, rfl⟩ :=
      handleLookingFor_ok hhandler
    exact ⟨.lookingFor ⟨rq, name, item, maxPrice, addr, now⟩,
      by simp [SearchCall.event?, readLookingFor_of_reads hrq hname hitem hmax, Except.toOption],
      rfl⟩
  | offer msg addr now =>
    obtain ⟨_, _, hclock, hhandler⟩ := bind_ok.mp hrun
    obtain rfl := modify_ok.mp hclock
    obtain ⟨rq, name, item, price, hrq, hname, hitem, hprice, rfl⟩ := handleOffer_ok hhandler
    refine ⟨.offer rq now ⟨name, price, addr⟩,
      by simp [SearchCall.event?, readOffer_of_reads hrq hname hitem hprice, Except.toOption], ?_⟩
    rw [recordOffer_eq]
  | timer rq =>
    rw [modify_ok.mp hrun, processOffersAfterTimeout_eq]
    exact ⟨_, rfl, rfl⟩

/-- What a timer sends, from the store it finds. -/
theorem timer_step {s s' : Server P} {rq : Int32} {sent : Sent P}
    (h : (searchMachine P).step s (.timer rq) = some (s', sent)) :
    sent = ((pending s.activeSearches rq).map verdict).toList := by
  have hstep : (processOffersAfterTimeout rq {s with outbox := []}).flush = (s', sent) :=
    Option.some.inj h
  rw [processOffersAfterTimeout_eq] at hstep
  exact (Prod.mk.inj hstep).2.symm

/-- After any run from an empty store, the store is the one of the history. -/
theorem run_store {s₀ s : Server P} {tr : List (SearchCall P × Sent P)}
    (h₀ : s₀.activeSearches = ∅) (h : Run (searchMachine P) s₀ tr s) :
    s.activeSearches = store (history tr) := by
  refine h.invariant (fun tr s => s.activeSearches = store (history tr)) h₀ ?_
  intro tr s call s' sent _ ih hstep
  obtain ⟨e, he, happly⟩ := call_event hstep
  have hsnoc : history (tr ++ [(call, sent)]) = history tr ++ [e] := by
    simp [history, he]
  rw [hsnoc, store_snoc, ← ih, happly]

/-- **A timer speaks about the search that its history leaves open, or not at all.**
It sends a message iff the last LOOKING_FOR of its number has seen no timer yet;
then it sends one, the verdict on that search and on the offers made to it. -/
theorem timer_sends {s₀ s : Server P} {tr : List (SearchCall P × Sent P)} {rq : Int32}
    {sent : Sent P} (h₀ : s₀.activeSearches = ∅)
    (h : Run (searchMachine P) s₀ (tr ++ [(.timer rq, sent)]) s) :
    (sent ≠ [] ↔ ∃ L O, OpenSearch (history tr) L O ∧ L.rq = rq) ∧
      ∀ L O, OpenSearch (history tr) L O → L.rq = rq → ∃ m, sent = [m] ∧ Verdict L O m := by
  obtain ⟨s₁, hrun, hstep⟩ := h.last
  have hsent : sent = ((pending (store (history tr)) rq).map verdict).toList := by
    rw [← run_store h₀ hrun]
    exact timer_step hstep
  constructor
  · rw [hsent]
    constructor
    · intro hne
      cases hp : pending (store (history tr)) rq with
      | none => simp [hp] at hne
      | some search =>
        obtain ⟨L, O, hopen, hrq, -⟩ := (pending_history _ _ _).mp hp
        exact ⟨L, O, hopen, hrq⟩
    · intro hopen
      obtain ⟨L, O, hopen, hrq⟩ := hopen
      rw [(pending_history _ _ _).mpr ⟨L, O, hopen, hrq, rfl⟩]
      simp
  · intro L O hopen hrq
    rw [(pending_history _ rq _).mpr ⟨L, O, hopen, hrq, rfl⟩] at hsent
    exact ⟨_, hsent, verdict_spec L O⟩

/-- A search, one offer for it, one for another number, and its timer. -/
def lampCalls : List (SearchCall Rat) :=
  [.lookingFor (ClientMessage.lookingFor 1 "peer1" "lamp" "old" 10).toJson (loopback 5001) 0,
   .offer (ClientMessage.offer 1 "peer2" "lamp" 8).toJson (loopback 5002) 7,
   .offer (ClientMessage.offer 2 "peer2" "lamp" 5).toJson (loopback 5002) 9]

theorem timer_sends_lamp : ∃ m,
    [((ServerMessage.found 1 "lamp" 8 : ServerMessage Rat), loopback 5001)] = [m] ∧
      Verdict (P := Rat) ⟨1, "peer1", "lamp", 10, loopback 5001, 0⟩
        [⟨"peer2", 8, loopback 5002⟩] m := by
  let sent : Sent Rat := [(.found 1 "lamp" 8, loopback 5001)]
  have hrun : ∃ s, Run (searchMachine Rat) {}
      (lampCalls.zip [[], [], []] ++ [(.timer 1, sent)]) s :=
    Machine.exec_outputs (lampCalls ++ [.timer 1]) [[], [], [], sent] rfl
  obtain ⟨s, hrun⟩ := hrun
  refine (timer_sends rfl hrun).2 _ _ ?_ rfl
  refine ⟨[], [.offer 1 7 ⟨"peer2", 8, loopback 5002⟩, .offer 2 9 ⟨"peer2", 5, loopback 5002⟩],
    rfl, ?_, rfl⟩
  simp [StoreEvent.ends]

end P2PShopping
