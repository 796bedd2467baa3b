import P2PShopping.System.Network

/-! Sales and the offers behind them.

A FOUND quotes the price of an offer in the entry of its search. The entry collects
offers by number alone, so what a FOUND is worth depends on what was recorded: if
every recorded offer is for the item of the search and from another peer, then each
FOUND repeats an OFFER that a seller of the item sent (`no_phantom_sale_of_own_offers`). -/
namespace P2PShopping
open Collections Json Runs

variable {P : Type}

/-- Some client other than `b` has sent this OFFER. -/
def OfferedBefore (tr : List (Move P × Log P)) (rq : Int32) (item : String) (price : P)
    (b : SockaddrIn) : Prop :=
  ∃ e ∈ tr, ∃ name a, a ≠ b ∧ (.offer rq name item price, a) ∈ e.2.up

/-- Every FOUND that the server sent to a buyer repeats an OFFER of another client. -/
def NoPhantomSale (tr : List (Move P × Log P)) : Prop :=
  ∀ front e back rq item price b, tr = front ++ e :: back →
    (.found rq item price, b) ∈ e.2.down → OfferedBefore front rq item price b

theorem OfferedBefore.append {tr : List (Move P × Log P)} {rq : Int32} {item : String} {price : P}
    {b : SockaddrIn} (h : OfferedBefore tr rq item price b) (e : Move P × Log P) :
    OfferedBefore (tr ++ [e]) rq item price b := by
  obtain ⟨f, hf, hoffer⟩ := h
  exact ⟨f, List.mem_append_left _ hf, hoffer⟩

/-- A property of each step, asked with the history before it, is one of the whole
history if it is one of its last step. -/
theorem noPhantomSale_snoc {tr : List (Move P × Log P)} {e : Move P × Log P}
    (h : NoPhantomSale tr)
    (he : ∀ rq item price b, (.found rq item price, b) ∈ e.2.down →
      OfferedBefore tr rq item price b) : NoPhantomSale (tr ++ [e]) := by
  intro front f back rq item price b hsplit hfound
  rcases List.eq_nil_or_concat back with rfl | ⟨back, last, rfl⟩
  · obtain ⟨rfl, hef⟩ := List.append_inj' hsplit rfl
    obtain rfl : e = f := List.singleton_inj.mp hef
    exact he rq item price b hfound
  · have hsplit' : tr ++ [e] = (front ++ f :: back) ++ [last] := by
      rw [hsplit]
      simp
    obtain ⟨htr, -⟩ := List.append_inj' hsplit' rfl
    exact h front f back rq item price b htr hfound

variable [Double P]

/-- An OFFER that is recorded is for the item of the search, and not from its searcher. -/
def ownOffer (s : System P) : Move P → Bool
  | .serve k =>
    match s.toServer[k]? with
    | some (.offer rq _ item _, a) =>
      (pending s.server.activeSearches rq).all fun search =>
        decide (s.server.clock - search.startTime < minute →
          item = search.itemName ∧ a ≠ search.searcherAddr)
    | _ => true
  | _ => true

/-- What backs the sales to come. -/
structure Backed (tr : List (Move P × Log P)) (s : System P) : Prop where
  sent : ∀ d ∈ s.toServer, ∃ e ∈ tr, d ∈ e.2.up
  recorded : ∀ rq search, pending s.server.activeSearches rq = some search →
    search.requestNumber = rq ∧ ∀ offer ∈ search.offers,
      OfferedBefore tr rq search.itemName offer.price search.searcherAddr

section Steps
variable {tr : List (Move P × Log P)} {s : System P} {e : Move P × Log P}

theorem Backed.sent_snoc (h : Backed tr s) {toServer : List (ClientMessage P × SockaddrIn)}
    (hup : ∀ d ∈ toServer, d ∈ s.toServer ∨ d ∈ e.2.up) :
    ∀ d ∈ toServer, ∃ f ∈ tr ++ [e], d ∈ f.2.up := by
  intro d hd
  rcases hup d hd with hold | hnew
  · obtain ⟨f, hf, hmem⟩ := h.sent d hold
    exact ⟨f, List.mem_append_left _ hf, hmem⟩
  · exact ⟨e, by simp, hnew⟩

theorem Backed.recorded_snoc (h : Backed tr s) {rq : Int32} {search : SearchRequest P}
    (hsearch : pending s.server.activeSearches rq = some search) :
    search.requestNumber = rq ∧ ∀ offer ∈ search.offers,
      OfferedBefore (tr ++ [e]) rq search.itemName offer.price search.searcherAddr := by
  obtain ⟨hrq, hoffers⟩ := h.recorded rq search hsearch
  exact ⟨hrq, fun offer hoffer => (hoffers offer hoffer).append e⟩

/-- What the server recorded of a datagram is what a client sent. -/
theorem Backed.served {k : Nat} {m : ClientMessage P} {a : SockaddrIn} {server : Server P}
    {sent : Sent P} (h : Backed tr s) (hm : s.toServer[k]? = some (m, a))
    (hserved : Served s.server a m server sent) (hown : ownOffer s (.serve k) = true) :
    Backed (tr ++ [e])
      {s with
        server
        toServer := s.toServer.eraseIdx k
        toClient := s.toClient ++ sent} := by
  refine ⟨h.sent_snoc fun d hd => .inl (mem_of_mem_eraseIdx hd), ?_⟩
  intro r search hsearch
  cases hserved with
  | searched =>
    rw [pending_lookingFor] at hsearch
    split at hsearch
    case isTrue hr =>
      cases hsearch
      exact ⟨hr, fun offer hoffer => (by cases hoffer)⟩
    case isFalse => exact h.recorded_snoc hsearch
  | @offered rq name item price =>
    rw [pending_offer, Option.map_eq_some_iff] at hsearch
    obtain ⟨old, hold, rfl⟩ := hsearch
    obtain ⟨hrq, hoffers⟩ := h.recorded_snoc (e := e) hold
    split
    case isFalse => exact ⟨hrq, hoffers⟩
    case isTrue hrecorded =>
      obtain ⟨rfl, hearly⟩ := hrecorded
      refine ⟨hrq, fun offer hoffer => ?_⟩
      rcases List.mem_append.mp hoffer with hoffer | hnew
      · exact hoffers offer hoffer
      · obtain rfl := List.mem_singleton.mp hnew
        simp only [ownOffer, hm, hold, Option.all_some, decide_eq_true_eq] at hown
        obtain ⟨rfl, hother⟩ := hown hearly
        obtain ⟨f, hf, hup⟩ := h.sent _ (List.mem_of_getElem? hm)
        exact ⟨f, List.mem_append_left _ hf, name, a, hother, hup⟩
  | denied | registered | deregistered | negotiated | accepted | refused =>
    exact h.recorded_snoc hsearch

end Steps

/-- **What one step keeps**, if it records no foreign offer. -/
theorem backed_step {s s' : System P} {tr : List (Move P × Log P)} {l : Move P} {log : Log P}
    (h : Backed tr s) (hown : ownOffer s l = true) (hstep : (network P).step s l = some (s', log)) :
    Backed (tr ++ [(l, log)]) s' := by
  cases step_moved hstep with
  | acted =>
    exact ⟨h.sent_snoc fun d hd => List.mem_append.mp hd, fun _ _ => h.recorded_snoc⟩
  | served hm hserved => exact h.served hm hserved hown
  | delivered =>
    exact ⟨h.sent_snoc fun d hd => List.mem_append.mp hd, fun _ _ => h.recorded_snoc⟩
  | lostUp =>
    exact ⟨h.sent_snoc fun d hd => .inl (mem_of_mem_eraseIdx hd), fun _ _ => h.recorded_snoc⟩
  | fired =>
    refine ⟨h.sent_snoc fun d hd => .inl hd, fun r search hsearch => ?_⟩
    rw [pending_timer] at hsearch
    split at hsearch
    case isTrue => cases hsearch
    case isFalse => exact h.recorded_snoc hsearch
  | lostDown | pushed | visited | ticked =>
    exact ⟨h.sent_snoc fun d hd => .inl hd, fun _ _ => h.recorded_snoc⟩

/-- Only a timer sends a FOUND, about the search it finds. -/
theorem found_sent {s s' : System P} {l : Move P} {log : Log P} {rq : Int32} {item : String}
    {price : P} {b : SockaddrIn} (hstep : (network P).step s l = some (s', log))
    (hfound : (.found rq item price, b) ∈ log.down) :
    ∃ r search, pending s.server.activeSearches r = some search ∧
      verdict search = (.found rq item price, b) := by
  cases step_moved hstep with
  | served _ hserved => cases hserved <;> simp at hfound
  | @fired k r started _ =>
    obtain ⟨search, hsearch, hverdict⟩ := Option.map_eq_some_iff.mp (Option.mem_toList.mp hfound)
    exact ⟨r, search, hsearch, hverdict⟩
  | acted | delivered | lostUp | lostDown | pushed | visited | ticked => cases hfound

theorem Backed.sale {tr : List (Move P × Log P)} {s : System P} {r rq : Int32} {item : String}
    {price : P} {b : SockaddrIn} {search : SearchRequest P} (h : Backed tr s)
    (hsearch : pending s.server.activeSearches r = some search)
    (hverdict : verdict search = (.found rq item price, b)) :
    OfferedBefore tr rq item price b := by
  obtain ⟨rfl, rfl, rfl, -, offer, hoffer, rfl⟩ := verdict_found hverdict
  obtain ⟨rfl, hoffers⟩ := h.recorded r search hsearch
  exact hoffers offer hoffer

/-- **No phantom sale**, in any run that records only offers for the search they are
filed under. -/
theorem no_phantom_sale_of_own_offers {peers : SockaddrIn → Option ClientConfig} {s : System P}
    {tr : List (Move P × Log P)} (h : Run (network P) (System.start peers) tr s)
    (hown : StepsMeet (network P) (ownOffer · ·) (System.start peers) tr) : NoPhantomSale tr := by
  refine And.left (b := Backed tr s) ?_
  refine h.invariant_of (ownOffer · ·) (fun tr s => NoPhantomSale tr ∧ Backed tr s) ?_ ?_ hown
  · refine ⟨fun front e back _ _ _ _ hsplit => by simp at hsplit, ⟨?_, ?_⟩⟩
    · intro d hd
      cases hd
    · intro rq search hsearch
      cases hsearch
  · intro tr s l s' log _ ⟨hsales, hbacked⟩ hC hstep
    refine ⟨noPhantomSale_snoc hsales fun rq item price b hfound => ?_,
      backed_step hbacked hC hstep⟩
    obtain ⟨r, search, hsearch, hverdict⟩ := found_sent hstep hfound
    exact hbacked.sale hsearch hverdict

theorem no_phantom_sale_of_own_offers_lamp : ∃ s tr,
    Run (network Rat) (System.start household) tr s ∧
      founds s.toClient = [(2, "lamp", 8, peer1)] ∧ NoPhantomSale tr := by
  obtain ⟨s, tr, hrun, hown, hfound⟩ := (network Rat).exec_view_meets ownOffer
    (System.start household) lampSold (fun r => founds r.1.toClient)
    (v := [(2, "lamp", 8, peer1)]) (by decide +kernel) (by decide +kernel)
  exact ⟨s, tr, hrun, hfound, no_phantom_sale_of_own_offers hrun hown⟩

/-- The first peer looks for a lamp and the third offers one, but the second peer's
search for a desk, under the same number, is handled before the offer. -/
def lampSoldAsDesk : List (Move Rat) :=
  registration peer1 ++ registration peer2 ++ registration peer3 ++
    [.user peer3 (.addItem "lamp" "old" 8) true, .user peer1 (.searchItem "lamp" "old" 10) true,
     .serve 0, .deliver 0 true, .user peer2 (.searchItem "desk" "oak" 50) true, .serve 1, .serve 0,
     .tick 60000000000, .timeout 0]

/-- The item a message offers. -/
def ClientMessage.offersItem : ClientMessage P → Option String
  | .offer _ _ item _ => some item
  | _ => none

/-- The desk is FOUND at the price of the lamp, though nobody offered a desk. -/
theorem phantom_sale : ∃ s tr, Run (network Rat) (System.start household) tr s ∧
    ¬ NoPhantomSale tr := by
  obtain ⟨s, tr, hrun, hview⟩ := (network Rat).exec_view (System.start household) lampSoldAsDesk
    (fun r => decide ((2, "desk", 8, peer2) ∈ founds (sentDown r.2) ∧
      ∀ d ∈ sentUp r.2, d.1.offersItem ≠ some "desk"))
    (v := true) (by decide +kernel)
  obtain ⟨hfound, hoffers⟩ := of_decide_eq_true hview
  obtain ⟨e, he, hdown⟩ := List.mem_flatMap.mp (mem_founds.mp hfound)
  obtain ⟨front, back, rfl⟩ := List.append_of_mem he
  refine ⟨s, _, hrun, fun hsales => ?_⟩
  obtain ⟨f, hf, name, a, -, hoffer⟩ := hsales front e back 2 "desk" 8 peer2 rfl hdown
  exact hoffers _ (List.mem_flatMap.mpr ⟨f, List.mem_append_left _ hf, hoffer⟩) rfl

end P2PShopping
