import Mathlib.Order.Bounds.Defs
import P2PShopping.Server.Step

/-! The search store and its history.

`activeSearches` is a map that later requests overwrite, with a flag that a timer
raises and an entry that only one of the timer's branches erases. What it comes to
is simple: under each number at most one search is open, from its LOOKING_FOR to
the next LOOKING_FOR or timer of that number, collecting the offers that arrive
within its minute. `OpenSearch` says that of a history alone, and `pending_history`
says that the store holds exactly the open searches. -/
namespace P2PShopping
open Collections Json Handler

variable {P : Type}

/-! ### Events -/

/-- A LOOKING_FOR, as the handler reads it. -/
structure LookingFor (P : Type) where
  rq : Int32
  name : String
  item : String
  maxPrice : P
  addr : SockaddrIn
  now : Int

def LookingFor.request (L : LookingFor P) : SearchRequest P :=
  newSearch L.rq L.name L.item L.maxPrice L.addr L.now

/-- The entry of a search that has been made these offers. -/
def LookingFor.offered (L : LookingFor P) (O : List (OfferInfo P)) : SearchRequest P :=
  {L.request with offers := O}

inductive StoreEvent (P : Type) where
  | lookingFor (L : LookingFor P)
  | offer (rq : Int32) (now : Int) (offer : OfferInfo P)
  | timer (rq : Int32)

abbrev Searches (P : Type) := Map Int32 (SearchRequest P)

def StoreEvent.apply (m : Searches P) : StoreEvent P → Searches P
  | .lookingFor L => m.insert L.rq L.request
  | .offer rq now o =>
    match m.lookup rq with
    | none => m
    | some search =>
      if search.offersProcessed then m
      else if now - search.startTime < minute then
        m.insert rq {search with offers := search.offers ++ [o]}
      else m
  | .timer rq =>
    match m.lookup rq with
    | none => m
    | some search =>
      if search.offersProcessed then m
      else if search.offers = [] then m.erase rq
      else m.insert rq {search with offersProcessed := true}

/-- The number an event is about. -/
def StoreEvent.number : StoreEvent P → Int32
  | .lookingFor L => L.rq
  | .offer rq _ _ => rq
  | .timer rq => rq

/-- An event leaves the entries of other numbers alone. -/
theorem lookup_apply_of_ne {m : Searches P} {e : StoreEvent P} {rq : Int32} (h : rq ≠ e.number) :
    (e.apply m).lookup rq = m.lookup rq := by
  cases e with
  | lookingFor L => exact AList.lookup_insert_ne h
  | offer r now offer =>
    simp only [StoreEvent.apply]
    split
    · rfl
    · split
      · rfl
      · split
        · exact AList.lookup_insert_ne h
        · rfl
  | timer r =>
    simp only [StoreEvent.apply]
    split
    · rfl
    · split
      · rfl
      · split
        · exact AList.lookup_erase_ne h
        · exact AList.lookup_insert_ne h

/-- An offer joins an open search within its minute. -/
def SearchRequest.join (search : SearchRequest P) (now : Int) (offer : OfferInfo P) :
    SearchRequest P :=
  if search.offersProcessed = false ∧ now - search.startTime < minute then
    {search with offers := search.offers ++ [offer]}
  else search

theorem lookup_offer (m : Searches P) (rq : Int32) (now : Int) (offer : OfferInfo P) :
    ((StoreEvent.offer rq now offer).apply m).lookup rq =
      (m.lookup rq).map (·.join now offer) := by
  cases hm : m.lookup rq with
  | none => simp [StoreEvent.apply, hm]
  | some search =>
    by_cases hopen : search.offersProcessed = false
    · by_cases htime : now - search.startTime < minute
      · simp [StoreEvent.apply, SearchRequest.join, hm, hopen, htime]
      · simp [StoreEvent.apply, SearchRequest.join, hm, hopen, htime]
    · simp [StoreEvent.apply, SearchRequest.join, hm, hopen]

/-- What a timer leaves under its number. -/
def timed (entry : Option (SearchRequest P)) : Option (SearchRequest P) :=
  entry.bind fun search =>
    if search.offersProcessed then some search
    else if search.offers = [] then none
    else some {search with offersProcessed := true}

theorem lookup_timer (m : Searches P) (rq : Int32) :
    ((StoreEvent.timer rq).apply m).lookup rq = timed (m.lookup rq) := by
  cases hm : m.lookup rq with
  | none => simp [StoreEvent.apply, timed, hm]
  | some search =>
    cases hp : search.offersProcessed with
    | true => simp [StoreEvent.apply, timed, hm, hp]
    | false => by_cases ho : search.offers = [] <;> simp [StoreEvent.apply, timed, hm, hp, ho]

/-! ### The search that is open under a number -/

/-- The entry under a number, unless its timer has been there. -/
def pending (m : Searches P) (rq : Int32) : Option (SearchRequest P) :=
  (m.lookup rq).filter fun search => !search.offersProcessed

theorem pending_eq_some {m : Searches P} {rq : Int32} {search : SearchRequest P} :
    pending m rq = some search ↔ m.lookup rq = some search ∧ search.offersProcessed = false := by
  simp [pending, Option.filter_eq_some_iff]

theorem pending_lookingFor (m : Searches P) (L : LookingFor P) (rq : Int32) :
    pending ((StoreEvent.lookingFor L).apply m) rq =
      if L.rq = rq then some L.request else pending m rq := by
  split
  case isTrue h =>
    subst h
    simp [pending, StoreEvent.apply, LookingFor.request, newSearch]
  case isFalse h =>
    simp [pending, StoreEvent.apply, AList.lookup_insert_ne (Ne.symm h)]

theorem pending_offer (m : Searches P) (r rq : Int32) (now : Int) (offer : OfferInfo P) :
    pending ((StoreEvent.offer r now offer).apply m) rq =
      (pending m rq).map fun search =>
        if r = rq ∧ now - search.startTime < minute then
          {search with offers := search.offers ++ [offer]}
        else search := by
  by_cases hr : r = rq
  case neg =>
    simp [pending, lookup_apply_of_ne (e := .offer r now offer) (Ne.symm hr), hr]
  case pos =>
    subst hr
    cases hm : m.lookup r with
    | none => simp [pending, StoreEvent.apply, hm]
    | some search =>
      cases hp : search.offersProcessed with
      | true => simp [pending, StoreEvent.apply, hm, hp, Option.filter]
      | false => by_cases ht : now - search.startTime < minute <;>
          simp [pending, StoreEvent.apply, hm, hp, ht, Option.filter]

theorem pending_timer (m : Searches P) (r rq : Int32) :
    pending ((StoreEvent.timer r).apply m) rq = if r = rq then none else pending m rq := by
  by_cases hr : r = rq
  case neg =>
    simp [pending, lookup_apply_of_ne (e := .timer r) (Ne.symm hr), hr]
  case pos =>
    subst hr
    cases hm : m.lookup r with
    | none => simp [pending, StoreEvent.apply, hm]
    | some search =>
      cases hp : search.offersProcessed with
      | true => simp [pending, StoreEvent.apply, hm, hp, Option.filter]
      | false => by_cases ho : search.offers = [] <;>
          simp [pending, StoreEvent.apply, hm, hp, ho, Option.filter]

/-! ### Histories -/

/-- A LOOKING_FOR or a timer of this number. -/
def StoreEvent.ends (rq : Int32) : StoreEvent P → Prop
  | .lookingFor L => L.rq = rq
  | .offer .. => False
  | .timer r => r = rq

/-- The offer an event contributes to a search: its number, within its minute. -/
def LookingFor.admits (L : LookingFor P) : StoreEvent P → Option (OfferInfo P)
  | .offer rq now o => if rq = L.rq ∧ now - L.now < minute then some o else none
  | _ => none

/-- `L` is the last LOOKING_FOR of its number, no timer of that number came after
it, and `O` is what it has been offered, in order. -/
def OpenSearch (h : List (StoreEvent P)) (L : LookingFor P) (O : List (OfferInfo P)) : Prop :=
  ∃ before after, h = before ++ .lookingFor L :: after ∧ (∀ e ∈ after, ¬ e.ends L.rq) ∧
    O = after.filterMap L.admits

theorem not_openSearch_nil (L : LookingFor P) (O : List (OfferInfo P)) : ¬ OpenSearch [] L O := by
  intro hopen
  obtain ⟨before, after, h, -⟩ := hopen
  simp at h

theorem openSearch_snoc {h : List (StoreEvent P)} {e : StoreEvent P} {L : LookingFor P}
    {O : List (OfferInfo P)} :
    OpenSearch (h ++ [e]) L O ↔
      (e = .lookingFor L ∧ O = []) ∨
      (¬ e.ends L.rq ∧ ∃ O', OpenSearch h L O' ∧ O = O' ++ (L.admits e).toList) := by
  constructor
  · intro hopen
    obtain ⟨before, after, hh, hends, rfl⟩ := hopen
    rcases List.eq_nil_or_concat after with rfl | ⟨front, last, rfl⟩
    · obtain ⟨-, hlast⟩ := List.append_inj' hh rfl
      exact .inl ⟨by simpa using hlast, rfl⟩
    · rw [List.concat_eq_append] at hh hends ⊢
      have hsplit : h ++ [e] = (before ++ .lookingFor L :: front) ++ [last] := by
        rw [hh]
        simp
      obtain ⟨rfl, hlast⟩ := List.append_inj' hsplit rfl
      obtain rfl : e = last := by simpa using hlast
      refine .inr ⟨hends e (by simp), front.filterMap L.admits,
        ⟨before, front, rfl, fun x hx => hends x (by simp [hx]), rfl⟩, ?_⟩
      simp only [List.filterMap_append, List.append_cancel_left_eq]
      cases he : L.admits e <;> simp [he]
  · intro hlast
    rcases hlast with ⟨rfl, rfl⟩ | ⟨hends, O', ⟨before, after, rfl, hafter, rfl⟩, rfl⟩
    · exact ⟨h, [], rfl, by simp, rfl⟩
    · refine ⟨before, after ++ [e], by simp, ?_, ?_⟩
      · intro x hx
        rcases List.mem_append.mp hx with hx | hx
        · exact hafter x hx
        · obtain rfl := List.mem_singleton.mp hx
          exact hends
      · simp only [List.filterMap_append, List.append_cancel_left_eq]
        cases he : L.admits e <;> simp [he]

/-- The store after a history, from the empty store on. -/
def store (h : List (StoreEvent P)) : Searches P := h.foldl StoreEvent.apply ∅

theorem store_snoc (h : List (StoreEvent P)) (e : StoreEvent P) :
    store (h ++ [e]) = e.apply (store h) := by
  simp [store]

/-- **The store holds exactly the open searches of its history**, each with the
offers it was made. -/
theorem pending_history (h : List (StoreEvent P)) (rq : Int32) (search : SearchRequest P) :
    pending (store h) rq = some search ↔
      ∃ L O, OpenSearch h L O ∧ L.rq = rq ∧ search = L.offered O := by
  induction h using List.reverseRecOn generalizing search with
  | nil =>
    constructor
    · intro h
      simp [pending, store] at h
    · intro hopen
      obtain ⟨L, O, h, -⟩ := hopen
      exact absurd h (not_openSearch_nil L O)
  | append_singleton h e ih =>
    rw [store_snoc]
    constructor
    · intro hp
      cases e with
      | lookingFor L' =>
        rw [pending_lookingFor] at hp
        split at hp
        case isTrue hrq =>
          cases hp
          exact ⟨L', [], openSearch_snoc.mpr (.inl ⟨rfl, rfl⟩), hrq, rfl⟩
        case isFalse hrq =>
          obtain ⟨L, O, hopen, rfl, rfl⟩ := (ih search).mp hp
          exact ⟨L, O, openSearch_snoc.mpr (.inr ⟨hrq, O, hopen, by simp [LookingFor.admits]⟩),
            rfl, rfl⟩
      | offer r now o =>
        rw [pending_offer, Option.map_eq_some_iff] at hp
        obtain ⟨old, hold, rfl⟩ := hp
        obtain ⟨L, O, hopen, rfl, rfl⟩ := (ih old).mp hold
        refine ⟨L, O ++ (L.admits (.offer r now o)).toList,
          openSearch_snoc.mpr (.inr ⟨id, O, hopen, rfl⟩), rfl, ?_⟩
        by_cases hin : r = L.rq ∧ now - L.now < minute <;>
          simp [LookingFor.admits, LookingFor.offered, LookingFor.request, newSearch, hin]
      | timer r =>
        rw [pending_timer] at hp
        split at hp
        case isTrue => cases hp
        case isFalse hrq =>
          obtain ⟨L, O, hopen, rfl, rfl⟩ := (ih search).mp hp
          exact ⟨L, O, openSearch_snoc.mpr (.inr ⟨hrq, O, hopen, by simp [LookingFor.admits]⟩),
            rfl, rfl⟩
    · intro hopen
      obtain ⟨L, O, hopen, rfl, rfl⟩ := hopen
      rcases openSearch_snoc.mp hopen with ⟨rfl, rfl⟩ | ⟨hends, O', hopen', rfl⟩
      · rw [pending_lookingFor, if_pos rfl]
        rfl
      · have hold := (ih (L.offered O')).mpr ⟨L, O', hopen', rfl, rfl⟩
        cases e with
        | lookingFor L' =>
          have hne : L'.rq ≠ L.rq := hends
          rw [pending_lookingFor, if_neg hne, hold]
          simp [LookingFor.admits]
        | offer r now o =>
          rw [pending_offer, hold]
          by_cases hin : r = L.rq ∧ now - L.now < minute <;>
            simp [LookingFor.admits, LookingFor.offered, LookingFor.request, newSearch, hin]
        | timer r =>
          have hne : r ≠ L.rq := hends
          rw [pending_timer, if_neg hne, hold]
          simp [LookingFor.admits]

/-! ### The handlers on the store -/

variable [Double P]

/-- The message a timer sends about a search, and to whom. -/
def verdict (search : SearchRequest P) : ServerMessage P × SockaddrIn :=
  match search.offers.argmin (·.price) with
  | none =>
    (.notAvailable search.requestNumber search.itemName search.maxPrice, search.searcherAddr)
  | some lowestOffer =>
    if lowestOffer.price ≤ search.maxPrice then
      (.found search.requestNumber search.itemName lowestOffer.price, search.searcherAddr)
    else
      (.negotiate search.requestNumber search.itemName search.maxPrice, lowestOffer.sellerAddr)

/-- A FOUND is about the search, and about one of its offers. -/
theorem verdict_found {search : SearchRequest P} {rq : Int32} {item : String} {price : P}
    {a : SockaddrIn} (h : verdict search = (.found rq item price, a)) :
    search.searcherAddr = a ∧ search.requestNumber = rq ∧ search.itemName = item ∧
      price ≤ search.maxPrice ∧ ∃ offer ∈ search.offers, offer.price = price := by
  unfold verdict at h
  split at h
  · simp at h
  case h_2 lowestOffer hmin =>
    split at h
    case isTrue hle =>
      simp only [Prod.mk.injEq, ServerMessage.found.injEq] at h
      obtain ⟨⟨hr, hi, rfl⟩, haddr⟩ := h
      exact ⟨haddr, hr, hi, hle, lowestOffer, List.argmin_mem hmin, rfl⟩
    case isFalse => simp at h

/-- An offer moves the store, and nothing else. -/
theorem recordOffer_eq (rq : Int32) (offer : OfferInfo P) (s : Server P) :
    recordOffer rq offer s =
      {s with activeSearches := (StoreEvent.offer rq s.clock offer).apply s.activeSearches} := by
  cases hm : s.activeSearches.lookup rq with
  | none => simp [recordOffer, StoreEvent.apply, hm]
  | some search =>
    cases hp : search.offersProcessed with
    | true => simp [recordOffer, StoreEvent.apply, hm, hp]
    | false =>
      by_cases ht : s.clock - search.startTime < minute <;>
        simp [recordOffer, StoreEvent.apply, hm, hp, ht, Server.setSearch]

/-- The timeout in one equation: it moves the store, and sends the verdict on the
pending search, if there is one. -/
theorem processOffersAfterTimeout_eq (rq : Int32) (s : Server P) :
    processOffersAfterTimeout rq s =
      {s with
        activeSearches := (StoreEvent.timer rq).apply s.activeSearches
        outbox := s.outbox ++ ((pending s.activeSearches rq).map verdict).toList} := by
  cases hm : s.activeSearches.lookup rq with
  | none => simp [processOffersAfterTimeout, StoreEvent.apply, pending, hm]
  | some search =>
    cases hp : search.offersProcessed with
    | true => simp [processOffersAfterTimeout, StoreEvent.apply, pending, hm, hp, Option.filter]
    | false =>
      have hpending : pending s.activeSearches rq = some search := pending_eq_some.mpr ⟨hm, hp⟩
      cases hmin : search.offers.argmin (·.price) with
      | none =>
        have hnil : search.offers = [] := List.argmin_eq_none.mp hmin
        simp [processOffersAfterTimeout, StoreEvent.apply, hpending, verdict, hm, hp, hnil,
          Server.send]
      | some lowestOffer =>
        have hcons : search.offers ≠ [] := by
          intro hnil
          rw [hnil] at hmin
          cases hmin
        by_cases hle : lowestOffer.price ≤ search.maxPrice <;>
          simp [processOffersAfterTimeout, StoreEvent.apply, hpending, verdict, hm, hp, hcons,
            hmin, hle, Server.send, Server.setSearch]

/-! ### What a verdict is -/

/-- What is to be said about a search with these offers: none, a minimum within the
maximum price, or a minimum above it, which goes to the first who asked it. -/
inductive Verdict (L : LookingFor P) (O : List (OfferInfo P)) :
    ServerMessage P × SockaddrIn → Prop where
  | notAvailable : O = [] → Verdict L O (.notAvailable L.rq L.item L.maxPrice, L.addr)
  | found {p : P} : IsLeast {x | ∃ offer ∈ O, offer.price = x} p → p ≤ L.maxPrice →
      Verdict L O (.found L.rq L.item p, L.addr)
  | negotiate {before after : List (OfferInfo P)} {offer : OfferInfo P} :
      O = before ++ offer :: after → (∀ x ∈ before, offer.price < x.price) →
      (∀ x ∈ after, offer.price ≤ x.price) → L.maxPrice < offer.price →
      Verdict L O (.negotiate L.rq L.item L.maxPrice, offer.sellerAddr)

theorem verdict_spec (L : LookingFor P) (O : List (OfferInfo P)) :
    Verdict L O (verdict (L.offered O)) := by
  unfold verdict
  rw [show (L.offered O).offers = O from rfl]
  cases hmin : O.argmin (·.price) with
  | none => exact .notAvailable (List.argmin_eq_none.mp hmin)
  | some lowestOffer =>
    obtain ⟨before, after, hsplit, hbefore, hafter⟩ := argmin_split _ hmin
    dsimp only
    split
    case isTrue hle =>
      refine .found ⟨⟨lowestOffer, List.argmin_mem hmin, rfl⟩, ?_⟩ hle
      intro _ hprice
      obtain ⟨offer, hoffer, rfl⟩ := hprice
      exact List.le_of_mem_argmin hoffer hmin
    case isFalse hgt =>
      exact .negotiate hsplit hbefore hafter (lt_of_not_ge hgt)

end P2PShopping
