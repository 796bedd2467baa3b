import P2PShopping.System.Network

/-! Counting what is in flight and what is open.

An invariant of the whole system says how many of something there are at most: of
the datagrams of a kind between the server and one address, and of the searches of
one searcher that still wait for their timer. -/
namespace P2PShopping
open Collections Json Runs

variable {P : Type}

/-! ### Counting -/

section Count
variable {M : Type}

/-- How many datagrams of a kind go to or come from an address. -/
def count (kind : M → Bool) (a : SockaddrIn) (l : List (M × SockaddrIn)) : Nat :=
  l.countP fun d => decide (d.2 = a) && kind d.1

variable (kind : M → Bool) (a : SockaddrIn) {b : SockaddrIn} {l : List (M × SockaddrIn)}
  {k : Nat} {m : M}

@[simp] theorem count_nil : count kind a [] = 0 := rfl

@[simp] theorem count_append (l l' : List (M × SockaddrIn)) :
    count kind a (l ++ l') = count kind a l + count kind a l' :=
  List.countP_append

@[simp] theorem count_cons (d : M × SockaddrIn) (l : List (M × SockaddrIn)) :
    count kind a (d :: l) = count kind a l + if d.2 = a ∧ kind d.1 = true then 1 else 0 := by
  simp [count, List.countP_cons]

@[simp] theorem count_map (m : M) (l : List SockaddrIn) (hm : kind m = false) :
    count kind a (l.map (m, ·)) = 0 := by
  simp [count, List.countP_map, hm]

theorem count_eraseIdx (h : l[k]? = some (m, b)) :
    count kind a (l.eraseIdx k) + (if b = a ∧ kind m = true then 1 else 0) = count kind a l := by
  rw [count, count, ← countP_eraseIdx h]
  simp

variable {kind a} in
theorem count_pos_of_mem (h : (m, a) ∈ l) (hm : kind m = true) : 0 < count kind a l :=
  List.countP_pos_iff.mpr ⟨(m, a), h, by simp [hm]⟩

theorem count_eraseIdx_le (l : List (M × SockaddrIn)) (k : Nat) :
    count kind a (l.eraseIdx k) ≤ count kind a l :=
  countP_eraseIdx_le l k _

end Count

def ClientMessage.isRegister : ClientMessage P → Bool
  | .register .. => true
  | _ => false

def ClientMessage.isDeRegister : ClientMessage P → Bool
  | .deRegister .. => true
  | _ => false

def ClientMessage.isLookingFor : ClientMessage P → Bool
  | .lookingFor .. => true
  | _ => false

def ServerMessage.isRegistered : ServerMessage P → Bool
  | .registered .. => true
  | _ => false

def ServerMessage.isFound : ServerMessage P → Bool
  | .found .. => true
  | _ => false

/-! ### The open searches of a searcher -/

def openEntry (a : SockaddrIn) (e : Sigma fun _ : Int32 => SearchRequest P) : Bool :=
  !e.2.offersProcessed && decide (e.2.searcherAddr = a)

def openSearches (a : SockaddrIn) (m : Searches P) : Nat := m.entries.countP (openEntry a)

/-- An open search is one that is pending under its number. -/
theorem exists_pending_of_openSearches {a : SockaddrIn} {m : Searches P}
    (h : 0 < openSearches a m) : ∃ rq search, pending m rq = some search := by
  obtain ⟨e, hmem, hopen⟩ := List.countP_pos_iff.mp h
  refine ⟨e.1, e.2, pending_eq_some.mpr ⟨Map.mem_entries_iff.mp hmem, ?_⟩⟩
  simp only [openEntry, Bool.and_eq_true, Bool.not_eq_true'] at hopen
  exact hopen.1

theorem openSearches_lookingFor (a : SockaddrIn) (L : LookingFor P) (m : Searches P) :
    openSearches a ((StoreEvent.lookingFor L).apply m) ≤
      openSearches a m + if L.addr = a then 1 else 0 := by
  have hinsert := Map.countP_insert (openEntry a) m L.rq L.request
  have herase := Map.countP_erase_le (openEntry a) m L.rq
  have hentry : openEntry a ⟨L.rq, L.request⟩ = decide (L.addr = a) := rfl
  rw [hentry] at hinsert
  simp only [decide_eq_true_eq] at hinsert
  simp only [openSearches, StoreEvent.apply]
  omega

/-- On a number without an open search nothing is overwritten. -/
theorem openSearches_lookingFor_fresh (a : SockaddrIn) (L : LookingFor P) {m : Searches P}
    (h : pending m L.rq = none) :
    openSearches a ((StoreEvent.lookingFor L).apply m) =
      openSearches a m + if L.addr = a then 1 else 0 := by
  have hinsert := Map.countP_insert (openEntry a) m L.rq L.request
  have hentry : openEntry a ⟨L.rq, L.request⟩ = decide (L.addr = a) := rfl
  have herase : (m.erase L.rq).entries.countP (openEntry a) = m.entries.countP (openEntry a) := by
    cases hm : m.lookup L.rq with
    | none => rw [Map.erase_of_lookup hm]
    | some search =>
      have hclosed : openEntry a ⟨L.rq, search⟩ = false := by
        by_contra hopen
        have hopen : search.offersProcessed = false := by simp_all [openEntry]
        rw [pending_eq_some.mpr ⟨hm, hopen⟩] at h
        cases h
      rw [← Map.countP_erase_of_lookup (openEntry a) hm, hclosed]
      rfl
  rw [hentry, herase] at hinsert
  simpa [openSearches, StoreEvent.apply] using hinsert

/-- Rewriting an entry with the same flag and searcher moves no count. -/
theorem openSearches_update (a : SockaddrIn) {m : Searches P} {rq : Int32}
    {search search' : SearchRequest P} (h : m.lookup rq = some search)
    (hentry : openEntry a ⟨rq, search'⟩ = openEntry a ⟨rq, search⟩) :
    openSearches a (m.insert rq search') = openSearches a m := by
  have hinsert := Map.countP_insert (openEntry a) m rq search'
  have herase := Map.countP_erase_of_lookup (openEntry a) h
  rw [hentry] at hinsert
  simp only [openSearches]
  omega

theorem openSearches_offer (a : SockaddrIn) (rq : Int32) (now : Int) (o : OfferInfo P)
    (m : Searches P) :
    openSearches a ((StoreEvent.offer rq now o).apply m) = openSearches a m := by
  cases hm : m.lookup rq with
  | none => simp [StoreEvent.apply, hm]
  | some search =>
    cases hp : search.offersProcessed with
    | true => simp [StoreEvent.apply, hm, hp]
    | false =>
      by_cases ht : now - search.startTime < minute
      · simp only [StoreEvent.apply, hm, hp, ht, Bool.false_eq_true, if_false, if_true]
        exact openSearches_update a hm (by simp [openEntry, hp])
      · simp [StoreEvent.apply, hm, hp, ht]

/-- Whether the search pending under a number is this searcher's. -/
def owed (a : SockaddrIn) (m : Searches P) (rq : Int32) : Nat :=
  if (pending m rq).any (fun search => decide (search.searcherAddr = a)) then 1 else 0

/-- A timer closes the search it finds pending. -/
theorem openSearches_timer (a : SockaddrIn) (rq : Int32) (m : Searches P) :
    openSearches a ((StoreEvent.timer rq).apply m) + owed a m rq = openSearches a m := by
  cases hm : m.lookup rq with
  | none => simp [StoreEvent.apply, owed, pending, hm]
  | some search =>
    cases hp : search.offersProcessed with
    | true => simp [StoreEvent.apply, owed, pending, hm, hp, Option.filter]
    | false =>
      have herase := Map.countP_erase_of_lookup (openEntry a) hm
      have howed : owed a m rq = if openEntry a ⟨rq, search⟩ then 1 else 0 := by
        simp [owed, pending_eq_some.mpr ⟨hm, hp⟩, openEntry, hp]
      by_cases ho : search.offers = []
      · simp only [StoreEvent.apply, hm, hp, ho, openSearches, Bool.false_eq_true, if_false,
          if_true, howed]
        exact herase
      · have hinsert := Map.countP_insert (openEntry a) m rq {search with offersProcessed := true}
        have hclosed : openEntry a ⟨rq, {search with offersProcessed := true}⟩ = false := rfl
        rw [hclosed] at hinsert
        simp only [StoreEvent.apply, hm, hp, ho, openSearches, Bool.false_eq_true, if_false, howed]
        simp only [Bool.false_eq_true, if_false] at hinsert
        omega

variable [Double P]

/-- Only a pending search of `a` brings a FOUND to `a`. -/
theorem count_found_verdict (a : SockaddrIn) (m : Searches P) (rq : Int32) :
    count ServerMessage.isFound a ((pending m rq).map verdict).toList ≤ owed a m rq := by
  cases hp : pending m rq with
  | none => simp [owed, hp]
  | some search =>
    unfold verdict
    cases hmin : search.offers.argmin (·.price) with
    | none => simp [hmin, ServerMessage.isFound]
    | some lowestOffer =>
      by_cases hle : lowestOffer.price ≤ search.maxPrice <;>
        simp [hmin, hle, ServerMessage.isFound, owed, hp]

/-- A pending search of `a` with an acceptable offer does bring one. -/
theorem count_found_verdict_eq (a : SockaddrIn) {m : Searches P} {rq : Int32}
    (h : ∀ search, pending m rq = some search →
      ∃ offer ∈ search.offers, offer.price ≤ search.maxPrice) :
    count ServerMessage.isFound a ((pending m rq).map verdict).toList = owed a m rq := by
  cases hp : pending m rq with
  | none => simp [owed, hp]
  | some search =>
    obtain ⟨offer, hoffer, hle⟩ := h search hp
    unfold verdict
    cases hmin : search.offers.argmin (·.price) with
    | none =>
      rw [List.argmin_eq_none.mp hmin] at hoffer
      cases hoffer
    | some lowestOffer =>
      have hlowest : lowestOffer.price ≤ search.maxPrice :=
        (List.le_of_mem_argmin hoffer hmin).trans hle
      simp [hmin, hlowest, ServerMessage.isFound, owed, hp]

theorem count_registered_verdict (a : SockaddrIn) (m : Searches P) (rq : Int32) :
    count ServerMessage.isRegistered a ((pending m rq).map verdict).toList = 0 := by
  cases hp : pending m rq with
  | none => simp
  | some search =>
    unfold verdict
    cases hmin : search.offers.argmin (·.price) with
    | none => simp [hmin, ServerMessage.isRegistered]
    | some lowestOffer =>
      by_cases hle : lowestOffer.price ≤ search.maxPrice <;>
        simp [hmin, hle, ServerMessage.isRegistered]

end P2PShopping
