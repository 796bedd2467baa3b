import P2PShopping.Library.Serial
import P2PShopping.Server.Commute

/-! The sections of the handlers.

A handler holds one lock at a time, and `handleLookingFor` holds two, one after the other:
it stores the search under `searches_mutex_` and broadcasts it under `sessions_mutex_`.
Between the two, other threads find a search that nobody has been asked about. Here each
step of the server is what one lock covers (`Server.sectionStep`), in any order of the
handlers and the timeout threads. Every table then sees what it would see if each handler
ran without interruption iff the searches of each number are broadcast in the order in which
they were stored (`sections_serial_iff`). The starting of the timeout thread is counted to
the section that follows it, and each section reads the clock when it likes.

The event thread stands still meanwhile. Its rounds are under `sessions_mutex_`, too, but a
round comes after the push of the handler whose event it is, so rounds tie the order of one
table to that of another, and the equivalence does not hold with them. -/
namespace P2PShopping
open Collections Json Handler Runs Serial

variable {P : Type} [Double P]

/-! ### The two sections of a search -/

/-- `handleLookingFor` up to the end of the block that stores the search. -/
def storeSearch (msg : Json P) (clientAddr : SockaddrIn) : Handler P (Int32 × String) := do
  let requestNumber ← readKey msg "rq" getInt
  let itemName ← readKey msg "item_name" getString
  let maxPrice ← readKey msg "max_price" getDouble
  let searcherName ← readKey msg "name" getString
  let search : SearchRequest P :=
    { requestNumber, searcherName, itemName, maxPrice, searcherAddr := clientAddr,
      startTime := (← get).clock }
  modify (·.detach requestNumber)
  modify (·.setSearch search requestNumber)
  return (requestNumber, itemName)

/-- The rest of it. -/
def broadcastSearch (msg : Json P) (clientAddr : SockaddrIn) (requestNumber : Int32)
    (itemName : String) : Handler P Unit := do
  let description ← readKey msg "description" pure
  broadcast (getPeerIdentifier clientAddr) (.search requestNumber itemName description)
    (← get).peerSessions.entries

/-- What is done under one lock, for a message that is well formed. -/
inductive Section (P : Type) [Double P] where
  /-- The handler of a REGISTER, a DE_REGISTER or an OFFER. -/
  | handle (m : Handling P)
  /-- The first section of a LOOKING_FOR. -/
  | store (m : Handling P)
  /-- The second. -/
  | broadcast (m : Handling P)
  /-- `processOffersAfterTimeout` on a thread that started at this time. -/
  | timer (rq : Int32) (started : Int)

def Request.search? : Request P → Option (LookingFor P)
  | .lookingFor L => some L
  | .register | .deregister | .offer .. => none

/-- The search a message asks for. -/
def soughtBy (m : Handling P) : Option (LookingFor P) := (requestOf m).bind Request.search?

namespace Server

/-- A thread takes up `processOffersAfterTimeout`. -/
def fire (s : Server P) (rq : Int32) (started : Int) : Option (Server P × Sent P) :=
  if (rq, started) ∈ s.timeoutThreads then
    some (processOffersAfterTimeout rq
      {s with timeoutThreads := s.timeoutThreads.erase (rq, started), outbox := []}).flush
  else none

def sectionStep (s : Server P) : Section P → Option (Server P × Sent P)
  | .handle m =>
    if (requestOf m).isSome ∧ soughtBy m = none then
      (s.atTime m.now).step (.receive m.message m.clientAddr)
    else none
  | .store m =>
    match soughtBy m with
    | none => none
    | some _ =>
      match storeSearch m.message m.clientAddr (s.atTime m.now) with
      | .ok _ s' => some s'.flush
      | .error _ _ => none
  | .broadcast m =>
    match soughtBy m with
    | none => none
    | some L =>
      match broadcastSearch m.message m.clientAddr L.rq L.item (s.atTime m.now) with
      | .ok _ s' => some (s'.finish m.message m.clientAddr).flush
      | .error _ _ => none
  | .timer rq started => s.fire rq started

end Server

variable (P) in
def sectionMachine : Machine (Server P) (Section P) (Sent P) := ⟨Server.sectionStep⟩

/-! ### One table each -/

/-- `none` is the table of the sessions, and each number has a table of its own. -/
abbrev TableOf (P : Type) [Double P] : Option Int32 → Type
  | none => Map String (Option (PeerSession P))
  | some _ => Option (SearchRequest P) × (Int → Nat)

/-- The sessions; under a number its search, and how many threads sleep for it since each
time. -/
def Server.table (s : Server P) : (r : Option Int32) → TableOf P r
  | none => s.peerSessions
  | some rq => (s.activeSearches.lookup rq, fun started => s.timeoutThreads.count (rq, started))

def Section.on : Section P → Option Int32
  | .handle m => (requestOf m).bind Request.rq?
  | .store m => (soughtBy m).map LookingFor.rq
  | .broadcast _ => none
  | .timer rq _ => some rq

/-- The section does to this table what `F` says, and nothing to the others. -/
def Server.Obeys (s : Server P) (l : Section P) {r : Option Int32} :
    Option (TableOf P r × Sent P) → Prop
  | none => s.sectionStep l = none
  | some (z, sent) => ∃ s', s.sectionStep l = some (s', sent) ∧ s'.table r = z ∧
      ∀ r', r' ≠ r → s'.table r' = s.table r'

/-- What a section does depends on one table, and is done to that table. -/
def Confined (l : Section P) (r : Option Int32) : Prop :=
  ∃ F : TableOf P r → Option (TableOf P r × Sent P), ∀ s : Server P, s.Obeys l (F (s.table r))

section Confined
variable {m : Handling P} {L : LookingFor P} {s s₁ : Server P} {l : Section P}

theorem confined_none {r : Option Int32} (h : ∀ s : Server P, s.sectionStep l = none) :
    Confined l r := ⟨fun _ => none, h⟩

theorem soughtBy_asks (h : soughtBy m = some L) : Asks m (.lookingFor L) := by
  obtain ⟨r, hr, hsearch⟩ := Option.bind_eq_some_iff.mp h
  cases r with
  | lookingFor L' =>
    cases hsearch
    exact requestOf_asks hr
  | register | deregister | offer => cases hsearch

/-- A handler that completes. -/
theorem section_handle {r : Request P} (hr : requestOf m = some r) (hsearch : r.search? = none)
    (h : dispatch m.message m.clientAddr (s.atTime m.now) = .ok () s₁) :
    s.sectionStep (.handle m) = some (s₁.finish m.message m.clientAddr).flush := by
  have hnone : soughtBy m = none := by rw [soughtBy, hr, Option.bind_some, hsearch]
  have hclean : {s.atTime m.now with outbox := []} = s.atTime m.now := rfl
  rw [Server.sectionStep, if_pos ⟨hr ▸ rfl, hnone⟩, Server.step, hclean, h]

theorem obeys_some {r : Option Int32} (s' : Server P) {z : TableOf P r} {sent : Sent P}
    {effect : Option (TableOf P r × Sent P)} (heffect : effect = some (z, sent))
    (hsection : s.sectionStep l = some (s', sent)) (htable : s'.table r = z)
    (hothers : ∀ r', r' ≠ r → s'.table r' = s.table r') : s.Obeys l effect := by
  rw [heffect]
  exact ⟨s', hsection, htable, hothers⟩

theorem obeys_none {r : Option Int32} {effect : Option (TableOf P r × Sent P)}
    (heffect : effect = none) (hsection : s.sectionStep l = none) : s.Obeys l effect := by
  rw [heffect]
  exact hsection

theorem Server.Obeys.of_step {r : Option Int32} {s' : Server P} {sent : Sent P}
    {effect : Option (TableOf P r × Sent P)} (h : s.Obeys l effect)
    (hstep : s.sectionStep l = some (s', sent)) :
    effect = some (s'.table r, sent) ∧ ∀ r', r' ≠ r → s'.table r' = s.table r' := by
  cases effect with
  | none =>
    rw [show s.sectionStep l = none from h] at hstep
    cases hstep
  | some effect =>
    obtain ⟨z, sent'⟩ := effect
    obtain ⟨s₁, hs₁, rfl, hothers⟩ := h
    rw [hs₁] at hstep
    cases hstep
    exact ⟨rfl, hothers⟩

/-- Only the sessions have changed. -/
theorem table_some (hsearches : s₁.activeSearches = s.activeSearches)
    (hthreads : s₁.timeoutThreads = s.timeoutThreads) :
    ∀ r, r ≠ none → s₁.table r = s.table r := by
  intro r hr
  cases r with
  | none => exact absurd rfl hr
  | some rq => simp only [Server.table, hsearches, hthreads]

/-- Only what is under this number has changed. -/
theorem table_ne {rq : Int32} (hsessions : s₁.peerSessions = s.peerSessions)
    (hsearches : ∀ k, k ≠ rq → s₁.activeSearches.lookup k = s.activeSearches.lookup k)
    (hthreads : ∀ k started, k ≠ rq →
      s₁.timeoutThreads.count (k, started) = s.timeoutThreads.count (k, started)) :
    ∀ r, r ≠ some rq → s₁.table r = s.table r := by
  intro r hr
  cases r with
  | none => exact hsessions
  | some k =>
    have hk : k ≠ rq := fun h => hr (congrArg some h)
    simp only [Server.table, hsearches k hk, hthreads k _ hk]

theorem confined_register (hr : requestOf m = some .register) : Confined (.handle m) none := by
  cases requestOf_asks hr with
  | @register name rq hcommand hname hrq =>
    refine ⟨fun z =>
      if (z.lookup (getPeerIdentifier m.clientAddr)).isSome then
        some (z, [(.registerDenied rq "Peer already registered", m.clientAddr)])
      else
        some (z.insert (getPeerIdentifier m.clientAddr) (some {peerAddr := m.clientAddr}),
          [(.registered rq, m.clientAddr)]), fun s => ?_⟩
    have hsection := section_handle (s := s) hr rfl
      ((dispatch_eq hcommand rfl).trans (handleRegister_eq hname hrq))
    rw [Server.atTime_peerSessions] at hsection
    by_cases hknown : (s.peerSessions.lookup (getPeerIdentifier m.clientAddr)).isSome
    · rw [if_pos hknown] at hsection
      exact obeys_some _ (if_pos hknown) hsection rfl (table_some rfl rfl)
    · rw [if_neg hknown] at hsection
      exact obeys_some _ (if_neg hknown) hsection rfl (table_some rfl rfl)

theorem confined_deregister (hr : requestOf m = some .deregister) :
    Confined (.handle m) none := by
  cases requestOf_asks hr with
  | deregister hcommand hname =>
    exact ⟨fun z => some (z.erase (getPeerIdentifier m.clientAddr), []), fun s =>
      obeys_some _ rfl (section_handle hr rfl
        ((dispatch_eq hcommand rfl).trans (handleDeregister_eq hname))) rfl (table_some rfl rfl)⟩

theorem obeys_offer {rq : Int32} {offer : OfferInfo P} (hr : requestOf m = some (.offer rq offer)) :
    s.Obeys (r := some rq) (.handle m) (some
      (((s.activeSearches.lookup rq).map (·.join m.now offer),
        fun started => s.timeoutThreads.count (rq, started)), [])) := by
  cases requestOf_asks hr with
  | offer hcommand hread =>
    have hsection := section_handle (s := s) hr rfl
      ((dispatch_eq hcommand rfl).trans (handleOffer_eq hread))
    rw [recordOffer_eq] at hsection
    refine obeys_some _ rfl hsection (Prod.ext (lookup_offer ..) rfl) (table_ne rfl ?_ ?_)
    · exact fun k hk => lookup_apply_of_ne (e := .offer rq m.now offer) hk
    · exact fun k started _ => rfl

theorem storeSearch_eq (h : soughtBy m = some L) (s : Server P) :
    storeSearch m.message m.clientAddr (s.atTime m.now) =
      .ok (L.rq, L.item) (((s.atTime m.now).detach L.rq).setSearch L.request L.rq) := by
  cases soughtBy_asks h with
  | lookingFor hcommand hread hdescription =>
    obtain ⟨hrq, hitem, hmax, hname, haddr, hnow⟩ := readLookingFor_ok hread
    rw [storeSearch, readKey_of_reads hrq, readKey_of_reads hitem, readKey_of_reads hmax,
      readKey_of_reads hname, LookingFor.request, haddr, hnow]
    rfl

/-- The server that has stored the search. -/
def Server.stored (s : Server P) (now : Int) (L : LookingFor P) : Server P :=
  ((s.atTime now).detach L.rq).setSearch L.request L.rq

theorem section_store (h : soughtBy m = some L) :
    s.sectionStep (.store m) = some (s.stored m.now L, []) := by
  simp only [Server.sectionStep, h, storeSearch_eq h s]
  rfl

theorem obeys_store (h : soughtBy m = some L) :
    s.Obeys (r := some L.rq) (.store m) (some ((some L.request, fun started =>
      s.timeoutThreads.count (L.rq, started) + if m.now = started then 1 else 0), [])) := by
  refine obeys_some _ rfl (section_store h) ?_ (table_ne rfl ?_ ?_)
  · refine Prod.ext (AList.lookup_insert _) (funext fun started => ?_)
    show (s.timeoutThreads ++ [(L.rq, m.now)]).count (L.rq, started) = _
    rw [List.count_append, List.count_singleton]
    simp [beq_iff_eq]
  · exact fun k hk => AList.lookup_insert_ne hk
  · intro k started hk
    show (s.timeoutThreads ++ [(L.rq, m.now)]).count (k, started) = _
    rw [List.count_append, List.count_singleton]
    simp [Ne.symm hk]

theorem obeys_timer (rq : Int32) (started : Int) :
    s.Obeys (r := some rq) (.timer rq started)
      (if 0 < s.timeoutThreads.count (rq, started) then
        some ((timed (s.activeSearches.lookup rq), fun other =>
            s.timeoutThreads.count (rq, other) - if started = other then 1 else 0),
          ((pending s.activeSearches rq).map verdict).toList)
      else none) := by
  by_cases hthread : (rq, started) ∈ s.timeoutThreads
  case neg =>
    exact obeys_none (if_neg fun h => hthread (List.count_pos_iff.mp h)) (if_neg hthread)
  case pos =>
    have hsection : s.sectionStep (.timer rq started) = some (processOffersAfterTimeout rq
        {s with timeoutThreads := s.timeoutThreads.erase (rq, started), outbox := []}).flush :=
      if_pos hthread
    rw [processOffersAfterTimeout_eq] at hsection
    refine obeys_some _ (if_pos (List.count_pos_iff.mpr hthread)) hsection ?_ (table_ne rfl ?_ ?_)
    · refine Prod.ext (lookup_timer _ _) (funext fun other => ?_)
      show (s.timeoutThreads.erase (rq, started)).count (rq, other) = _
      rw [List.count_erase]
      simp
    · exact fun k hk => lookup_apply_of_ne (e := .timer rq) hk
    · intro k other hk
      show (s.timeoutThreads.erase (rq, started)).count (k, other) = _
      rw [List.count_erase]
      simp [Ne.symm hk]

theorem broadcastSearch_eq {description : Json P}
    (hdescription : m.message.index "description" = .ok description) (s : Server P) :
    broadcastSearch m.message m.clientAddr L.rq L.item s =
      .ok () (s.sendAll (.search L.rq L.item description)
        (recipients (getPeerIdentifier m.clientAddr) s.peerSessions.entries)) := by
  rw [broadcastSearch, readKey_of_index hdescription]
  exact broadcast_eq ..

theorem confined_broadcast (h : soughtBy m = some L) : Confined (.broadcast m) none := by
  cases soughtBy_asks h with
  | @lookingFor _ description hcommand hread hdescription =>
    refine ⟨fun z => some (z, (recipients (getPeerIdentifier m.clientAddr) z.entries).map
      (.search L.rq L.item description, ·)), fun s => ?_⟩
    have hsection : s.sectionStep (.broadcast m) = some
        (((s.atTime m.now).sendAll (.search L.rq L.item description)
          (recipients (getPeerIdentifier m.clientAddr) s.peerSessions.entries)).finish
            m.message m.clientAddr).flush := by
      simp only [Server.sectionStep, h, broadcastSearch_eq hdescription, Server.atTime_peerSessions]
    exact obeys_some _ rfl hsection rfl (table_some rfl rfl)

/-- **Every section is confined to the table of its lock**, of which it sees no more than
one number. -/
theorem confined (l : Section P) : Confined l l.on := by
  cases l with
  | handle m =>
    cases hr : requestOf m with
    | none =>
      rw [Section.on, hr]
      exact confined_none fun s => if_neg (by simp [hr])
    | some r =>
      rw [Section.on, hr]
      cases r with
      | register => exact confined_register hr
      | deregister => exact confined_deregister hr
      | offer rq offer =>
        exact ⟨fun z => some ((z.1.map (·.join m.now offer), z.2), []), fun s => obeys_offer hr⟩
      | lookingFor L =>
        exact confined_none fun s => if_neg (by simp [soughtBy, hr, Request.search?])
  | store m =>
    cases hsearch : soughtBy m with
    | none =>
      rw [Section.on, hsearch]
      exact confined_none fun s => by simp only [Server.sectionStep, hsearch]
    | some L =>
      rw [Section.on, hsearch]
      exact ⟨fun z => some ((some L.request, fun started =>
        z.2 started + if m.now = started then 1 else 0), []), fun s => obeys_store hsearch⟩
  | broadcast m =>
    cases hsearch : soughtBy m with
    | none => exact confined_none fun s => by simp only [Server.sectionStep, hsearch]
    | some L => exact confined_broadcast hsearch
  | timer rq started =>
    exact ⟨fun z => if 0 < z.2 started then
        some ((timed z.1, fun other => z.2 other - if started = other then 1 else 0),
          ((z.1.filter fun search => !search.offersProcessed).map verdict).toList)
      else none, fun s => obeys_timer rq started⟩

end Confined

variable (P) in
/-- The locks' tables. -/
def tables : Tabled (sectionMachine P) (TableOf P) where
  on := Section.on
  view r s := s.table r
  step := by
    intro s t s' l o hsame hstep
    obtain ⟨F, hF⟩ := confined l
    obtain ⟨heffect, -⟩ := (hF s).of_step hstep
    have ht := hF t
    rw [← hsame, heffect] at ht
    obtain ⟨t', ht', htable, -⟩ := ht
    exact ⟨t', ht', htable.symm⟩
  frame := by
    intro s s' l o r hr hstep
    obtain ⟨F, hF⟩ := confined l
    exact ((hF s).of_step hstep).2 r hr

/-! ### Handlers that run without interruption -/

def Section.stores : Section P → Option (Handling P)
  | .store m => (soughtBy m).map fun _ => m
  | _ => none

def Section.broadcasts : Section P → Option (Handling P)
  | .broadcast m => (soughtBy m).map fun _ => m
  | _ => none

variable (P) in
/-- A search is a transaction. -/
def searching : Transactions (Section P × Sent P) (Handling P) Int32 where
  on e := e.1.on
  opened e := e.1.stores
  closed e := e.1.broadcasts
  key m := ((soughtBy m).map LookingFor.rq).getD 0
  opened_on := by
    rintro ⟨l, sent⟩ t h
    cases l with
    | store m =>
      obtain ⟨L, hsearch, rfl⟩ := Option.map_eq_some_iff.mp h
      simp only [Section.on, hsearch, Option.map_some, Option.getD_some]
    | handle | broadcast | timer => cases h
  closed_on := by
    rintro ⟨l, sent⟩ t h
    cases l with
    | broadcast m => rfl
    | handle | store | timer => cases h

section Doings
variable {s s' : Server P} {m : Handling P} {L : LookingFor P} {sent : Sent P}

variable {tr : List (Section P × Sent P)}

end Doings

end P2PShopping
