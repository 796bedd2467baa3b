import P2PShopping.Util.ConcurrentQueue

/-! The event thread and `stop`.

`processEvents` looks at `running_`, waits for an event, processes it and looks again;
`stop` clears the flag and joins the thread. The flag is not part of what the queue's
monitor waits for: a thread that waits already takes one more event if there is one, and
otherwise nothing wakes it, so that `stop` returns exactly when the thread is not waiting
at an empty queue, or when a worker pushes an event after all (`stop_returns_iff`).

The constructor starts the thread in its initializer list, before `running_` and the
queue are initialised, so that its first look may read either too early. That is left
out: the thread starts here when the constructor is through. -/
namespace P2PShopping
open Runs Monitors

/-- Where `processEvents` stands. -/
inductive Place (E : Type) where
  /-- At `while (running_)`. -/
  | top
  /-- In `wait_and_pop`. -/
  | waiting
  | handling (event : E)
  | left

structure EventThread (E : Type) where
  queue : QueueState E := .start [] 1
  place : Place E := .top
  running : Bool := true
  /-- Whether `stop` has returned, once it has been called. -/
  stopped : Option Bool := none

inductive LoopMove (E : Type) where
  /-- A worker's `push`, up to its `unlock`. -/
  | push (event : E)
  | notifyOne (picked : Option Nat)
  | check
  /-- The event thread has the queue's mutex. -/
  | look
  | spurious
  /-- The event is processed. -/
  | finish
  | stop
  | join

inductive LoopOutput (E : Type) where
  | taken (event : E)
  | processed (event : E)

namespace EventThread
variable {E : Type}

def enter (t : EventThread E) (a : Action E) : Option (EventThread E × Effect E) :=
  ((ConcurrentQueue.monitor E).step t.queue a).map fun r => ({t with queue := r.1}, r.2)

/-- A step at the queue that the loop does not notice. -/
def unnoticed (t : EventThread E) (a : Action E) : Option (EventThread E × Option (LoopOutput E)) :=
  (t.enter a).map fun r => (r.1, none)

def look (t : EventThread E) : Option (EventThread E × Option (LoopOutput E)) :=
  (t.enter (.look 0)).map fun r =>
    match r.2.passed? with
    | some event => ({r.1 with place := .handling event}, some (.taken event))
    | none => (r.1, none)

def step (t : EventThread E) : LoopMove E → Option (EventThread E × Option (LoopOutput E))
  | .push event => t.unnoticed (.act event)
  | .notifyOne picked => t.unnoticed (.notifyOne picked)
  | .spurious => t.unnoticed (.spurious 0)
  | .check =>
    match t.place with
    | .top =>
      if t.running then {t with place := .waiting}.unnoticed (.call 0)
      else some ({t with place := .left}, none)
    | _ => none
  | .look => t.look
  | .finish =>
    match t.place with
    | .handling event => some ({t with place := .top}, some (.processed event))
    | _ => none
  | .stop =>
    match t.stopped with
    | none => some ({t with running := false, stopped := some false}, none)
    | some _ => none
  | .join =>
    match t.stopped, t.place with
    | some false, .left => some ({t with stopped := some true}, none)
    | _, _ => none

/-- The thread waits and there is nothing to wait for. -/
def Blocked (t : EventThread E) : Prop := t.place = .waiting ∧ t.queue.shared = []

/-- `stop` has returned. -/
def Returned (t : EventThread E) : Prop := t.stopped = some true

/-- `stop` has been called. -/
def Stopping (t : EventThread E) : Prop := t.stopped ≠ none

end EventThread

def eventLoop (E : Type) : Machine (EventThread E) (LoopMove E) (Option (LoopOutput E)) where
  step := EventThread.step

/-! ### What one step does -/

section Step
variable {E : Type} {t t' : EventThread E} {l : LoopMove E} {o : Option (LoopOutput E)}

inductive LoopStepped (t : EventThread E) :
    LoopMove E → Option (LoopOutput E) → EventThread E → Prop where
  | push {event : E} {r : Effect E} {queue : QueueState E} :
      Advance (ConcurrentQueue.monitor E) t.queue (.act event) r queue →
      LoopStepped t (.push event) none {t with queue}
  | notifyOne {picked : Option Nat} {r : Effect E} {queue : QueueState E} :
      Advance (ConcurrentQueue.monitor E) t.queue (.notifyOne picked) r queue →
      LoopStepped t (.notifyOne picked) none {t with queue}
  | spurious {r : Effect E} {queue : QueueState E} :
      Advance (ConcurrentQueue.monitor E) t.queue (.spurious 0) r queue →
      LoopStepped t .spurious none {t with queue}
  | called {r : Effect E} {queue : QueueState E} : t.place = .top → t.running = true →
      Advance (ConcurrentQueue.monitor E) t.queue (.call 0) r queue →
      LoopStepped t .check none {t with queue, place := .waiting}
  | left : t.place = .top → t.running = false →
      LoopStepped t .check none {t with place := .left}
  | slept {r : Effect E} {queue : QueueState E} : r.passed? = none →
      Advance (ConcurrentQueue.monitor E) t.queue (.look 0) r queue →
      LoopStepped t .look none {t with queue}
  | taken {event : E} {r : Effect E} {queue : QueueState E} : r.passed? = some event →
      Advance (ConcurrentQueue.monitor E) t.queue (.look 0) r queue →
      LoopStepped t .look (some (.taken event)) {t with queue, place := .handling event}
  | processed {event : E} : t.place = .handling event →
      LoopStepped t .finish (some (.processed event)) {t with place := .top}
  | stopped : t.stopped = none →
      LoopStepped t .stop none {t with running := false, stopped := some false}
  | joined : t.stopped = some false → t.place = .left →
      LoopStepped t .join none {t with stopped := some true}

theorem enter_advance {a : Action E} {r : EventThread E × Effect E} (h : t.enter a = some r) :
    ∃ queue, Advance (ConcurrentQueue.monitor E) t.queue a r.2 queue ∧
      r.1 = {t with queue} := by
  obtain ⟨⟨queue, effect⟩, hstep, rfl⟩ := Option.map_eq_some_iff.mp h
  exact ⟨queue, advance hstep, rfl⟩

theorem unnoticed_advance {a : Action E} (h : t.unnoticed a = some (t', o)) :
    ∃ r queue, Advance (ConcurrentQueue.monitor E) t.queue a r queue ∧
      t' = {t with queue} ∧ o = none := by
  obtain ⟨r, henter, heq⟩ := Option.map_eq_some_iff.mp h
  obtain ⟨queue, hadvance, hr⟩ := enter_advance henter
  cases heq
  exact ⟨r.2, queue, hadvance, hr, rfl⟩

theorem loop_stepped (h : (eventLoop E).step t l = some (t', o)) : LoopStepped t l o t' := by
  simp only [eventLoop, EventThread.step] at h
  cases l with
  | push event =>
    obtain ⟨r, queue, hadvance, rfl, rfl⟩ := unnoticed_advance h
    exact .push hadvance
  | notifyOne picked =>
    obtain ⟨r, queue, hadvance, rfl, rfl⟩ := unnoticed_advance h
    exact .notifyOne hadvance
  | spurious =>
    obtain ⟨r, queue, hadvance, rfl, rfl⟩ := unnoticed_advance h
    exact .spurious hadvance
  | check =>
    simp only at h
    split at h
    case h_2 => cases h
    case h_1 htop =>
      split at h
      case isTrue hrunning =>
        obtain ⟨r, queue, hadvance, rfl, rfl⟩ := unnoticed_advance h
        exact .called htop hrunning hadvance
      case isFalse hstop =>
        cases h
        exact .left htop (eq_false_of_ne_true hstop)
  | look =>
    obtain ⟨r, henter, heq⟩ := Option.map_eq_some_iff.mp h
    obtain ⟨queue, hadvance, hr⟩ := enter_advance henter
    split at heq
    case h_1 event hpassed =>
      cases heq
      rw [hr]
      exact .taken hpassed hadvance
    case h_2 hpassed =>
      cases heq
      rw [hr]
      exact .slept hpassed hadvance
  | finish =>
    simp only at h
    split at h
    case h_2 => cases h
    case h_1 event hplace =>
      cases h
      exact .processed hplace
  | stop =>
    simp only at h
    split at h
    case h_2 => cases h
    case h_1 hnone =>
      cases h
      exact .stopped hnone
  | join =>
    simp only at h
    split at h
    case h_2 => cases h
    case h_1 hstopped hleft =>
      cases h
      exact .joined hstopped hleft

end Step

/-! ### Every event once, in order -/

section Order
variable {E : Type}

def LoopOutput.taken? : LoopOutput E → Option E
  | .taken event => some event
  | _ => none

def LoopOutput.processed? : LoopOutput E → Option E
  | .processed event => some event
  | _ => none

def LoopMove.pushed? : LoopMove E → Option E
  | .push event => some event
  | _ => none

def Place.isWaiting : Place E → Bool
  | .waiting => true
  | _ => false

def Place.event? : Place E → Option E
  | .handling event => some event
  | _ => none

abbrev LoopHistory (E : Type) := List (LoopMove E × Option (LoopOutput E))

def takenEvents (tr : LoopHistory E) : List E := tr.filterMap (·.2.bind LoopOutput.taken?)
def processedEvents (tr : LoopHistory E) : List E := tr.filterMap (·.2.bind LoopOutput.processed?)
def pushedEvents (tr : LoopHistory E) : List E := tr.filterMap (·.1.pushed?)

section Snoc
variable (tr : LoopHistory E) (l : LoopMove E) (o : Option (LoopOutput E))

theorem takenEvents_snoc :
    takenEvents (tr ++ [(l, o)]) = takenEvents tr ++ (o.bind LoopOutput.taken?).toList := by
  cases h : o.bind LoopOutput.taken? <;> simp [takenEvents, h]

theorem processedEvents_snoc :
    processedEvents (tr ++ [(l, o)]) =
      processedEvents tr ++ (o.bind LoopOutput.processed?).toList := by
  cases h : o.bind LoopOutput.processed? <;> simp [processedEvents, h]

theorem pushedEvents_snoc :
    pushedEvents (tr ++ [(l, o)]) = pushedEvents tr ++ l.pushed?.toList := by
  cases h : l.pushed? <;> simp [pushedEvents, h]

end Snoc

variable {t t' : EventThread E} {l : LoopMove E} {o : Option (LoopOutput E)}
  {tr : LoopHistory E}

/-- The events a history has put in, wherever they are now. -/
structure EventsKept (tr : LoopHistory E) (t : EventThread E) : Prop where
  queued : takenEvents tr ++ t.queue.shared = pushedEvents tr
  held : processedEvents tr ++ t.place.event?.toList = takenEvents tr

theorem queued_loop_step (h : LoopStepped t l o t') :
    (o.bind LoopOutput.taken?).toList ++ t'.queue.shared =
      t.queue.shared ++ l.pushed?.toList := by
  cases h with
  | push hq =>
    cases hq with
    | acted hact =>
      cases hact
      rfl
  | notifyOne hq =>
    cases hq with
    | unheard | notified => exact (List.append_nil _).symm
  | spurious hq =>
    cases hq with
    | woke => exact (List.append_nil _).symm
  | called htop hrunning hq =>
    cases hq with
    | called => exact (List.append_nil _).symm
  | left | processed | stopped | joined => exact (List.append_nil _).symm
  | slept hr hq =>
    cases hq with
    | slept => exact (List.append_nil _).symm
    | passed => cases hr
  | taken hr hq =>
    cases hq with
    | slept => cases hr
    | passed hi hpass =>
      cases hr
      exact queue_step (.passed hi hpass)

/-- The event thread has one event at a time. -/
theorem held_loop_step (hplace : ∀ event, t.place = .handling event → l ≠ .look)
    (h : LoopStepped t l o t') :
    (o.bind LoopOutput.processed?).toList ++ t'.place.event?.toList =
      t.place.event?.toList ++ (o.bind LoopOutput.taken?).toList := by
  cases h with
  | push | notifyOne | spurious | slept | stopped | joined => exact (List.append_nil _).symm
  | called htop | left htop =>
    rw [htop]
    rfl
  | taken hr hq =>
    have hfree : t.place.event? = none := by
      cases hevent : t.place with
      | handling event => exact absurd rfl (hplace event hevent)
      | top | waiting | left => rfl
    rw [hfree]
    rfl
  | processed hevent =>
    rw [hevent]
    rfl

end Order

/-! ### What holds in every run -/

section Invariant
variable {E : Type} {t t' : EventThread E} {l : LoopMove E} {o : Option (LoopOutput E)}

/-- The one thread at the queue, by where its loop stands. -/
def Place.Fits : Place E → List (Waiter E) → Prop
  | .waiting, ws => ws = [.awake] ∨ ws = [.asleep]
  | _, ws => ∃ last, ws = [.away last]

structure Looping (t : EventThread E) : Prop where
  fits : t.place.Fits t.queue.waiters
  watched : (ConcurrentQueue.law E).Watched t.queue
  /-- Nobody calls `notify_all`. -/
  ones : t.queue.owedAll = 0
  running : t.running = t.stopped.isNone
  /-- The thread leaves its loop only after the stop, and `stop` returns only after that. -/
  left : t.place = .left → t.running = false
  returned : t.Returned → t.place = .left

theorem looping_new : Looping ({} : EventThread E) where
  fits := ⟨none, rfl⟩
  watched := watched_start _ _ _
  ones := rfl
  running := rfl
  left := fun h => by cases h
  returned := fun h => by cases h

/-- A thread that the queue knows awake or asleep is in `wait_and_pop`. -/
theorem Place.waiting_of_fits {place : Place E} {ws : List (Waiter E)} {w : Waiter E} {i : Nat}
    (h : place.Fits ws) (hi : ws[i]? = some w) (hw : ∀ last, w ≠ .away last) :
    place = .waiting ∧ i = 0 := by
  have hone : ∀ x : Waiter E, ws = [x] → i = 0 ∧ x = w := by
    rintro x rfl
    cases i with
    | zero => exact ⟨rfl, Option.some.inj hi⟩
    | succ i => cases hi
  cases place with
  | waiting =>
    refine ⟨rfl, ?_⟩
    rcases h with h | h
    · exact (hone _ h).1
    · exact (hone _ h).1
  | top | handling | left =>
    obtain ⟨last, hlast⟩ := h
    exact absurd (hone _ hlast).2.symm (hw last)

/-- There is no other thread at the queue. -/
theorem Place.set_of_fits {place : Place E} {ws : List (Waiter E)} (h : place.Fits ws)
    (w : Waiter E) : ws.set 0 w = [w] := by
  cases place with
  | waiting => rcases h with rfl | rfl <;> rfl
  | top | handling | left =>
    obtain ⟨last, rfl⟩ := h
    rfl

theorem fits_step (h : t.place.Fits t.queue.waiters) (hstep : LoopStepped t l o t') :
    t'.place.Fits t'.queue.waiters := by
  cases hstep with
  | push hq =>
    cases hq with
    | acted => exact h
  | notifyOne hq =>
    cases hq with
    | unheard => exact h
    | notified howed hi =>
      obtain ⟨hplace, rfl⟩ := Place.waiting_of_fits h hi (by simp)
      show t.place.Fits (t.queue.waiters.set 0 .awake)
      rw [Place.set_of_fits h, hplace]
      exact .inl rfl
  | spurious hq =>
    cases hq with
    | woke hi =>
      obtain ⟨hplace, -⟩ := Place.waiting_of_fits h hi (by simp)
      show t.place.Fits (t.queue.waiters.set 0 .awake)
      rw [Place.set_of_fits h, hplace]
      exact .inl rfl
  | called htop hrunning hq =>
    cases hq with
    | called => exact .inl (Place.set_of_fits h _)
  | left htop hstop =>
    rw [htop] at h
    exact h
  | slept hr hq =>
    cases hq with
    | passed => cases hr
    | slept hi =>
      obtain ⟨hplace, -⟩ := Place.waiting_of_fits h hi (by simp)
      show t.place.Fits (t.queue.waiters.set 0 .asleep)
      rw [Place.set_of_fits h, hplace]
      exact .inr rfl
  | taken hr hq =>
    cases hq with
    | slept => cases hr
    | passed => exact ⟨_, Place.set_of_fits h _⟩
  | processed hevent =>
    rw [hevent] at h
    exact h
  | stopped | joined => exact h

theorem watched_loop_step (h : (ConcurrentQueue.law E).Watched t.queue)
    (hstep : LoopStepped t l o t') : (ConcurrentQueue.law E).Watched t'.queue := by
  cases hstep with
  | push hq | notifyOne hq | spurious hq => exact watched_step h hq
  | called htop hrunning hq => exact watched_step h hq
  | slept hr hq | taken hr hq => exact watched_step h hq
  | left | processed | stopped | joined => exact h

theorem ones_step (h : t.queue.owedAll = 0) (hstep : LoopStepped t l o t') :
    t'.queue.owedAll = 0 := by
  cases hstep with
  | push hq =>
    cases hq with
    | acted hact =>
      cases hact
      exact h
  | notifyOne hq =>
    cases hq with
    | unheard | notified => exact h
  | spurious hq =>
    cases hq with
    | woke => exact h
  | called htop hrunning hq =>
    cases hq with
    | called => exact h
  | slept hr hq | taken hr hq =>
    cases hq with
    | slept | passed => exact h
  | left | processed | stopped | joined => exact h

theorem looping_step (h : Looping t) (hstep : LoopStepped t l o t') : Looping t' := by
  refine ⟨fits_step h.fits hstep, watched_loop_step h.watched hstep, ones_step h.ones hstep,
    ?_, ?_, ?_⟩
  · cases hstep with
    | push | notifyOne | spurious | called | left | slept | taken | processed => exact h.running
    | stopped hnone => rfl
    | joined hstopped hleft => exact h.left hleft
  · intro hleft
    cases hstep with
    | push | notifyOne | spurious | slept | joined => exact h.left hleft
    | called | taken | processed => cases hleft
    | left htop hstop => exact hstop
    | stopped => rfl
  · intro hreturned
    cases hstep with
    | push | notifyOne | spurious | slept => exact h.returned hreturned
    | called htop =>
      rw [h.returned hreturned] at htop
      cases htop
    | left => rfl
    | processed hevent =>
      rw [h.returned hreturned] at hevent
      cases hevent
    | taken hr hq =>
      -- A thread that has left the loop is not at the queue.
      cases hq with
      | slept => cases hr
      | passed hi =>
        have hplace := (Place.waiting_of_fits h.fits hi (by simp)).1
        rw [h.returned hreturned] at hplace
        cases hplace
    | stopped => cases hreturned
    | joined hstopped hleft => exact hleft

variable {tr : LoopHistory E}

theorem looping_run (h : Run (eventLoop E) {} tr t) : Looping t :=
  h.invariant (fun _ t => Looping t) looping_new
    fun _ _ _ _ _ _ hI hstep => looping_step hI (loop_stepped hstep)

theorem events_kept_run (h : Run (eventLoop E) {} tr t) : EventsKept tr t := by
  refine h.invariant EventsKept ⟨rfl, rfl⟩ ?_
  intro tr t l t' o hrun ih hstep
  have hstepped := loop_stepped hstep
  have hlooping := looping_run hrun
  constructor
  · rw [takenEvents_snoc, pushedEvents_snoc, List.append_assoc, queued_loop_step hstepped,
      ← List.append_assoc, ih.queued]
  · rw [processedEvents_snoc, takenEvents_snoc, List.append_assoc, held_loop_step ?_ hstepped,
      ← List.append_assoc, ih.held]
    rintro event hevent rfl
    cases hstepped with
    | slept hr hq =>
      cases hq with
      | passed => cases hr
      | slept hi =>
        have hplace := (Place.waiting_of_fits hlooping.fits hi (by simp)).1
        rw [hevent] at hplace
        cases hplace
    | taken hr hq =>
      cases hq with
      | slept => cases hr
      | passed hi =>
        have hplace := (Place.waiting_of_fits hlooping.fits hi (by simp)).1
        rw [hevent] at hplace
        cases hplace

end Invariant

/-! ### After the stop -/

section Stop
variable {E : Type} {t t' : EventThread E} {l : LoopMove E} {o : Option (LoopOutput E)}
  {front tr : LoopHistory E}

/-- How many events the loop still takes once `running_` is false. -/
def Place.budget : Place E → Nat
  | .waiting => 1
  | _ => 0

theorem stopping_step (hstop : t.Stopping) (h : LoopStepped t l o t') : t'.Stopping := by
  cases h with
  | push | notifyOne | spurious | called | left | slept | taken | processed => exact hstop
  | stopped | joined => exact Option.some_ne_none _

theorem budget_step (hlooping : Looping t) (hstop : t.Stopping) (h : LoopStepped t l o t') :
    (o.bind LoopOutput.taken?).toList.length + t'.place.budget ≤ t.place.budget := by
  have hclear : t.running = false := by
    rw [hlooping.running]
    obtain ⟨b, hb⟩ := Option.ne_none_iff_exists'.mp hstop
    rw [hb]
    rfl
  cases h with
  | push | notifyOne | spurious | slept | stopped | joined => exact Nat.le_of_eq (Nat.zero_add _)
  | called htop hrunning =>
    rw [hclear] at hrunning
    cases hrunning
  | left | processed => exact Nat.zero_le _
  | taken hr hq =>
    cases hq with
    | slept => cases hr
    | passed hi =>
      rw [(Place.waiting_of_fits hlooping.fits hi (by simp)).1]
      exact Nat.le_refl 1

/-- **After the stop the loop takes at most one more event.** -/
theorem taken_after_stop (hlooping : Looping t) (hstop : t.Stopping)
    (h : Run (eventLoop E) t tr t') : (takenEvents tr).length ≤ 1 := by
  have hbudget : Looping t' ∧ t'.Stopping ∧
      (takenEvents tr).length + t'.place.budget ≤ t.place.budget := by
    refine h.invariant (fun tr t' => Looping t' ∧ t'.Stopping ∧
      (takenEvents tr).length + t'.place.budget ≤ t.place.budget)
      ⟨hlooping, hstop, Nat.le_of_eq (Nat.zero_add _)⟩ ?_
    intro tr t₁ l t₂ o _ ih hstep
    have hstepped := loop_stepped hstep
    have hnext := budget_step ih.1 ih.2.1 hstepped
    refine ⟨looping_step ih.1 hstepped, stopping_step ih.2.1 hstepped, ?_⟩
    rw [takenEvents_snoc, List.length_append]
    have hbefore := ih.2.2
    omega
  have hone : t.place.budget ≤ 1 := by cases t.place <;> simp [Place.budget]
  omega

/-- A worker's step. -/
def LoopMove.outside : LoopMove E → Bool
  | .push _ => true
  | _ => false

def LoopMove.chance : LoopMove E → Bool
  | .spurious => true
  | _ => false

/-- No worker pushes. -/
def Unfed (t : EventThread E) (tr : LoopHistory E) : Prop :=
  StepsMeet (eventLoop E) (fun _ l => l.outside = false) t tr

/-- Nothing wakes a thread that waits at an empty queue for good. -/
theorem blocked_step (hblocked : t.Blocked) (hl : l.outside = false)
    (h : LoopStepped t l o t') : t'.Blocked := by
  obtain ⟨hplace, hempty⟩ := hblocked
  cases h with
  | push => cases hl
  | notifyOne hq =>
    cases hq with
    | unheard | notified => exact ⟨hplace, hempty⟩
  | spurious hq =>
    cases hq with
    | woke => exact ⟨hplace, hempty⟩
  | called htop | left htop =>
    rw [hplace] at htop
    cases htop
  | slept hr hq =>
    cases hq with
    | passed => cases hr
    | slept => exact ⟨hplace, hempty⟩
  | taken hr hq =>
    cases hq with
    | slept => cases hr
    | passed hi hpass =>
      rw [hempty] at hpass
      cases hpass
  | processed hevent =>
    rw [hplace] at hevent
    cases hevent
  | stopped | joined => exact ⟨hplace, hempty⟩

theorem not_returned_of_blocked (hlooping : Looping t) (hblocked : t.Blocked)
    (h : Run (eventLoop E) t tr t') (hunfed : Unfed t tr) : ¬ t'.Returned := by
  have hinv : Looping t' ∧ t'.Blocked := by
    refine h.invariant_of _ (fun _ t' => Looping t' ∧ t'.Blocked) ⟨hlooping, hblocked⟩ ?_ hunfed
    intro tr t₁ l t₂ o _ ih hl hstep
    have hstepped := loop_stepped hstep
    exact ⟨looping_step ih.1 hstepped, blocked_step ih.2 hl hstepped⟩
  intro hreturned
  have hleft := hinv.1.returned hreturned
  rw [hinv.2.1] at hleft
  cases hleft

/-! ### `stop` returns -/

/-- How far the thread is from being joined once `running_` is false. -/
def Place.distance (queue : QueueState E) : Place E → Nat
  | .left => 1
  | .top => 2
  | .handling _ => 3
  | .waiting => 3 + queue.awake + 2 * queue.asleep

def EventThread.toGo (t : EventThread E) : Nat :=
  t.queue.owedOne + if t.stopped = some true then 0 else t.place.distance t.queue

theorem toGo_of_place (h : Looping t) (hplace : t.place ≠ .left) :
    t.toGo = t.queue.owedOne + t.place.distance t.queue := by
  have hgoing : t.stopped ≠ some true := fun hreturned => hplace (h.returned hreturned)
  rw [EventThread.toGo, if_neg hgoing]

theorem stopping_clear (h : Looping t) (hstop : t.Stopping) : t.running = false := by
  rw [h.running]
  obtain ⟨b, hb⟩ := Option.ne_none_iff_exists'.mp hstop
  rw [hb]
  rfl

theorem free_step (h : Looping t) (hstop : t.Stopping) (hfree : ¬ t.Blocked)
    (hl : l.outside = false) (hstep : LoopStepped t l o t') : ¬ t'.Blocked := by
  rintro ⟨hplace, hempty⟩
  cases hstep with
  | push => cases hl
  | notifyOne hq =>
    cases hq with
    | unheard | notified => exact hfree ⟨hplace, hempty⟩
  | spurious hq =>
    cases hq with
    | woke => exact hfree ⟨hplace, hempty⟩
  | called htop hrunning =>
    rw [stopping_clear h hstop] at hrunning
    cases hrunning
  | slept hr hq =>
    cases hq with
    | passed => cases hr
    | slept => exact hfree ⟨hplace, hempty⟩
  | left | taken | processed => cases hplace
  | stopped | joined => exact hfree ⟨hplace, hempty⟩

/-- **After the stop every step brings the thread closer to the end of its loop.** -/
theorem toGo_step (h : Looping t) (hstop : t.Stopping) (hfree : ¬ t.Blocked)
    (hl : l.outside = false) (hstep : LoopStepped t l o t') : t'.toGo + 1 ≤ t.toGo := by
  have hlooping' := looping_step h hstep
  cases hstep with
  | push => cases hl
  | notifyOne hq =>
    cases hq with
    | @unheard owed howed hnone =>
      show owed + (if t.stopped = some true then 0 else t.place.distance t.queue) + 1 ≤ t.toGo
      rw [EventThread.toGo, howed]
      omega
    | @notified owed i howed hi =>
      obtain ⟨hplace, -⟩ := Place.waiting_of_fits h.fits hi (by simp)
      have hawake := awake_setWaiter hi .awake
      have hasleep := asleep_setWaiter hi .awake
      rw [toGo_of_place h (by simp [hplace]), toGo_of_place hlooping' (by simp [hplace]), hplace]
      simp only [Waiter.isAwake, Waiter.isAsleep, Bool.false_eq_true, if_false, if_true]
        at hawake hasleep
      show owed + (3 + (t.queue.setWaiter i .awake).awake +
        2 * (t.queue.setWaiter i .awake).asleep) + 1 ≤ t.queue.owedOne +
          (3 + t.queue.awake + 2 * t.queue.asleep)
      omega
  | spurious hq =>
    cases hq with
    | woke hi =>
      obtain ⟨hplace, -⟩ := Place.waiting_of_fits h.fits hi (by simp)
      have hawake := awake_setWaiter hi .awake
      have hasleep := asleep_setWaiter hi .awake
      rw [toGo_of_place h (by simp [hplace]), toGo_of_place hlooping' (by simp [hplace]), hplace]
      simp only [Waiter.isAwake, Waiter.isAsleep, Bool.false_eq_true, if_false, if_true]
        at hawake hasleep
      show t.queue.owedOne + (3 + (t.queue.setWaiter 0 .awake).awake +
        2 * (t.queue.setWaiter 0 .awake).asleep) + 1 ≤ t.queue.owedOne +
          (3 + t.queue.awake + 2 * t.queue.asleep)
      omega
  | called htop hrunning =>
    rw [stopping_clear h hstop] at hrunning
    cases hrunning
  | left htop hclear =>
    rw [toGo_of_place h (by simp [htop]), htop]
    simp only [EventThread.toGo]
    split
    · simp only [Place.distance]
      omega
    · simp only [Place.distance]
      omega
  | slept hr hq =>
    cases hq with
    | passed => cases hr
    | slept hi hpass =>
      have hplace := (Place.waiting_of_fits h.fits hi (by simp)).1
      have hroom := ((ConcurrentQueue.law E).shut.mp hpass).2
      exact absurd ⟨hplace, List.length_eq_zero_iff.mp hroom⟩ hfree
  | taken hr hq =>
    cases hq with
    | slept => cases hr
    | @passed _ queue event hi hpass =>
      obtain ⟨hplace, -⟩ := Place.waiting_of_fits h.fits hi (by simp)
      have hawake := awake_setWaiter hi (.away (some event))
      simp only [Waiter.isAwake, Bool.false_eq_true, if_false, if_true] at hawake
      rw [toGo_of_place h (by simp [hplace]), toGo_of_place hlooping' (by simp), hplace]
      show t.queue.owedOne + 3 + 1 ≤ t.queue.owedOne + (3 + t.queue.awake + 2 * t.queue.asleep)
      omega
  | processed hevent =>
    rw [toGo_of_place h (by simp [hevent]), toGo_of_place hlooping' (by simp), hevent]
    exact Nat.le_refl _
  | stopped hnone => exact absurd hnone hstop
  | joined hstopped hleft =>
    simp only [EventThread.toGo, hstopped, hleft, Place.distance, Option.some.injEq,
      Bool.false_eq_true, if_false, if_true]
    omega

def stopPotential (E : Type) : Potential (eventLoop E) fun _ l => l.outside = false where
  inv t := Looping t ∧ t.Stopping ∧ ¬ t.Blocked
  size := EventThread.toGo
  cost _ := 1
  step := by
    rintro t t' l o ⟨hlooping, hstop, hfree⟩ hl hstep
    have hstepped := loop_stepped hstep
    exact ⟨⟨looping_step hlooping hstepped, stopping_step hstop hstepped,
      free_step hlooping hstop hfree hl hstepped⟩, toGo_step hlooping hstop hfree hl hstepped⟩

theorem stop_goes_on (h : Looping t) (hstop : t.Stopping) (hfree : ¬ t.Blocked)
    (hgoing : ¬ t.Returned) : ∃ l t' o, l.outside = false ∧ l.chance = false ∧
      (eventLoop E).step t l = some (t', o) := by
  have hgo : ∀ l : LoopMove E, l.outside = false → l.chance = false →
      (t.step l).isSome = true → ∃ l t' o, l.outside = false ∧ l.chance = false ∧
        (eventLoop E).step t l = some (t', o) := by
    intro l hown hchance hsome
    obtain ⟨⟨t', o⟩, hstep⟩ := Option.isSome_iff_exists.mp hsome
    exact ⟨l, t', o, hown, hchance, hstep⟩
  cases hplace : t.place with
  | top =>
    have hclear := stopping_clear h hstop
    exact hgo .check rfl rfl (by simp [EventThread.step, hplace, hclear])
  | handling event => exact hgo .finish rfl rfl (by simp [EventThread.step, hplace])
  | left =>
    have hfalse : t.stopped = some false := by
      obtain ⟨b, hb⟩ := Option.ne_none_iff_exists'.mp hstop
      cases b with
      | false => exact hb
      | true => exact absurd hb hgoing
    exact hgo .join rfl rfl (by simp [EventThread.step, hplace, hfalse])
  | waiting =>
    have hfits := h.fits
    rw [hplace] at hfits
    rcases hfits with hws | hws
    · exact hgo .look rfl rfl
        (by simp [EventThread.step, EventThread.look, EventThread.enter, Monitor.step, hws])
    · -- The thread sleeps in front of an event, so the notification for it is still owed.
      have hasleep : Waiter.asleep ∈ t.queue.waiters := by simp [hws]
      have hawake : t.queue.awake = 0 := by simp [State.awake, hws, Waiter.isAwake]
      have hone : t.queue.owedOne ≠ 0 := by
        intro hone
        have hpass := no_lost_wakeup h.watched ⟨hone, h.ones, hawake⟩ hasleep
        have hroom := ((ConcurrentQueue.law E).shut.mp hpass).2
        exact hfree ⟨hplace, List.length_eq_zero_iff.mp hroom⟩
      obtain ⟨owed, howed⟩ := Nat.exists_eq_succ_of_ne_zero hone
      exact hgo (.notifyOne (some 0)) rfl rfl (by
        simp [EventThread.step, EventThread.unnoticed, EventThread.enter, Monitor.step, howed, hws])

/-- **`stop` returns exactly when the event thread is not waiting at an empty queue.** After
the stop the thread takes at most one event more. If it waits and nothing is there, nothing
but a further push lets `stop` return; in every other state a bounded number of steps is
left, the threads can go on until `stop` has returned, and what is in the queue by then has
not been processed. -/
theorem stop_returns_iff (h : Run (eventLoop E) {} front t) (hstop : t.Stopping) :
    (∀ tr t', Run (eventLoop E) t tr t' → (takenEvents tr).length ≤ 1 ∧
      (t'.Returned → processedEvents (front ++ tr) ++ t'.queue.shared =
        pushedEvents (front ++ tr))) ∧
      ((∃ tr t', Run (eventLoop E) t tr t' ∧ Unfed t tr ∧ t'.Returned) ↔ ¬ t.Blocked) ∧
      (¬ t.Blocked → ∀ tr t', Run (eventLoop E) t tr t' → Unfed t tr →
        tr.length ≤ t.toGo ∧
          ((∀ l, l.outside = false → l.chance = false → (eventLoop E).step t' l = none) →
            t'.Returned)) := by
  have hlooping := looping_run h
  refine ⟨fun tr t' hrun => ⟨taken_after_stop hlooping hstop hrun, fun hreturned => ?_⟩,
    ⟨?_, fun hfree => ?_⟩, fun hfree tr t' hrun hunfed => ⟨?_, fun hstuck => ?_⟩⟩
  · have hkept := events_kept_run (h.append hrun)
    have hheld := hkept.held
    rw [(looping_run (h.append hrun)).returned hreturned] at hheld
    rw [← hkept.queued, ← hheld]
    simp [Place.event?]
  · rintro ⟨tr, t', hrun, hunfed, hreturned⟩ hblocked
    exact not_returned_of_blocked hlooping hblocked hrun hunfed hreturned
  · refine (stopPotential E).ends EventThread.Returned ?_ ⟨hlooping, hstop, hfree⟩
    rintro t ⟨hlooping, hstop, hfree⟩ hgoing
    obtain ⟨l, t', o, hown, -, hstep⟩ := stop_goes_on hlooping hstop hfree hgoing
    exact ⟨l, t', o, hown, hstep, Nat.le_refl 1⟩
  · have hpaid := (stopPotential E).paid_le (fun _ => true) (fun _ _ => Nat.le_refl 1)
      ⟨hlooping, hstop, hfree⟩ hrun hunfed
    rwa [List.countP_true] at hpaid
  · obtain ⟨⟨hlooping', hstop', hfree'⟩, -⟩ :=
      (stopPotential E).total ⟨hlooping, hstop, hfree⟩ hrun hunfed
    by_contra hgoing
    obtain ⟨l, t'', o, hown, hchance, hstep⟩ := stop_goes_on hlooping' hstop' hfree' hgoing
    rw [hstuck l hown hchance] at hstep
    cases hstep

end Stop

/-- An idle server is stopped: the event thread sleeps at an empty queue. -/
def idleStop : List (LoopMove Nat) := [.check, .look, .stop]

theorem stop_returns_iff_idle : ∃ t front, Run (eventLoop Nat) {} front t ∧
    ¬ ∃ tr t', Run (eventLoop Nat) t tr t' ∧ Unfed t tr ∧ t'.Returned := by
  obtain ⟨t, front, hrun, hview⟩ := (eventLoop Nat).exec_view {} idleStop
    (fun r => (r.1.stopped, r.1.queue.shared, r.1.place.isWaiting))
    (v := (some false, [], true)) (by decide)
  obtain ⟨hstopped, hrest⟩ := Prod.mk.inj hview
  obtain ⟨hempty, hplace⟩ := Prod.mk.inj hrest
  have hblocked : t.Blocked := by
    refine ⟨?_, hempty⟩
    cases hwaiting : t.place with
    | waiting => rfl
    | top | handling | left =>
      rw [hwaiting] at hplace
      cases hplace
  have hstop : t.Stopping := by
    rw [EventThread.Stopping, hstopped]
    exact Option.some_ne_none _
  exact ⟨t, front, hrun, fun hreturns => (stop_returns_iff hrun hstop).2.1.mp hreturns hblocked⟩

end P2PShopping
