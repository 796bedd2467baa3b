import P2PShopping.Library.Collections
import P2PShopping.Library.Progress

/-! Monitors with one condition variable.

Threads share a state that they touch under one mutex only, so one step is one critical
section. A thread that *waits* looks at the state once it has the mutex: it goes through
if it may, and otherwise it gives the mutex up and sleeps until it is woken, or wakes for
no reason. A thread that *acts* changes the state, gives the mutex up and notifies only
then: anything may happen in between, so the calls of `notify` that are still owed are part
of the state, and so is every thread that has been woken and does not have the mutex yet.

Whether a wakeup can be lost is a matter of counting. A `Law` says how many threads the
state lets through and that a critical section raises that number by no more than it
notifies; then a thread sleeps in front of an open monitor only while somebody is still on
the way (`Watched`), and when nobody is, no thread sleeps that could go through
(`no_lost_wakeup`). How long that takes is bounded by what is on the way (`settling`). -/
namespace Monitors
open Runs Collections

/-- Whom a critical section notifies once the mutex is free. -/
inductive Signal where
  | nobody
  | one
  | all
deriving DecidableEq

def Signal.ones : Signal → Nat
  | .one => 1
  | _ => 0

def Signal.alls : Signal → Nat
  | .all => 1
  | _ => 0

structure Monitor (σ A V : Type) where
  /-- The critical section of a thread that does not wait. -/
  act : σ → A → σ × Signal
  /-- The critical section of a thread whose wait is over; `none` while its predicate is false. -/
  pass : σ → Option (σ × V)
  /-- Whether a thread that went through with this value waits again. -/
  again : V → Bool

/-- Where a thread that waits from time to time is. -/
inductive Waiter (V : Type) where
  /-- Not in the monitor, with what it got the last time. -/
  | away (last : Option V)
  /-- Without the mutex, about to take it. -/
  | awake
  | asleep

def Waiter.isAwake {V : Type} : Waiter V → Bool
  | .awake => true
  | _ => false

def Waiter.isAsleep {V : Type} : Waiter V → Bool
  | .asleep => true
  | _ => false

/-- What `notify_all` does to a thread. -/
def Waiter.wake {V : Type} : Waiter V → Waiter V
  | .asleep => .awake
  | w => w

structure State (σ V : Type) where
  shared : σ
  waiters : List (Waiter V)
  owedOne : Nat := 0
  owedAll : Nat := 0

inductive Action (A : Type) where
  | act (a : A)
  /-- `notify_one`, with the thread that the system picks, if one sleeps. -/
  | notifyOne (picked : Option Nat)
  | notifyAll
  /-- The `i`-th thread comes to wait. -/
  | call (i : Nat)
  /-- The `i`-th thread has the mutex. -/
  | look (i : Nat)
  /-- The `i`-th thread wakes although nobody has notified it. -/
  | spurious (i : Nat)

inductive Effect (V : Type) where
  | acted (signal : Signal)
  | passed (v : V)
  | quiet

def Effect.passed? {V : Type} : Effect V → Option V
  | .passed v => some v
  | _ => none

namespace State
variable {σ V : Type}

def start (shared : σ) (n : Nat) : State σ V := {shared, waiters := List.replicate n (.away none)}

def awake (s : State σ V) : Nat := s.waiters.countP Waiter.isAwake
def asleep (s : State σ V) : Nat := s.waiters.countP Waiter.isAsleep

/-- The threads whose call to wait has not returned. -/
def waiting (s : State σ V) : Nat := s.awake + s.asleep

/-- Nothing is on its way: nobody has to notify, and nobody who was woken is left. -/
def Settled (s : State σ V) : Prop := s.owedOne = 0 ∧ s.owedAll = 0 ∧ s.awake = 0

instance (s : State σ V) : Decidable s.Settled :=
  inferInstanceAs (Decidable (_ ∧ _ ∧ _))

def setWaiter (s : State σ V) (i : Nat) (w : Waiter V) : State σ V :=
  {s with waiters := s.waiters.set i w}

end State

namespace Monitor
variable {σ A V : Type} (M : Monitor σ A V)

/-- The critical section of a thread that waits. -/
def look (s : State σ V) (i : Nat) : State σ V × Effect V :=
  match M.pass s.shared with
  | none => (s.setWaiter i .asleep, .quiet)
  | some (shared, v) => ({s.setWaiter i (.away (some v)) with shared}, .passed v)

def step (s : State σ V) : Action A → Option (State σ V × Effect V)
  | .act a =>
    let (shared, signal) := M.act s.shared a
    some ({s with shared, owedOne := s.owedOne + signal.ones, owedAll := s.owedAll + signal.alls},
      .acted signal)
  | .notifyOne picked =>
    match s.owedOne, picked with
    | 0, _ => none
    | owed + 1, none => if s.asleep = 0 then some ({s with owedOne := owed}, .quiet) else none
    | owed + 1, some i =>
      match s.waiters[i]? with
      | some .asleep => some ({s.setWaiter i .awake with owedOne := owed}, .quiet)
      | _ => none
  | .notifyAll =>
    match s.owedAll with
    | 0 => none
    | owed + 1 => some ({s with waiters := s.waiters.map .wake, owedAll := owed}, .quiet)
  | .call i =>
    match s.waiters[i]? with
    | some (.away last) => if last.all M.again then some (s.setWaiter i .awake, .quiet) else none
    | _ => none
  | .look i =>
    match s.waiters[i]? with
    | some .awake => some (M.look s i)
    | _ => none
  | .spurious i =>
    match s.waiters[i]? with
    | some .asleep => some (s.setWaiter i .awake, .quiet)
    | _ => none

end Monitor

def machine {σ A V : Type} (M : Monitor σ A V) : Machine (State σ V) (Action A) (Effect V) where
  step := M.step

/-! ### What one step does -/

section Step
variable {σ A V : Type} {M : Monitor σ A V} {s s' : State σ V} {l : Action A} {o : Effect V}

/-- One constructor for each way through a step. -/
inductive Advance (M : Monitor σ A V) (s : State σ V) :
    Action A → Effect V → State σ V → Prop where
  | acted {a : A} {shared : σ} {signal : Signal} : M.act s.shared a = (shared, signal) →
      Advance M s (.act a) (.acted signal) {s with
        shared, owedOne := s.owedOne + signal.ones, owedAll := s.owedAll + signal.alls}
  | unheard {owed : Nat} : s.owedOne = owed + 1 → s.asleep = 0 →
      Advance M s (.notifyOne none) .quiet {s with owedOne := owed}
  | notified {owed i : Nat} : s.owedOne = owed + 1 → s.waiters[i]? = some .asleep →
      Advance M s (.notifyOne (some i)) .quiet {s.setWaiter i .awake with owedOne := owed}
  | notifiedAll {owed : Nat} : s.owedAll = owed + 1 →
      Advance M s .notifyAll .quiet {s with waiters := s.waiters.map .wake, owedAll := owed}
  | called {i : Nat} {last : Option V} : s.waiters[i]? = some (.away last) →
      last.all M.again = true → Advance M s (.call i) .quiet (s.setWaiter i .awake)
  | slept {i : Nat} : s.waiters[i]? = some .awake → M.pass s.shared = none →
      Advance M s (.look i) .quiet (s.setWaiter i .asleep)
  | passed {i : Nat} {shared : σ} {v : V} : s.waiters[i]? = some .awake →
      M.pass s.shared = some (shared, v) →
      Advance M s (.look i) (.passed v) {s.setWaiter i (.away (some v)) with shared}
  | woke {i : Nat} : s.waiters[i]? = some .asleep →
      Advance M s (.spurious i) .quiet (s.setWaiter i .awake)

theorem advance (h : (machine M).step s l = some (s', o)) : Advance M s l o s' := by
  simp only [machine, Monitor.step] at h
  cases l with
  | act a =>
    cases h
    exact .acted rfl
  | notifyOne picked =>
    simp only at h
    split at h
    case h_1 => cases h
    case h_2 owed howed =>
      split at h
      case isFalse => cases h
      case isTrue hnone =>
        cases h
        exact .unheard howed hnone
    case h_3 owed i howed =>
      split at h
      case h_2 => cases h
      case h_1 hasleep =>
        cases h
        exact .notified howed hasleep
  | notifyAll =>
    simp only at h
    split at h
    case h_1 => cases h
    case h_2 owed howed =>
      cases h
      exact .notifiedAll howed
  | call i =>
    simp only at h
    split at h
    case h_2 => cases h
    case h_1 last haway =>
      split at h
      case isFalse => cases h
      case isTrue hagain =>
        cases h
        exact .called haway hagain
  | look i =>
    simp only [Monitor.look] at h
    split at h
    case h_2 => cases h
    case h_1 hawake =>
      split at h
      case h_1 hpass =>
        cases h
        exact .slept hawake hpass
      case h_2 hpass =>
        cases h
        exact .passed hawake hpass
  | spurious i =>
    simp only at h
    split at h
    case h_2 => cases h
    case h_1 hasleep =>
      cases h
      exact .woke hasleep

theorem waiters_length_step (h : Advance M s l o s') : s'.waiters.length = s.waiters.length := by
  cases h with
  | acted | unheard => rfl
  | notifiedAll => exact List.length_map _
  | notified | called | slept | passed | woke => exact List.length_set

/-! ### Counting the threads -/

section Count
variable {i : Nat} {w : Waiter V}

theorem awake_setWaiter (h : s.waiters[i]? = some w) (w' : Waiter V) :
    (s.setWaiter i w').awake + (if w.isAwake then 1 else 0) =
      s.awake + (if w'.isAwake then 1 else 0) :=
  countP_set_add h w' Waiter.isAwake

theorem asleep_setWaiter (h : s.waiters[i]? = some w) (w' : Waiter V) :
    (s.setWaiter i w').asleep + (if w.isAsleep then 1 else 0) =
      s.asleep + (if w'.isAsleep then 1 else 0) :=
  countP_set_add h w' Waiter.isAsleep

theorem wake_isAsleep (w : Waiter V) : w.wake.isAsleep = false := by
  cases w <;> rfl

theorem asleep_of_woken (h : s'.waiters = s.waiters.map .wake) : s'.asleep = 0 := by
  rw [State.asleep, h, List.countP_map, List.countP_eq_zero]
  intro w _
  rw [Function.comp_apply, wake_isAsleep]
  exact Bool.false_ne_true

theorem awake_of_woken (h : s'.waiters = s.waiters.map .wake) : s'.awake = s.waiting := by
  rw [State.waiting, State.awake, State.awake, State.asleep, h]
  induction s.waiters with
  | nil => rfl
  | cons w rest ih =>
    rw [List.map_cons, List.countP_cons, List.countP_cons, List.countP_cons, ih]
    cases w <;> simp only [Waiter.wake, Waiter.isAwake, Waiter.isAsleep, Bool.false_eq_true,
      if_false, if_true] <;> omega

theorem awake_le (s : State σ V) : s.awake ≤ s.waiters.length := List.countP_le_length

theorem exists_asleep (h : s.asleep ≠ 0) : ∃ i : Nat, s.waiters[i]? = some .asleep := by
  obtain ⟨w, hmem, hw⟩ := List.countP_pos_iff.mp (Nat.pos_of_ne_zero h)
  obtain ⟨i, hi⟩ := List.getElem?_of_mem hmem
  cases w with
  | asleep => exact ⟨i, hi⟩
  | away | awake => cases hw

theorem exists_awake (h : s.awake ≠ 0) : ∃ i : Nat, s.waiters[i]? = some .awake := by
  obtain ⟨w, hmem, hw⟩ := List.countP_pos_iff.mp (Nat.pos_of_ne_zero h)
  obtain ⟨i, hi⟩ := List.getElem?_of_mem hmem
  cases w with
  | awake => exact ⟨i, hi⟩
  | away | asleep => cases hw

theorem asleep_ne_zero (h : Waiter.asleep ∈ s.waiters) : s.asleep ≠ 0 :=
  Nat.pos_iff_ne_zero.mp (List.countP_pos_iff.mpr ⟨_, h, rfl⟩)

end Count

end Step

/-! ### No wakeup is lost -/

section Law
variable {σ A V : Type} {M : Monitor σ A V}

/-- How many threads a state lets through, and that whoever raises the number notifies. -/
structure Law (M : Monitor σ A V) where
  /-- Any number of threads may go through. -/
  opened : σ → Prop
  /-- How many may, if not any number. -/
  room : σ → Nat
  shut : ∀ {x : σ}, M.pass x = none ↔ ¬ opened x ∧ room x = 0
  pass : ∀ {x x' : σ} {v : V}, M.pass x = some (x', v) → ¬ opened x →
    ¬ opened x' ∧ room x' + 1 ≤ room x
  act : ∀ {x x' : σ} {a : A} {signal : Signal}, M.act x a = (x', signal) → signal ≠ .all →
    ¬ opened x → ¬ opened x' ∧ room x' ≤ room x + signal.ones

/-- While a thread sleeps, somebody is on the way for each one that may go through. -/
def Law.Watched (law : Law M) (s : State σ V) : Prop :=
  s.owedAll = 0 → s.asleep ≠ 0 →
    ¬ law.opened s.shared ∧ law.room s.shared ≤ s.owedOne + s.awake

variable {law : Law M} {s s' : State σ V} {l : Action A} {o : Effect V}

theorem watched_of_nobody (law : Law M) (h : s.asleep = 0) : law.Watched s :=
  fun _ hasleep => absurd h hasleep

theorem watched_start (law : Law M) (x : σ) (n : Nat) : law.Watched (State.start x n) := by
  refine watched_of_nobody law (List.countP_eq_zero.mpr ?_)
  intro w hw
  rw [List.eq_of_mem_replicate hw]
  exact Bool.false_ne_true

/-- **One step keeps a sleeping thread watched.** -/
theorem watched_step (h : law.Watched s) (hstep : Advance M s l o s') : law.Watched s' := by
  intro hall hasleep
  cases hstep with
  | @acted a x signal hact =>
    have hsignal : signal ≠ .all := by
      rintro rfl
      simp [Signal.alls] at hall
    obtain ⟨hclosed, hroom⟩ := h (Nat.eq_zero_of_add_eq_zero_right hall) hasleep
    obtain ⟨hclosed', hroom'⟩ := law.act hact hsignal hclosed
    refine ⟨hclosed', ?_⟩
    show law.room x ≤ s.owedOne + signal.ones + s.awake
    omega
  | unheard howed hnone => exact absurd hnone hasleep
  | @notified owed i howed hi =>
    have hawake := awake_setWaiter hi .awake
    obtain ⟨hclosed, hroom⟩ := h hall (asleep_ne_zero (List.mem_of_getElem? hi))
    refine ⟨hclosed, ?_⟩
    show law.room s.shared ≤ owed + (s.setWaiter i .awake).awake
    simp only [Waiter.isAwake, Bool.false_eq_true, if_false, if_true] at hawake
    omega
  | notifiedAll howed => exact absurd (asleep_of_woken (s := s) rfl) hasleep
  | @called i last hi hagain =>
    have hawake := awake_setWaiter hi .awake
    have hold := asleep_setWaiter hi .awake
    simp only [Waiter.isAwake, Waiter.isAsleep, Bool.false_eq_true, if_false,
      if_true] at hawake hold
    obtain ⟨hclosed, hroom⟩ := h hall (by omega)
    refine ⟨hclosed, ?_⟩
    show law.room s.shared ≤ s.owedOne + (s.setWaiter i .awake).awake
    omega
  | slept hi hpass =>
    -- It sleeps because there is no room, so there is nothing to watch yet.
    obtain ⟨hclosed, hroom⟩ := law.shut.mp hpass
    refine ⟨hclosed, ?_⟩
    show law.room s.shared ≤ _
    omega
  | @passed i x v hi hpass =>
    have hawake := awake_setWaiter hi (.away (some v))
    have hold := asleep_setWaiter hi (.away (some v))
    simp only [Waiter.isAwake, Waiter.isAsleep, Bool.false_eq_true, if_false,
      if_true] at hawake hold
    have hasleep' : (s.setWaiter i (.away (some v))).asleep ≠ 0 := hasleep
    obtain ⟨hclosed, hroom⟩ := h hall (by omega)
    obtain ⟨hclosed', hroom'⟩ := law.pass hpass hclosed
    refine ⟨hclosed', ?_⟩
    show law.room x ≤ s.owedOne + (s.setWaiter i (.away (some v))).awake
    omega
  | @woke i hi =>
    have hawake := awake_setWaiter hi .awake
    simp only [Waiter.isAwake, Bool.false_eq_true, if_false, if_true] at hawake
    obtain ⟨hclosed, hroom⟩ := h hall (asleep_ne_zero (List.mem_of_getElem? hi))
    refine ⟨hclosed, ?_⟩
    show law.room s.shared ≤ s.owedOne + (s.setWaiter i .awake).awake
    omega

theorem watched_run {x : σ} {n : Nat} {tr : List (Action A × Effect V)} (law : Law M)
    (h : Run (machine M) (State.start x n) tr s) : law.Watched s :=
  h.invariant (fun _ s => law.Watched s) (watched_start law x n)
    fun _ _ _ _ _ _ hI hstep => watched_step hI (advance hstep)

/-- **No wakeup is lost**: when nothing is on its way, a thread that sleeps may not pass. -/
theorem no_lost_wakeup (h : law.Watched s) (hsettled : s.Settled)
    (hasleep : Waiter.asleep ∈ s.waiters) : M.pass s.shared = none := by
  obtain ⟨hone, hall, hawake⟩ := hsettled
  obtain ⟨hclosed, hroom⟩ := h hall (asleep_ne_zero hasleep)
  exact law.shut.mpr ⟨hclosed, by omega⟩

end Law

/-! ### What is on its way arrives -/

section Settling
variable {σ A V : Type} {M : Monitor σ A V} {s s' : State σ V} {l : Action A} {o : Effect V}

/-- The steps that nothing but the mutex holds up. -/
def Action.internal : Action A → Bool
  | .notifyOne _ | .notifyAll | .look _ => true
  | _ => false

/-- A `notify_one` wakes one thread, a `notify_all` any number, and who is awake looks once. -/
def onTheWay (s : State σ V) : Nat :=
  2 * s.owedOne + (s.waiters.length + 1) * s.owedAll + s.awake

theorem onTheWay_step (hl : l.internal = true) (hstep : Advance M s l o s') :
    onTheWay s' + 1 ≤ onTheWay s := by
  cases hstep with
  | acted | called | woke => cases hl
  | @unheard owed howed hnone =>
    show 2 * owed + (s.waiters.length + 1) * s.owedAll + s.awake + 1 ≤ onTheWay s
    rw [onTheWay, howed]
    omega
  | @notified owed i howed hi =>
    have hawake := awake_setWaiter hi .awake
    have hlength : (s.setWaiter i .awake).waiters.length = s.waiters.length := List.length_set
    simp only [Waiter.isAwake, Bool.false_eq_true, if_false, if_true] at hawake
    show 2 * owed + ((s.setWaiter i .awake).waiters.length + 1) * s.owedAll +
      (s.setWaiter i .awake).awake + 1 ≤ onTheWay s
    rw [onTheWay, howed, hlength]
    omega
  | @notifiedAll owed howed =>
    have hawake := awake_le {s with waiters := s.waiters.map .wake, owedAll := owed}
    have hlength : (s.waiters.map Waiter.wake).length = s.waiters.length := List.length_map _
    show 2 * s.owedOne + ((s.waiters.map Waiter.wake).length + 1) * owed +
      ({s with waiters := s.waiters.map .wake, owedAll := owed} : State σ V).awake + 1 ≤ onTheWay s
    rw [onTheWay, howed, hlength, Nat.mul_add]
    simp only [hlength] at hawake
    omega
  | @slept i hi hpass =>
    have hawake := awake_setWaiter hi .asleep
    have hlength : (s.setWaiter i .asleep).waiters.length = s.waiters.length := List.length_set
    simp only [Waiter.isAwake, Bool.false_eq_true, if_false, if_true] at hawake
    show 2 * s.owedOne + ((s.setWaiter i .asleep).waiters.length + 1) * s.owedAll +
      (s.setWaiter i .asleep).awake + 1 ≤ onTheWay s
    rw [onTheWay, hlength]
    omega
  | @passed i x v hi hpass =>
    have hawake := awake_setWaiter hi (.away (some v))
    have hlength : (s.setWaiter i (.away (some v))).waiters.length = s.waiters.length :=
      List.length_set
    simp only [Waiter.isAwake, Bool.false_eq_true, if_false, if_true] at hawake
    show 2 * s.owedOne + ((s.setWaiter i (.away (some v))).waiters.length + 1) * s.owedAll +
      (s.setWaiter i (.away (some v))).awake + 1 ≤ onTheWay s
    rw [onTheWay, hlength]
    omega

/-- Left to itself, a monitor settles. -/
def settling (M : Monitor σ A V) : Potential (machine M) fun _ l => l.internal = true where
  inv _ := True
  size := onTheWay
  cost _ := 1
  step := fun _ hl hstep => ⟨trivial, onTheWay_step hl (advance hstep)⟩

/-- Left to itself, a monitor only lets threads out. -/
theorem waiting_step (hl : l.internal = true) (hstep : Advance M s l o s') :
    s'.waiting + o.passed?.toList.length = s.waiting := by
  cases hstep with
  | acted | called | woke => cases hl
  | unheard => rfl
  | @notified owed i howed hi =>
    have hawake := awake_setWaiter hi .awake
    have hasleep := asleep_setWaiter hi .awake
    simp only [Waiter.isAwake, Waiter.isAsleep, Bool.false_eq_true, if_false, if_true]
      at hawake hasleep
    show (s.setWaiter i .awake).awake + (s.setWaiter i .awake).asleep + 0 = s.awake + s.asleep
    omega
  | @notifiedAll owed howed =>
    have hwaiters : ({s with waiters := s.waiters.map .wake, owedAll := owed} : State σ V).waiters =
      s.waiters.map .wake := rfl
    rw [State.waiting, awake_of_woken hwaiters, asleep_of_woken hwaiters]
    rfl
  | @slept i hi hpass =>
    have hawake := awake_setWaiter hi .asleep
    have hasleep := asleep_setWaiter hi .asleep
    simp only [Waiter.isAwake, Waiter.isAsleep, Bool.false_eq_true, if_false, if_true]
      at hawake hasleep
    show (s.setWaiter i .asleep).awake + (s.setWaiter i .asleep).asleep + 0 = s.awake + s.asleep
    omega
  | @passed i x v hi hpass =>
    have hawake := awake_setWaiter hi (.away (some v))
    have hasleep := asleep_setWaiter hi (.away (some v))
    simp only [Waiter.isAwake, Waiter.isAsleep, Bool.false_eq_true, if_false, if_true]
      at hawake hasleep
    show (s.setWaiter i (.away (some v))).awake + (s.setWaiter i (.away (some v))).asleep + 1 =
      s.awake + s.asleep
    omega

/-- As long as something is on its way, it can go on. -/
theorem goes_on (M : Monitor σ A V) (h : ¬ s.Settled) :
    ∃ l s' o, l.internal = true ∧ (machine M).step s l = some (s', o) := by
  by_cases hawake : s.awake = 0
  · cases hone : s.owedOne with
    | zero =>
      cases hall : s.owedAll with
      | zero => exact absurd ⟨hone, hall, hawake⟩ h
      | succ owed => exact ⟨.notifyAll, _, _, rfl, by simp only [machine, Monitor.step, hall]; rfl⟩
    | succ owed =>
      by_cases hasleep : s.asleep = 0
      · exact ⟨.notifyOne none, _, _, rfl, by simp only [machine, Monitor.step, hone, hasleep]; rfl⟩
      · obtain ⟨i, hi⟩ := exists_asleep hasleep
        exact ⟨.notifyOne (some i), _, _, rfl, by simp only [machine, Monitor.step, hone, hi]; rfl⟩
  · obtain ⟨i, hi⟩ := exists_awake hawake
    exact ⟨.look i, _, _, rfl, by simp only [machine, Monitor.step, hi]; rfl⟩

end Settling

end Monitors
