import P2PShopping.Library.Monitors
import P2PShopping.Library.Simulation
import P2PShopping.Util.ThreadPool

/-! The threads of a `ThreadPool`.

The pool's critical sections are the steps of `poolMachine`, in which a worker goes on
when its wait is over. Here the wait is what the source makes of it: a worker that finds
nothing to do sleeps on `condition_`, `enqueue` calls `notify_one` after its critical
section and the destructor `notify_all`, a notification may find nobody and a worker may
wake without one. All of that is invisible to the coarse machine (`pool_refined`), so its
laws hold of the threads; and no wakeup is lost, so that the destructor comes to the end
of its joins in a bounded number of steps, whatever their order (`destructor_returns`). -/
namespace P2PShopping
open Runs Monitors Collections

/-- What `queue_mutex_` protects. -/
structure PoolShared (τ : Type) where
  tasks : List τ := []
  stop : Bool := false

/-- The critical sections of threads that are not workers. -/
inductive PoolEntry (τ : Type) where
  | enqueue (task : τ)
  | stop

namespace PoolShared
variable {τ : Type}

/-- `enqueue` throws before it has anything to notify. -/
def act (pool : PoolShared τ) : PoolEntry τ → PoolShared τ × Signal
  | .enqueue task =>
    if pool.stop then (pool, .nobody) else ({pool with tasks := pool.tasks ++ [task]}, .one)
  | .stop => ({pool with stop := true}, .all)

/-- What a worker does when its wait is over: it takes a task, or it returns. -/
def pass (pool : PoolShared τ) : Option (PoolShared τ × Option τ) :=
  match pool.tasks with
  | [] => if pool.stop then some (pool, none) else none
  | task :: rest => some ({pool with tasks := rest}, some task)

def monitor (τ : Type) : Monitor (PoolShared τ) (PoolEntry τ) (Option τ) where
  act := act
  pass := pass
  again := Option.isSome

/-- One task lets one worker through, and `stop_` lets all through. -/
def law (τ : Type) : Law (monitor τ) where
  opened pool := pool.stop = true
  room pool := pool.tasks.length
  shut := by
    intro pool
    cases htasks : pool.tasks <;> simp [monitor, pass, htasks]
  pass := by
    intro pool pool' v h hrunning
    simp only [monitor, pass] at h
    split at h
    case h_1 => rw [if_neg hrunning] at h; cases h
    case h_2 task rest htasks =>
      cases h
      exact ⟨hrunning, by simp [htasks]⟩
  act := by
    intro pool pool' entry signal h hsignal hrunning
    cases entry with
    | enqueue task =>
      simp only [monitor, act, if_neg hrunning] at h
      cases h
      exact ⟨hrunning, by simp [Signal.ones]⟩
    | stop =>
      cases h
      exact absurd rfl hsignal

end PoolShared

abbrev PoolMonitor (τ : Type) := Monitors.State (PoolShared τ) (Option τ)

/-- The workers at their monitor, and how many of them the destructor has joined once it
has set `stop_`. -/
structure PoolThreads (τ : Type) where
  monitor : PoolMonitor τ
  joined : Option Nat := none

inductive PoolMove (τ : Type) where
  | enqueue (task : τ)
  | stop
  | notifyOne (picked : Option Nat)
  | notifyAll
  /-- The `i`-th worker has the mutex. -/
  | look (i : Nat)
  | spurious (i : Nat)
  /-- `task()` returns in the `i`-th worker, which goes back to its wait. -/
  | finish (i : Nat)
  | join

namespace PoolThreads
variable {τ : Type}

/-- The constructor: every worker is on its way to its first wait. -/
def new (threadCount : Nat) : PoolThreads τ :=
  {monitor := {shared := {}, waiters := List.replicate threadCount .awake}}

/-- A step at the monitor, and what the pool shows of it. -/
def enter (pool : PoolThreads τ) (m : Action (PoolEntry τ))
    (shows : Effect (Option τ) → Option (PoolOutput τ)) :
    Option (PoolThreads τ × Option (PoolOutput τ)) :=
  ((PoolShared.monitor τ).step pool.monitor m).map fun r =>
    ({pool with monitor := r.1}, shows r.2)

def enqueued (task : τ) : Effect (Option τ) → Option (PoolOutput τ)
  | .acted .one => some (.accepted task)
  | _ => some (.rejected task)

def looked : Effect (Option τ) → Option (PoolOutput τ)
  | .passed (some task) => some (.dequeued task)
  | .passed none => some .returned
  | _ => none

def step (pool : PoolThreads τ) : PoolMove τ → Option (PoolThreads τ × Option (PoolOutput τ))
  | .enqueue task => pool.enter (.act (.enqueue task)) (enqueued task)
  | .stop =>
    match pool.joined with
    | none => {pool with joined := some 0}.enter (.act .stop) fun _ => some .stopped
    | some _ => none
  | .notifyOne picked => pool.enter (.notifyOne picked) fun _ => none
  | .notifyAll => pool.enter .notifyAll fun _ => none
  | .look i => pool.enter (.look i) looked
  | .spurious i => pool.enter (.spurious i) fun _ => none
  | .finish i =>
    match pool.monitor.waiters[i]? with
    | some (.away (some (some task))) => pool.enter (.call i) fun _ => some (.executed task)
    | _ => none
  | .join =>
    -- The joins come after `notify_all`, which only the destructor calls.
    match pool.joined, pool.monitor.owedAll with
    | some k, 0 =>
      match pool.monitor.waiters[k]? with
      | some (.away (some none)) => some ({pool with joined := some (k + 1)}, some .joined)
      | _ => none
    | _, _ => none

def JoinedAll (pool : PoolThreads τ) : Prop := pool.joined = some pool.monitor.waiters.length

instance (pool : PoolThreads τ) : Decidable pool.JoinedAll :=
  inferInstanceAs (Decidable (pool.joined = some pool.monitor.waiters.length))

end PoolThreads

def poolThreadsMachine (τ : Type) :
    Machine (PoolThreads τ) (PoolMove τ) (Option (PoolOutput τ)) where
  step := PoolThreads.step

/-! ### What one step does -/

section Step
variable {τ : Type} {pool pool' : PoolThreads τ} {l : PoolMove τ} {o : Option (PoolOutput τ)}

/-- One constructor for each label, with the step at the monitor. -/
inductive PoolStepped (pool : PoolThreads τ) :
    PoolMove τ → Option (PoolOutput τ) → PoolThreads τ → Prop where
  | enqueue {task : τ} {r : Effect (Option τ)} {m : PoolMonitor τ} :
      Advance (PoolShared.monitor τ) pool.monitor (.act (.enqueue task)) r m →
      PoolStepped pool (.enqueue task) (PoolThreads.enqueued task r) {pool with monitor := m}
  | stop {r : Effect (Option τ)} {m : PoolMonitor τ} : pool.joined = none →
      Advance (PoolShared.monitor τ) pool.monitor (.act .stop) r m →
      PoolStepped pool .stop (some .stopped) ⟨m, some 0⟩
  | notifyOne {picked : Option Nat} {r : Effect (Option τ)} {m : PoolMonitor τ} :
      Advance (PoolShared.monitor τ) pool.monitor (.notifyOne picked) r m →
      PoolStepped pool (.notifyOne picked) none {pool with monitor := m}
  | notifyAll {r : Effect (Option τ)} {m : PoolMonitor τ} :
      Advance (PoolShared.monitor τ) pool.monitor .notifyAll r m →
      PoolStepped pool .notifyAll none {pool with monitor := m}
  | look {i : Nat} {r : Effect (Option τ)} {m : PoolMonitor τ} :
      Advance (PoolShared.monitor τ) pool.monitor (.look i) r m →
      PoolStepped pool (.look i) (PoolThreads.looked r) {pool with monitor := m}
  | spurious {i : Nat} {r : Effect (Option τ)} {m : PoolMonitor τ} :
      Advance (PoolShared.monitor τ) pool.monitor (.spurious i) r m →
      PoolStepped pool (.spurious i) none {pool with monitor := m}
  | finish {i : Nat} {task : τ} {r : Effect (Option τ)} {m : PoolMonitor τ} :
      pool.monitor.waiters[i]? = some (.away (some (some task))) →
      Advance (PoolShared.monitor τ) pool.monitor (.call i) r m →
      PoolStepped pool (.finish i) (some (.executed task)) {pool with monitor := m}
  | join {k : Nat} : pool.joined = some k → pool.monitor.owedAll = 0 →
      pool.monitor.waiters[k]? = some (.away (some none)) →
      PoolStepped pool .join (some .joined) {pool with joined := some (k + 1)}

theorem entered {m : Action (PoolEntry τ)} {shows : Effect (Option τ) → Option (PoolOutput τ)}
    (h : pool.enter m shows = some (pool', o)) : ∃ r monitor,
      Advance (PoolShared.monitor τ) pool.monitor m r monitor ∧
        pool' = {pool with monitor} ∧ o = shows r := by
  obtain ⟨⟨monitor, r⟩, hstep, hr⟩ := Option.map_eq_some_iff.mp h
  cases hr
  exact ⟨r, monitor, advance hstep, rfl, rfl⟩

theorem pool_threads_stepped (h : (poolThreadsMachine τ).step pool l = some (pool', o)) :
    PoolStepped pool l o pool' := by
  simp only [poolThreadsMachine, PoolThreads.step] at h
  cases l with
  | enqueue task =>
    obtain ⟨r, m, hm, rfl, rfl⟩ := entered h
    exact .enqueue hm
  | stop =>
    simp only at h
    split at h
    case h_2 => cases h
    case h_1 hnone =>
      obtain ⟨r, m, hm, rfl, rfl⟩ := entered h
      exact .stop hnone hm
  | notifyOne picked =>
    obtain ⟨r, m, hm, rfl, rfl⟩ := entered h
    exact .notifyOne hm
  | notifyAll =>
    obtain ⟨r, m, hm, rfl, rfl⟩ := entered h
    exact .notifyAll hm
  | look i =>
    obtain ⟨r, m, hm, rfl, rfl⟩ := entered h
    exact .look hm
  | spurious i =>
    obtain ⟨r, m, hm, rfl, rfl⟩ := entered h
    exact .spurious hm
  | finish i =>
    simp only at h
    split at h
    case h_2 => cases h
    case h_1 task hrunning =>
      obtain ⟨r, m, hm, rfl, rfl⟩ := entered h
      exact .finish hrunning hm
  | join =>
    simp only at h
    split at h
    case h_2 => cases h
    case h_1 k hk howed =>
      split at h
      case h_2 => cases h
      case h_1 hexited =>
        cases h
        exact .join hk howed hexited

end Step

/-! ### The coarse machine -/

section Refined
variable {τ : Type} {pool pool' : PoolThreads τ} {l : PoolMove τ} {o : Option (PoolOutput τ)}

/-- Where a thread's loop stands, wherever it is in its wait. -/
def workerOf : Waiter (Option τ) → Worker τ
  | .away (some (some task)) => .running task
  | .away (some none) => .exited
  | _ => .waiting

def PoolThreads.up (pool : PoolThreads τ) : ThreadPool τ where
  workers := pool.monitor.waiters.map workerOf
  tasks := pool.monitor.shared.tasks
  stop := pool.monitor.shared.stop
  joined := pool.joined

/-- What a step of the threads is in the coarse machine. -/
def seenStep : PoolMove τ × Option (PoolOutput τ) → Option (PoolStep τ × PoolOutput τ)
  | (.enqueue task, some out) => some (.enqueue task, out)
  | (.stop, some out) => some (.shutdown, out)
  | (.look i, some out) => some (.work i, out)
  | (.finish i, some out) => some (.finish i, out)
  | (.join, some out) => some (.join, out)
  | _ => none

theorem workerOf_wake (w : Waiter (Option τ)) : workerOf w.wake = workerOf w := by
  cases w <;> rfl

theorem workers_woken (ws : List (Waiter (Option τ))) :
    (ws.map Waiter.wake).map workerOf = ws.map workerOf := by
  rw [List.map_map]
  exact List.map_congr_left fun w _ => workerOf_wake w

/-- A thread that stays in its wait is the same worker. -/
theorem workers_set {ws : List (Waiter (Option τ))} {i : Nat} {w w' : Waiter (Option τ)}
    (h : ws[i]? = some w) (hsame : workerOf w' = workerOf w) :
    (ws.set i w').map workerOf = ws.map workerOf := by
  have hget : (ws.map workerOf)[i]? = some (workerOf w) := by
    rw [List.getElem?_map, h]
    rfl
  obtain ⟨hi, heq⟩ := List.getElem?_eq_some_iff.mp hget
  rw [List.map_set, hsame, ← heq, List.set_getElem_self]

theorem up_eq (hworkers : pool'.monitor.waiters.map workerOf = pool.monitor.waiters.map workerOf)
    (hshared : pool'.monitor.shared = pool.monitor.shared) (hjoined : pool'.joined = pool.joined) :
    pool'.up = pool.up := by
  rw [PoolThreads.up, PoolThreads.up, hworkers, hshared, hjoined]

theorem up_step (h : PoolStepped pool l o pool') :
    (poolMachine τ).Does pool.up pool'.up (seenStep (l, o)) := by
  cases h with
  | @enqueue task r m hm =>
    cases hm with
    | acted hact =>
      cases hstop : pool.monitor.shared.stop with
      | true =>
        simp only [PoolShared.monitor, PoolShared.act, hstop, if_true] at hact
        cases hact
        simp [PoolThreads.enqueued, seenStep, Machine.Does, poolMachine, ThreadPool.step,
          ThreadPool.enqueue, PoolThreads.up, hstop]
      | false =>
        simp only [PoolShared.monitor, PoolShared.act, hstop, Bool.false_eq_true, if_false] at hact
        cases hact
        simp [PoolThreads.enqueued, seenStep, Machine.Does, poolMachine, ThreadPool.step,
          ThreadPool.enqueue, PoolThreads.up, hstop]
  | @stop r m hnone hm =>
    cases hm with
    | acted hact =>
      cases hact
      simp [seenStep, Machine.Does, poolMachine, ThreadPool.step, PoolThreads.up, hnone]
  | notifyOne hm =>
    cases hm with
    | unheard => rfl
    | notified howed hi => exact up_eq (workers_set hi rfl) rfl rfl
  | notifyAll hm =>
    cases hm with
    | notifiedAll howed => exact up_eq (workers_woken _) rfl rfl
  | @look i r m hm =>
    cases hm with
    | slept hi hpass => exact up_eq (workers_set hi rfl) rfl rfl
    | @passed _ shared v hi hpass =>
      have hwaiting : pool.up.workers[i]? = some .waiting := by
        rw [PoolThreads.up, List.getElem?_map, hi]
        rfl
      simp only [PoolShared.monitor, PoolShared.pass] at hpass
      split at hpass
      case h_1 hempty =>
        split at hpass
        case isFalse => cases hpass
        case isTrue hstop =>
          cases hpass
          simp only [PoolThreads.looked, seenStep, Machine.Does, poolMachine, ThreadPool.step,
            hwaiting, ThreadPool.work]
          simp [PoolThreads.up, hempty, hstop, State.setWaiter, List.map_set, workerOf]
      case h_2 task rest htasks =>
        cases hpass
        simp only [PoolThreads.looked, seenStep, Machine.Does, poolMachine, ThreadPool.step,
          hwaiting, ThreadPool.work]
        simp [PoolThreads.up, htasks, State.setWaiter, List.map_set, workerOf]
  | spurious hm =>
    cases hm with
    | woke hi => exact up_eq (workers_set hi rfl) rfl rfl
  | @finish i task r m hrunning hm =>
    cases hm with
    | called hi hagain =>
      have hworker : pool.up.workers[i]? = some (.running task) := by
        rw [PoolThreads.up, List.getElem?_map, hrunning]
        rfl
      simp only [seenStep, Machine.Does, poolMachine, ThreadPool.step, hworker]
      simp [PoolThreads.up, State.setWaiter, List.map_set, workerOf]
  | @join k hk howed hexited =>
    have hworker : pool.up.workers[k]? = some .exited := by
      rw [PoolThreads.up, List.getElem?_map, hexited]
      rfl
    have hjoined : pool.up.joined = some k := hk
    simp only [seenStep, Machine.Does, poolMachine, ThreadPool.step, hjoined, hworker]
    rfl

/-- **The coarse machine is what the threads do.** -/
def poolRefinement (τ : Type) : Refinement (poolThreadsMachine τ) (poolMachine τ) where
  inv _ := True
  up := PoolThreads.up
  view := seenStep
  step := fun _ hstep => ⟨trivial, up_step (pool_threads_stepped hstep)⟩

theorem up_new (n : Nat) : (PoolThreads.new n : PoolThreads τ).up = ThreadPool.new n := by
  simp [PoolThreads.up, PoolThreads.new, ThreadPool.new, workerOf]

theorem pool_refined {n : Nat} {tr : List (PoolMove τ × Option (PoolOutput τ))}
    (h : Run (poolThreadsMachine τ) (PoolThreads.new n) tr pool) :
    Run (poolMachine τ) (ThreadPool.new n) (tr.filterMap seenStep) pool.up := by
  rw [← up_new]
  exact ((poolRefinement τ).run trivial h).2

end Refined

/-! ### The destructor comes to its end -/

section Destructor
variable {τ : Type} {pool pool' : PoolThreads τ} {l : PoolMove τ} {o : Option (PoolOutput τ)}

/-- A thread that is not of the pool. -/
def PoolMove.outside : PoolMove τ → Bool
  | .enqueue _ => true
  | _ => false

/-- What no thread can rely on. -/
def PoolMove.chance : PoolMove τ → Bool
  | .spurious _ => true
  | _ => false

/-- What holds of the workers in every run. -/
structure Manned (pool : PoolThreads τ) : Prop where
  watched : (PoolShared.law τ).Watched pool.monitor
  started : Waiter.away none ∉ pool.monitor.waiters
  closed : ∀ k, pool.joined = some k →
    pool.monitor.shared.stop = true ∧ k ≤ pool.monitor.waiters.length

theorem manned_new (n : Nat) : Manned (PoolThreads.new n : PoolThreads τ) where
  watched := by
    refine watched_of_nobody _ (List.countP_eq_zero.mpr ?_)
    intro w hw
    rw [List.eq_of_mem_replicate hw]
    exact Bool.false_ne_true
  started := fun h => by cases List.eq_of_mem_replicate h
  closed := fun k hk => by cases hk

section Monitored
variable {m m' : PoolMonitor τ} {a : Action (PoolEntry τ)} {r : Effect (Option τ)}

theorem started_step (h : Advance (PoolShared.monitor τ) m a r m')
    (hstarted : Waiter.away none ∉ m.waiters) : Waiter.away none ∉ m'.waiters := by
  intro hmem
  cases h with
  | acted | unheard => exact hstarted hmem
  | notifiedAll =>
    obtain ⟨w, hw, hwake⟩ := List.mem_map.mp hmem
    cases w with
    | away last => exact hstarted (hwake ▸ hw)
    | awake | asleep => cases hwake
  | notified | called | slept | passed | woke =>
    rcases List.mem_or_eq_of_mem_set hmem with hmem | hmem
    · exact hstarted hmem
    · cases hmem

/-- `stop_` is set once and for all. -/
theorem stop_step (h : Advance (PoolShared.monitor τ) m a r m')
    (hstop : m.shared.stop = true) : m'.shared.stop = true := by
  cases h with
  | @acted entry shared signal hact =>
    cases entry with
    | enqueue task =>
      simp only [PoolShared.monitor, PoolShared.act, hstop, if_true] at hact
      cases hact
      exact hstop
    | stop =>
      cases hact
      rfl
  | unheard | notified | notifiedAll | called | slept | woke => exact hstop
  | @passed i shared v hi hpass =>
    simp only [PoolShared.monitor, PoolShared.pass] at hpass
    split at hpass
    case h_1 =>
      rw [if_pos hstop] at hpass
      cases hpass
      exact hstop
    case h_2 =>
      cases hpass
      exact hstop

end Monitored

theorem manned_step (h : Manned pool) (hstep : PoolStepped pool l o pool') : Manned pool' := by
  have hmonitor : ∀ {m : PoolMonitor τ} {a : Action (PoolEntry τ)} {r : Effect (Option τ)},
      Advance (PoolShared.monitor τ) pool.monitor a r m → Manned {pool with monitor := m} := by
    intro m a r hm
    refine ⟨watched_step h.watched hm, started_step hm h.started, fun k hk => ?_⟩
    obtain ⟨hstop, hle⟩ := h.closed k hk
    exact ⟨stop_step hm hstop, by rwa [waiters_length_step hm]⟩
  cases hstep with
  | enqueue hm | notifyOne hm | notifyAll hm | look hm | spurious hm => exact hmonitor hm
  | finish hrunning hm => exact hmonitor hm
  | stop hnone hm =>
    refine ⟨watched_step h.watched hm, started_step hm h.started, fun k hk => ?_⟩
    cases hk
    cases hm with
    | acted hact =>
      cases hact
      exact ⟨rfl, Nat.zero_le _⟩
  | @join k hk howed hexited =>
    refine ⟨h.watched, h.started, fun k' hk' => ?_⟩
    cases hk'
    exact ⟨(h.closed k hk).1, (List.getElem?_eq_some_iff.mp hexited).1⟩

theorem manned_run {n : Nat} {tr : List (PoolMove τ × Option (PoolOutput τ))}
    (h : Run (poolThreadsMachine τ) (PoolThreads.new n) tr pool) : Manned pool :=
  h.invariant (fun _ pool => Manned pool) (manned_new n)
    fun _ _ _ _ _ _ hI hstep => manned_step hI (pool_threads_stepped hstep)

/-- **The pool's condition variable does what the coarse machine takes for granted.** Every
run of the threads is a run of the pool, and a worker sleeps in front of a task or of the
stop only while somebody is on the way to wake it. -/
theorem threads_refine_pool {n : Nat} {tr : List (PoolMove τ × Option (PoolOutput τ))}
    (h : Run (poolThreadsMachine τ) (PoolThreads.new n) tr pool) :
    Run (poolMachine τ) (ThreadPool.new n) (tr.filterMap seenStep) pool.up ∧
      (pool.monitor.Settled → Waiter.asleep ∈ pool.monitor.waiters →
        pool.up.tasks = [] ∧ pool.up.stop = false) := by
  refine ⟨pool_refined h, fun hsettled hasleep => ?_⟩
  have hpass := no_lost_wakeup (manned_run h).watched hsettled hasleep
  obtain ⟨hrunning, hroom⟩ := (PoolShared.law τ).shut.mp hpass
  exact ⟨List.length_eq_zero_iff.mp hroom, eq_false_of_ne_true hrunning⟩

/-- A worker sleeps, the notification for it comes after another has taken the task. -/
def lateNotification : List (PoolMove Nat) :=
  [.look 0, .enqueue 7, .look 1, .notifyOne (some 0), .look 0]

theorem threads_refine_pool_late : ∃ pool tr,
    Run (poolThreadsMachine Nat) (PoolThreads.new 2) tr pool ∧
      dequeuedTasks (tr.filterMap seenStep) = [7] ∧
      pool.up.tasks = [] ∧ pool.up.stop = false := by
  obtain ⟨pool, tr, hrun, hview⟩ := (poolThreadsMachine Nat).exec_view (PoolThreads.new 2)
    lateNotification (fun r => (dequeuedTasks (r.2.filterMap seenStep),
      decide r.1.monitor.Settled, (r.1.monitor.waiters.any Waiter.isAsleep)))
    (v := ([7], true, true)) (by decide)
  obtain ⟨hdequeued, hrest⟩ := Prod.mk.inj hview
  obtain ⟨hsettled, hany⟩ := Prod.mk.inj hrest
  obtain ⟨w, hmem, hw⟩ := List.any_eq_true.mp hany
  have hasleep : Waiter.asleep ∈ pool.monitor.waiters := by
    cases w with
    | asleep => exact hmem
    | away | awake => cases hw
  exact ⟨pool, tr, hrun, hdequeued,
    (threads_refine_pool hrun).2 (of_decide_eq_true hsettled) hasleep⟩

/-- How often a worker that finds `stop_` set still moves, a task of its own apart. -/
def workerLeft : Waiter (Option τ) → Nat
  | .away (some none) => 0
  | .awake => 1
  | _ => 2

def PoolThreads.joinedSoFar (pool : PoolThreads τ) : Nat := pool.joined.getD 0

/-- What the threads of a stopped pool have left to do. -/
def PoolThreads.left (pool : PoolThreads τ) : Nat :=
  (pool.monitor.waiters.map workerLeft).sum + 2 * pool.monitor.shared.tasks.length +
    pool.monitor.owedOne + pool.monitor.owedAll +
    (pool.monitor.waiters.length - pool.joinedSoFar)

theorem workerLeft_wake (w : Waiter (Option τ)) : workerLeft w.wake ≤ workerLeft w := by
  cases w with
  | away => exact Nat.le_refl _
  | awake => exact Nat.le_refl _
  | asleep => exact Nat.le_succ 1

theorem left_woken (ws : List (Waiter (Option τ))) :
    ((ws.map Waiter.wake).map workerLeft).sum ≤ (ws.map workerLeft).sum := by
  induction ws with
  | nil => exact Nat.le_refl _
  | cons w rest ih =>
    simp only [List.map_cons, List.sum_cons]
    have hwake := workerLeft_wake w
    omega

/-- **After the stop every step but a refused `enqueue` is one of finitely many.** -/
theorem left_step (hstop : pool.monitor.shared.stop = true) (hjoined : pool.joined ≠ none)
    (h : PoolStepped pool l o pool') :
    pool'.left + (if l.outside then 0 else 1) ≤ pool.left := by
  cases h with
  | enqueue hm =>
    cases hm with
    | acted hact =>
      simp only [PoolShared.monitor, PoolShared.act, hstop, if_true] at hact
      cases hact
      exact Nat.le_refl _
  | stop hnone => exact absurd hnone hjoined
  | notifyOne hm =>
    cases hm with
    | @unheard owed howed hnone =>
      simp only [PoolThreads.left, PoolThreads.joinedSoFar, PoolMove.outside, howed,
        Bool.false_eq_true, if_false]
      omega
    | @notified owed i howed hi =>
      have hset := sum_map_set hi .awake workerLeft
      simp only [PoolThreads.left, PoolThreads.joinedSoFar, PoolMove.outside, howed,
        State.setWaiter, List.length_set, Bool.false_eq_true, if_false]
      simp only [workerLeft] at hset
      omega
  | notifyAll hm =>
    cases hm with
    | notifiedAll howed =>
      have hwoken := left_woken pool.monitor.waiters
      simp only [PoolThreads.left, PoolThreads.joinedSoFar, PoolMove.outside, howed,
        List.length_map, Bool.false_eq_true, if_false]
      omega
  | look hm =>
    cases hm with
    | slept hi hpass => exact absurd hstop ((PoolShared.law τ).shut.mp hpass).1
    | passed hi hpass =>
      simp only [PoolShared.monitor, PoolShared.pass, hstop, if_true] at hpass
      split at hpass
      case h_1 hempty =>
        cases hpass
        have hset := sum_map_set hi (.away (some none)) workerLeft
        simp only [PoolThreads.left, PoolThreads.joinedSoFar, PoolMove.outside,
          State.setWaiter, List.length_set, Bool.false_eq_true, if_false]
        simp only [workerLeft] at hset
        omega
      case h_2 task rest htasks =>
        cases hpass
        have hset := sum_map_set hi (.away (some (some task))) workerLeft
        simp only [PoolThreads.left, PoolThreads.joinedSoFar, PoolMove.outside,
          State.setWaiter, List.length_set, htasks, List.length_cons, Bool.false_eq_true, if_false]
        simp only [workerLeft] at hset
        omega
  | spurious hm =>
    cases hm with
    | woke hi =>
      have hset := sum_map_set hi .awake workerLeft
      simp only [PoolThreads.left, PoolThreads.joinedSoFar, PoolMove.outside, State.setWaiter,
        List.length_set, Bool.false_eq_true, if_false]
      simp only [workerLeft] at hset
      omega
  | @finish i task r m hrunning hm =>
    cases hm with
    | called hi hagain =>
      have hset := sum_map_set hrunning .awake workerLeft
      simp only [PoolThreads.left, PoolThreads.joinedSoFar, PoolMove.outside, State.setWaiter,
        List.length_set, Bool.false_eq_true, if_false]
      simp only [workerLeft] at hset
      omega
  | @join k hk howed hexited =>
    have hlt : k < pool.monitor.waiters.length := (List.getElem?_eq_some_iff.mp hexited).1
    simp only [PoolThreads.left, PoolThreads.joinedSoFar, PoolMove.outside, hk, Option.getD_some,
      Bool.false_eq_true, if_false]
    omega

/-- As long as the joins are not through, a worker or the destructor can go on. -/
theorem destructor_goes_on (h : Manned pool) (hjoined : pool.joined ≠ none)
    (hleft : ¬ pool.JoinedAll) : ∃ l pool' o, l.outside = false ∧ l.chance = false ∧
      (poolThreadsMachine τ).step pool l = some (pool', o) := by
  obtain ⟨k, hk⟩ := Option.ne_none_iff_exists'.mp hjoined
  obtain ⟨hstop, hle⟩ := h.closed k hk
  have hlt : k < pool.monitor.waiters.length := by
    refine Nat.lt_of_le_of_ne hle fun heq => hleft ?_
    rw [PoolThreads.JoinedAll, hk, heq]
  have hgo : ∀ l : PoolMove τ, l.outside = false → l.chance = false →
      (pool.step l).isSome = true → ∃ l pool' o, l.outside = false ∧ l.chance = false ∧
        (poolThreadsMachine τ).step pool l = some (pool', o) := by
    intro l hown hchance hsome
    obtain ⟨⟨pool', o⟩, hstep⟩ := Option.isSome_iff_exists.mp hsome
    exact ⟨l, pool', o, hown, hchance, hstep⟩
  cases howed : pool.monitor.owedAll with
  | succ owed =>
    exact hgo .notifyAll rfl rfl
      (by simp [PoolThreads.step, PoolThreads.enter, Monitor.step, howed])
  | zero =>
    -- The worker to be joined next decides: awake, with a task, or gone already.
    have hget := List.getElem?_eq_getElem hlt
    cases hworker : pool.monitor.waiters[k] with
    | awake =>
      rw [hworker] at hget
      exact hgo (.look k) rfl rfl
        (by simp [PoolThreads.step, PoolThreads.enter, Monitor.step, hget])
    | asleep =>
      have hmem : Waiter.asleep ∈ pool.monitor.waiters := hworker ▸ List.getElem_mem hlt
      exact absurd hstop (h.watched howed (asleep_ne_zero hmem)).1
    | away last =>
      rw [hworker] at hget
      cases last with
      | none => exact absurd (List.mem_of_getElem? hget) h.started
      | some left =>
        cases left with
        | some task =>
          exact hgo (.finish k) rfl rfl
            (by simp [PoolThreads.step, PoolThreads.enter, Monitor.step, PoolShared.monitor, hget])
        | none =>
          exact hgo .join rfl rfl
            (by simp only [PoolThreads.step, hk, howed, hget, Option.isSome_some])

/-- A stopped pool works itself off. -/
def destructing (τ : Type) : Potential (poolThreadsMachine τ) fun _ _ => True where
  inv pool := Manned pool ∧ pool.joined ≠ none
  size := PoolThreads.left
  cost e := if e.1.outside then 0 else 1
  step := by
    intro pool pool' l o h _ hstep
    have hstepped := pool_threads_stepped hstep
    obtain ⟨k, hk⟩ := Option.ne_none_iff_exists'.mp h.2
    refine ⟨⟨manned_step h.1 hstepped, ?_⟩, left_step (h.1.closed k hk).1 h.2 hstepped⟩
    cases hstepped with
    | enqueue | notifyOne | notifyAll | look | spurious | finish => exact h.2
    | stop | join => exact Option.some_ne_none _

variable {n : Nat} {front tr : List (PoolMove τ × Option (PoolOutput τ))}

theorem joinedAll_up (h : pool.JoinedAll) : pool.up.JoinedAll := by
  rw [ThreadPool.JoinedAll, PoolThreads.up, List.length_map]
  exact h

/-- **`~ThreadPool` returns, and everything accepted has been executed.** Once `stop_` is
set the threads of the pool take a bounded number of steps, whatever their order and
whoever wakes whom; one of them can always go on until the last worker is joined, without
a wakeup by chance; and then no accepted task is left. -/
theorem destructor_returns (hn : 1 ≤ n)
    (h : Run (poolThreadsMachine τ) (PoolThreads.new n) front pool) (hjoined : pool.joined ≠ none) :
    (∃ tr pool', Run (poolThreadsMachine τ) pool tr pool' ∧ pool'.JoinedAll) ∧
      ∀ tr pool', Run (poolThreadsMachine τ) pool tr pool' →
        tr.countP (!·.1.outside) ≤ pool.left ∧
          ((∀ l, l.outside = false → l.chance = false →
            (poolThreadsMachine τ).step pool' l = none) → pool'.JoinedAll) ∧
          (pool'.JoinedAll → (executedTasks ((front ++ tr).filterMap seenStep)).Perm
            (acceptedTasks ((front ++ tr).filterMap seenStep))) := by
  have hmanned := manned_run h
  constructor
  · obtain ⟨tr, pool', hrun, -, hall⟩ := (destructing τ).ends PoolThreads.JoinedAll
      (by
        intro pool hinv hleft
        obtain ⟨l, pool', o, hown, -, hstep⟩ := destructor_goes_on hinv.1 hinv.2 hleft
        refine ⟨l, pool', o, trivial, hstep, ?_⟩
        simp [destructing, hown])
      ⟨hmanned, hjoined⟩
    exact ⟨tr, pool', hrun, hall⟩
  · intro tr pool' hrun
    have hall : StepsMeet (poolThreadsMachine τ) (fun _ _ => True) pool tr :=
      fun _ _ _ _ _ _ => trivial
    obtain ⟨hinv', -⟩ := (destructing τ).total ⟨hmanned, hjoined⟩ hrun hall
    refine ⟨?_, ?_, fun hend => ?_⟩
    · refine (destructing τ).paid_le _ ?_ ⟨hmanned, hjoined⟩ hrun hall
      intro e he
      have hown : e.1.outside = false := by simpa using he
      simp [destructing, hown]
    · intro hstuck
      by_contra hleft
      obtain ⟨l, pool'', o, hown, hchance, hstep⟩ := destructor_goes_on hinv'.1 hinv'.2 hleft
      rw [hstuck l hown hchance] at hstep
      cases hstep
    · exact executed_of_joined hn (pool_refined (h.append hrun)) (joinedAll_up hend)

end Destructor

/-- A worker sleeps when the pool is stopped, another has a task. -/
def stoppedPool : List (PoolMove Nat) :=
  [.look 0, .enqueue 7, .look 1, .notifyOne (some 0), .look 0, .stop, .enqueue 8]

theorem destructor_returns_stopped : ∃ pool front,
    Run (poolThreadsMachine Nat) (PoolThreads.new 2) front pool ∧ pool.left = 7 ∧
      ∃ tr pool', Run (poolThreadsMachine Nat) pool tr pool' ∧ pool'.JoinedAll := by
  obtain ⟨pool, front, hrun, hview⟩ := (poolThreadsMachine Nat).exec_view (PoolThreads.new 2)
    stoppedPool (fun r => (r.1.left, r.1.joined)) (v := (7, some 0)) (by decide)
  obtain ⟨hleft, hjoined⟩ := Prod.mk.inj hview
  exact ⟨pool, front, hrun, hleft,
    (destructor_returns (by decide) hrun (by rw [hjoined]; exact Option.some_ne_none _)).1⟩

end P2PShopping
