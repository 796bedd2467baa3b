import P2PShopping.Library.Collections
import P2PShopping.Library.Runs

/-! `ThreadPool`.

Any thread may call `enqueue`, each worker loops on its own, and the destructor
comes in between whenever it likes: one step of the machine is one critical section
under `queue_mutex_`, the end of one task, or one `join`. What the pool has accepted,
dequeued and executed is read off the outputs of a run, so the law of the pool is
about its history: nothing accepted is lost, nothing runs twice, and the order is
the one of the queue. -/
namespace P2PShopping
open Runs Collections

/-- Where a worker's loop stands. -/
inductive Worker (τ : Type) where
  /-- Before its critical section, or asleep in it. -/
  | waiting
  | running (task : τ)
  | exited

def Worker.task? {τ : Type} : Worker τ → Option τ
  | .running task => some task
  | _ => none

structure ThreadPool (τ : Type) where
  workers : List (Worker τ)
  tasks : List τ := []
  stop : Bool := false
  /-- How many workers the destructor has joined, once it has set `stop_`. -/
  joined : Option Nat := none

inductive PoolStep (τ : Type) where
  /-- The critical section of `enqueue`. -/
  | enqueue (task : τ)
  /-- The critical section of the `i`-th worker, when its wait is over. -/
  | work (i : Nat)
  /-- `task()` returns in the `i`-th worker. -/
  | finish (i : Nat)
  /-- The critical section of the destructor. -/
  | shutdown
  /-- The destructor's next `join`. -/
  | join

inductive PoolOutput (τ : Type) where
  | accepted (task : τ)
  /-- "Cannot enqueue on stopped thread pool" -/
  | rejected (task : τ)
  | dequeued (task : τ)
  | executed (task : τ)
  | returned
  | stopped
  | joined

namespace ThreadPool
variable {τ : Type}

/-- The constructor. -/
def new (threadCount : Nat) : ThreadPool τ := {workers := List.replicate threadCount .waiting}

def enqueue (pool : ThreadPool τ) (task : τ) : ThreadPool τ × PoolOutput τ :=
  if pool.stop then (pool, .rejected task)
  else ({pool with tasks := pool.tasks ++ [task]}, .accepted task)

/-- The critical section of a worker; `none` is a `wait` that goes on. -/
def work (pool : ThreadPool τ) (i : Nat) : Option (ThreadPool τ × PoolOutput τ) :=
  match pool.tasks with
  | [] =>
    if pool.stop then some ({pool with workers := pool.workers.set i .exited}, .returned)
    else none
  | task :: rest =>
    some ({pool with workers := pool.workers.set i (.running task), tasks := rest}, .dequeued task)

def step (pool : ThreadPool τ) : PoolStep τ → Option (ThreadPool τ × PoolOutput τ)
  | .enqueue task => some (pool.enqueue task)
  | .work i =>
    match pool.workers[i]? with
    | some .waiting => pool.work i
    | _ => none
  | .finish i =>
    match pool.workers[i]? with
    | some (.running task) =>
      some ({pool with workers := pool.workers.set i .waiting}, .executed task)
    | _ => none
  | .shutdown =>
    match pool.joined with
    | none => some ({pool with stop := true, joined := some 0}, .stopped)
    | some _ => none
  | .join =>
    match pool.joined with
    | none => none
    | some k =>
      match pool.workers[k]? with
      | some .exited => some ({pool with joined := some (k + 1)}, .joined)
      | _ => none

/-- The destructor's loop is over. -/
def JoinedAll (pool : ThreadPool τ) : Prop := pool.joined = some pool.workers.length

instance (pool : ThreadPool τ) : Decidable pool.JoinedAll :=
  inferInstanceAs (Decidable (pool.joined = some pool.workers.length))

/-- The tasks some worker is at. -/
def running (pool : ThreadPool τ) : List τ := pool.workers.filterMap Worker.task?

end ThreadPool

def poolMachine (τ : Type) : Machine (ThreadPool τ) (PoolStep τ) (PoolOutput τ) where
  step := ThreadPool.step

/-! ### What the history says -/

section History
variable {τ : Type}

def PoolOutput.accepted? : PoolOutput τ → Option τ
  | .accepted task => some task
  | _ => none

def PoolOutput.dequeued? : PoolOutput τ → Option τ
  | .dequeued task => some task
  | _ => none

def PoolOutput.executed? : PoolOutput τ → Option τ
  | .executed task => some task
  | _ => none

abbrev PoolHistory (τ : Type) := List (PoolStep τ × PoolOutput τ)

def acceptedTasks (tr : PoolHistory τ) : List τ := tr.filterMap (·.2.accepted?)
def dequeuedTasks (tr : PoolHistory τ) : List τ := tr.filterMap (·.2.dequeued?)
def executedTasks (tr : PoolHistory τ) : List τ := tr.filterMap (·.2.executed?)

section Snoc
variable (tr : PoolHistory τ) (l : PoolStep τ) (o : PoolOutput τ)

theorem acceptedTasks_snoc :
    acceptedTasks (tr ++ [(l, o)]) = acceptedTasks tr ++ o.accepted?.toList := by
  cases h : o.accepted? <;> simp [acceptedTasks, h]

theorem dequeuedTasks_snoc :
    dequeuedTasks (tr ++ [(l, o)]) = dequeuedTasks tr ++ o.dequeued?.toList := by
  cases h : o.dequeued? <;> simp [dequeuedTasks, h]

theorem executedTasks_snoc :
    executedTasks (tr ++ [(l, o)]) = executedTasks tr ++ o.executed?.toList := by
  cases h : o.executed? <;> simp [executedTasks, h]

end Snoc

end History

/-! ### The invariant -/

section Invariant
variable {τ : Type} {pool pool' : ThreadPool τ} {l : PoolStep τ} {o : PoolOutput τ}

/-- Every task accepted is in one place: waiting in the queue, with a worker, or done. -/
structure Accounted (tr : PoolHistory τ) (pool : ThreadPool τ) : Prop where
  /-- The queue is what is left of the accepted tasks. -/
  queued : dequeuedTasks tr ++ pool.tasks = acceptedTasks tr
  held : (executedTasks tr ++ pool.running).Perm (dequeuedTasks tr)
  /-- A worker leaves its loop only when nothing is left, and nothing comes then. -/
  drained : Worker.exited ∈ pool.workers → pool.stop = true ∧ pool.tasks = []
  joined : ∀ k, pool.joined = some k → ∀ i < k, pool.workers[i]? = some .exited

/-- What a step can be, one constructor for each way through a critical section. -/
inductive Stepped (pool : ThreadPool τ) : PoolStep τ → PoolOutput τ → ThreadPool τ → Prop where
  | rejected {task : τ} : pool.stop = true → Stepped pool (.enqueue task) (.rejected task) pool
  | accepted {task : τ} : pool.stop = false →
      Stepped pool (.enqueue task) (.accepted task) {pool with tasks := pool.tasks ++ [task]}
  | dequeued {i : Nat} {task : τ} {rest : List τ} :
      pool.workers[i]? = some .waiting → pool.tasks = task :: rest →
      Stepped pool (.work i) (.dequeued task)
        {pool with workers := pool.workers.set i (.running task), tasks := rest}
  | returned {i : Nat} :
      pool.workers[i]? = some .waiting → pool.tasks = [] → pool.stop = true →
      Stepped pool (.work i) .returned {pool with workers := pool.workers.set i .exited}
  | executed {i : Nat} {task : τ} : pool.workers[i]? = some (.running task) →
      Stepped pool (.finish i) (.executed task) {pool with workers := pool.workers.set i .waiting}
  | stopped : pool.joined = none →
      Stepped pool .shutdown .stopped {pool with stop := true, joined := some 0}
  | joined {k : Nat} : pool.joined = some k → pool.workers[k]? = some .exited →
      Stepped pool .join .joined {pool with joined := some (k + 1)}

theorem pool_stepped (h : (poolMachine τ).step pool l = some (pool', o)) :
    Stepped pool l o pool' := by
  simp only [poolMachine, ThreadPool.step] at h
  cases l with
  | enqueue task =>
    simp only [ThreadPool.enqueue] at h
    split at h
    case isTrue hstop =>
      cases h
      exact .rejected hstop
    case isFalse hrunning =>
      cases h
      exact .accepted (by simpa using hrunning)
  | work i =>
    simp only [ThreadPool.work] at h
    split at h
    case h_2 => cases h
    case h_1 hwaiting =>
      split at h
      case h_1 hempty =>
        split at h
        case isTrue hstop =>
          cases h
          exact .returned hwaiting hempty hstop
        case isFalse => cases h
      case h_2 task rest htasks =>
        cases h
        exact .dequeued hwaiting htasks
  | finish i =>
    simp only at h
    split at h
    case h_2 => cases h
    case h_1 task hrunning =>
      cases h
      exact .executed hrunning
  | shutdown =>
    simp only at h
    split at h
    case h_2 => cases h
    case h_1 hnone =>
      cases h
      exact .stopped hnone
  | join =>
    simp only at h
    split at h
    case h_1 => cases h
    case h_2 k hk =>
      split at h
      case h_2 => cases h
      case h_1 hexited =>
        cases h
        exact .joined hk hexited

theorem accounted_new (n : Nat) : Accounted [] (ThreadPool.new n : ThreadPool τ) where
  queued := rfl
  held := by
    have hnone : (ThreadPool.new n : ThreadPool τ).running = [] := by
      rw [ThreadPool.running, List.filterMap_eq_nil_iff]
      intro w hw
      rw [List.eq_of_mem_replicate hw]
      rfl
    rw [hnone]
    exact .refl _
  drained := fun hexited => by cases List.eq_of_mem_replicate hexited
  joined := fun k hk => by cases hk

/-! ### One step -/

section Step
variable {tr : PoolHistory τ}

theorem queued_step (h : Accounted tr pool) (hstep : Stepped pool l o pool') :
    dequeuedTasks (tr ++ [(l, o)]) ++ pool'.tasks = acceptedTasks (tr ++ [(l, o)]) := by
  rw [dequeuedTasks_snoc, acceptedTasks_snoc, ← h.queued]
  cases hstep with
  | accepted | rejected | returned | executed | stopped | joined =>
    simp [PoolOutput.dequeued?, PoolOutput.accepted?]
  | dequeued hwaiting htasks => simp [PoolOutput.dequeued?, PoolOutput.accepted?, htasks]

/-- A task starts to run when it leaves the queue, and stops when it has been executed. -/
theorem running_step (hstep : Stepped pool l o pool') :
    (o.executed?.toList ++ pool'.running).Perm (o.dequeued?.toList ++ pool.running) := by
  cases hstep with
  | rejected | accepted | stopped | joined => exact .refl _
  | dequeued hwaiting htasks => exact perm_filterMap_set hwaiting _ Worker.task?
  | returned hwaiting hempty hstop => exact perm_filterMap_set hwaiting _ Worker.task?
  | executed hrunning => exact perm_filterMap_set hrunning _ Worker.task?

theorem held_step (h : Accounted tr pool) (hstep : Stepped pool l o pool') :
    (executedTasks (tr ++ [(l, o)]) ++ pool'.running).Perm (dequeuedTasks (tr ++ [(l, o)])) := by
  rw [executedTasks_snoc, dequeuedTasks_snoc, List.append_assoc]
  calc executedTasks tr ++ (o.executed?.toList ++ pool'.running)
    _ |>.Perm (executedTasks tr ++ (o.dequeued?.toList ++ pool.running)) :=
      (running_step hstep).append_left _
    _ |>.Perm (o.dequeued?.toList ++ (executedTasks tr ++ pool.running)) :=
      List.perm_append_comm_assoc _ _ _
    _ |>.Perm (o.dequeued?.toList ++ dequeuedTasks tr) := h.held.append_left _
    _ |>.Perm (dequeuedTasks tr ++ o.dequeued?.toList) := List.perm_append_comm

theorem drained_step (h : Accounted tr pool) (hstep : Stepped pool l o pool')
    (hexited : Worker.exited ∈ pool'.workers) : pool'.stop = true ∧ pool'.tasks = [] := by
  cases hstep with
  | rejected | joined => exact h.drained hexited
  | accepted hrunning =>
    rw [(h.drained hexited).1] at hrunning
    cases hrunning
  | dequeued hwaiting htasks =>
    rcases List.mem_or_eq_of_mem_set hexited with hexited | hexited
    · rw [(h.drained hexited).2] at htasks
      cases htasks
    · cases hexited
  | returned hwaiting hempty hstop => exact ⟨hstop, hempty⟩
  | executed hrunning =>
    rcases List.mem_or_eq_of_mem_set hexited with hexited | hexited
    · exact h.drained hexited
    · cases hexited
  | stopped => exact ⟨rfl, (h.drained hexited).2⟩

/-- A worker that has left its loop is not moved again. -/
theorem exited_step (hstep : Stepped pool l o pool') {i : Nat}
    (hi : pool.workers[i]? = some .exited) :
    pool'.workers[i]? = some .exited := by
  cases hstep with
  | rejected | accepted | stopped | joined => exact hi
  | @dequeued k task rest hmoved | @returned k hmoved | @executed k task hmoved =>
    have hne : k ≠ i := by
      intro hsame
      rw [hsame, hi] at hmoved
      cases hmoved
    rw [List.getElem?_set_ne hne]
    exact hi

theorem joined_step (h : Accounted tr pool) (hstep : Stepped pool l o pool') (k : Nat)
    (hk : pool'.joined = some k) (i : Nat) (hi : i < k) : pool'.workers[i]? = some .exited := by
  have hkeep := exited_step hstep (i := i)
  cases hstep with
  | rejected | accepted | dequeued | returned | executed => exact hkeep (h.joined k hk i hi)
  | stopped =>
    cases hk
    cases hi
  | @joined n hn hexited =>
    cases hk
    rcases Nat.lt_succ_iff_lt_or_eq.mp hi with hi | rfl
    · exact h.joined n hn i hi
    · exact hexited

end Step

/-- **One step keeps every task in one place.** -/
theorem accounted_step {tr : PoolHistory τ} (h : Accounted tr pool)
    (hstep : (poolMachine τ).step pool l = some (pool', o)) : Accounted (tr ++ [(l, o)]) pool' :=
  have hstepped := pool_stepped hstep
  ⟨queued_step h hstepped, held_step h hstepped, drained_step h hstepped, joined_step h hstepped⟩

/-! ### Runs -/

section Run
variable {n : Nat} {tr : PoolHistory τ}

theorem accounted_run (h : Run (poolMachine τ) (ThreadPool.new n) tr pool) : Accounted tr pool :=
  h.invariant Accounted (accounted_new n) fun _ _ _ _ _ _ hI hstep => accounted_step hI hstep

theorem workers_length (h : Run (poolMachine τ) (ThreadPool.new n) tr pool) :
    pool.workers.length = n := by
  refine h.invariant (fun _ pool => pool.workers.length = n) List.length_replicate ?_
  intro tr pool l pool' o _ ih hstep
  cases pool_stepped hstep with
  | rejected | accepted | stopped | joined => exact ih
  | dequeued | returned | executed => rwa [List.length_set]

/-- The flag is never lowered, and `enqueue` throws while it is up. -/
theorem accepts_none_stopped {mid : ThreadPool τ} (hstop : mid.stop = true)
    (h : Run (poolMachine τ) mid tr pool) : acceptedTasks tr = [] := by
  have hinv : pool.stop = true ∧ acceptedTasks tr = [] := by
    refine h.invariant (fun tr pool => pool.stop = true ∧ acceptedTasks tr = []) ⟨hstop, rfl⟩ ?_
    intro tr pool l pool' o _ ih hstep
    rw [acceptedTasks_snoc, ih.2]
    cases pool_stepped hstep with
    | accepted hrunning =>
      rw [ih.1] at hrunning
      cases hrunning
    | rejected | dequeued | returned | executed | joined => exact ⟨ih.1, rfl⟩
    | stopped => exact ⟨rfl, rfl⟩
  exact hinv.2

/-- After the last `join` no worker is left, so no task is queued or running. -/
theorem executed_of_joined (hn : 1 ≤ n) (h : Run (poolMachine τ) (ThreadPool.new n) tr pool)
    (hjoined : pool.JoinedAll) : (executedTasks tr).Perm (acceptedTasks tr) := by
  have hinv := accounted_run h
  have hexited : ∀ w ∈ pool.workers, w = .exited := by
    intro w hw
    obtain ⟨i, hi, rfl⟩ := List.getElem_of_mem hw
    have hget := hinv.joined _ hjoined i hi
    rw [List.getElem?_eq_getElem hi] at hget
    exact Option.some.inj hget
  have hrunning : pool.running = [] := by
    rw [ThreadPool.running, List.filterMap_eq_nil_iff]
    intro w hw
    rw [hexited w hw]
    rfl
  have hempty : pool.tasks = [] := by
    have hpos : 0 < pool.workers.length := by
      rw [workers_length h]
      exact hn
    have hfirst := List.getElem_mem hpos
    exact (hinv.drained (hexited _ hfirst ▸ hfirst)).2
  have hheld := hinv.held
  have hqueued := hinv.queued
  rw [hrunning, List.append_nil] at hheld
  rw [hempty, List.append_nil] at hqueued
  rwa [← hqueued]

/-- **The pool runs every accepted task exactly once.** Tasks leave the queue in the
order in which they were accepted, none of them twice; none is accepted once `stop_`
is set; and when the destructor is through, what was executed is what was accepted. -/
theorem pool_runs_accepted (hn : 1 ≤ n)
    (h : Run (poolMachine τ) (ThreadPool.new n) tr pool) :
    dequeuedTasks tr <+: acceptedTasks tr ∧
      ((acceptedTasks tr).Nodup → (dequeuedTasks tr).Nodup) ∧
      (∀ front back mid, tr = front ++ back → Run (poolMachine τ) (ThreadPool.new n) front mid →
        mid.stop = true → acceptedTasks back = []) ∧
      (pool.JoinedAll → (executedTasks tr).Perm (acceptedTasks tr)) := by
  have horder : dequeuedTasks tr <+: acceptedTasks tr := ⟨pool.tasks, (accounted_run h).queued⟩
  refine ⟨horder, fun hnodup => hnodup.sublist horder.sublist, ?_, executed_of_joined hn h⟩
  intro front back mid htr hfront hstop
  rw [htr] at h
  obtain ⟨mid', hfront', hback⟩ := h.split
  obtain rfl := hfront.deterministic hfront'
  exact accepts_none_stopped hstop hback

end Run

end Invariant

/-- Two workers share three tasks, the last of them accepted just before the stop. -/
def sharedTasks : List (PoolStep Nat) :=
  [.enqueue 1, .enqueue 2, .work 1, .work 0, .enqueue 3, .finish 0, .shutdown, .enqueue 4, .work 0,
   .finish 1, .work 1, .finish 0, .work 0, .join, .join]

theorem pool_runs_accepted_shared : ∃ pool tr,
    Run (poolMachine Nat) (ThreadPool.new 2) tr pool ∧ pool.JoinedAll ∧
      (executedTasks tr).Perm (acceptedTasks tr) := by
  obtain ⟨pool, tr, hrun, hview⟩ := (poolMachine Nat).exec_view (ThreadPool.new 2) sharedTasks
    (fun r => decide r.1.JoinedAll) (v := true) (by decide)
  have hjoined : pool.JoinedAll := of_decide_eq_true hview
  exact ⟨pool, tr, hrun, hjoined, (pool_runs_accepted (by decide) hrun).2.2.2 hjoined⟩

end P2PShopping
