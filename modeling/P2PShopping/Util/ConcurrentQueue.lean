import P2PShopping.Library.Monitors

/-! `ConcurrentQueue`.

`push` appends under the mutex and notifies one consumer after it has unlocked;
`wait_and_pop` sleeps while the queue is empty and then takes its front. Any number of
threads push and any number wait, and everything a condition variable may do is a step:
the notification comes late, it wakes a thread that finds the queue empty again, or a
thread wakes by itself. The queue still hands out what was pushed, in that order, and no
item is left in front of a thread that sleeps. -/
namespace P2PShopping
open Runs Monitors

section Queue
variable {T : Type}

namespace ConcurrentQueue

/-- The critical section of `push`; `notify_one` follows once it has unlocked. -/
def push (queue : List T) (item : T) : List T × Signal := (queue ++ [item], .one)

/-- The critical section of `wait_and_pop` when its wait is over. -/
def waitAndPop : List T → Option (List T × T)
  | [] => none
  | item :: rest => some (rest, item)

def monitor (T : Type) : Monitor (List T) T T where
  act := push
  pass := waitAndPop
  again _ := true

/-- One item lets one thread through, and whoever adds one notifies one. -/
def law (T : Type) : Law (monitor T) where
  opened _ := False
  room := List.length
  shut := by
    intro queue
    cases queue <;> simp [monitor, waitAndPop]
  pass := by
    intro queue queue' item h _
    cases queue with
    | nil => cases h
    | cons _ rest =>
      cases h
      exact ⟨id, Nat.le_refl _⟩
  act := by
    intro queue queue' item signal h _ _
    cases h
    exact ⟨id, by simp [Signal.ones]⟩

end ConcurrentQueue

abbrev QueueState (T : Type) := Monitors.State (List T) T

def queueMachine (T : Type) : Machine (QueueState T) (Action T) (Effect T) :=
  machine (ConcurrentQueue.monitor T)

abbrev QueueHistory (T : Type) := List (Action T × Effect T)

def pushedItem : Action T → Option T
  | .act item => some item
  | _ => none

def pushedItems (tr : QueueHistory T) : List T := tr.filterMap (pushedItem ·.1)
def poppedItems (tr : QueueHistory T) : List T := tr.filterMap (·.2.passed?)

section Snoc
variable (tr : QueueHistory T) (l : Action T) (o : Effect T)

theorem pushedItems_snoc :
    pushedItems (tr ++ [(l, o)]) = pushedItems tr ++ (pushedItem l).toList := by
  cases h : pushedItem l <;> simp [pushedItems, h]

theorem poppedItems_snoc :
    poppedItems (tr ++ [(l, o)]) = poppedItems tr ++ o.passed?.toList := by
  cases h : o.passed? <;> simp [poppedItems, h]

end Snoc

/-! ### First in, first out -/

section Order
variable {s s' : QueueState T} {l : Action T} {o : Effect T} {tr : QueueHistory T}

theorem queue_step (h : Advance (ConcurrentQueue.monitor T) s l o s') :
    o.passed?.toList ++ s'.shared = s.shared ++ (pushedItem l).toList := by
  cases h with
  | acted hact =>
    cases hact
    rfl
  | unheard | notified | notifiedAll | called | slept | woke => exact (List.append_nil _).symm
  | passed hi hpass =>
    cases hqueue : s.shared with
    | nil =>
      rw [hqueue] at hpass
      cases hpass
    | cons item rest =>
      rw [hqueue] at hpass
      cases hpass
      exact (List.append_nil _).symm

/-- What was in the queue and what was pushed comes out in this order, or is still there. -/
theorem popped_pushed (h : Run (queueMachine T) s tr s') :
    poppedItems tr ++ s'.shared = s.shared ++ pushedItems tr := by
  refine h.invariant
    (fun tr s' => poppedItems tr ++ s'.shared = s.shared ++ pushedItems tr) ?_ ?_
  · exact (List.append_nil _).symm
  · intro tr s₁ l s₂ o _ ih hstep
    rw [poppedItems_snoc, pushedItems_snoc, List.append_assoc, queue_step (advance hstep),
      ← List.append_assoc, ih, List.append_assoc]

end Order

/-! ### Nobody sleeps in front of an item -/

section Serve
variable {s s' : QueueState T} {tr : QueueHistory T}

/-- No producer comes, no consumer comes, and nobody wakes without a reason. -/
def LeftAlone (s : QueueState T) (tr : QueueHistory T) : Prop :=
  StepsMeet (queueMachine T) (fun _ l => l.internal = true) s tr

theorem pushed_leftAlone (hrun : Run (queueMachine T) s tr s') (h : LeftAlone s tr) :
    pushedItems tr = [] := by
  refine hrun.invariant_of _ (fun tr _ => pushedItems tr = []) rfl ?_ h
  intro tr s l s' o _ ih hl _
  rw [pushedItems_snoc, ih]
  cases l with
  | act item => cases hl
  | notifyOne | notifyAll | call | look | spurious => rfl

theorem waiting_leftAlone (hrun : Run (queueMachine T) s tr s') (h : LeftAlone s tr) :
    s'.waiting + (poppedItems tr).length = s.waiting := by
  refine hrun.invariant_of _ (fun tr s' => s'.waiting + (poppedItems tr).length = s.waiting)
    rfl ?_ h
  intro tr s₁ l s₂ o _ ih hl hstep
  rw [poppedItems_snoc, List.length_append]
  have hout := waiting_step hl (advance hstep)
  omega

/-- Who waits when nothing is on its way waits in front of an empty queue. -/
theorem empty_of_settled (h : (ConcurrentQueue.law T).Watched s) (hsettled : s.Settled) :
    s.shared = [] ∨ s.waiting = 0 := by
  by_cases hasleep : s.asleep = 0
  · refine .inr ?_
    rw [State.waiting, hsettled.2.2, hasleep]
  · refine .inl ?_
    obtain ⟨i, hi⟩ := exists_asleep hasleep
    have hpass := no_lost_wakeup h hsettled (List.mem_of_getElem? hi)
    exact List.length_eq_zero_iff.mp ((ConcurrentQueue.law T).shut.mp hpass).2

variable {n : Nat} {front : QueueHistory T}

/-- As many items go out as there are, or as there are threads to take them. -/
theorem served_settled (hfront : Run (queueMachine T) (State.start [] n) front s)
    (hrun : Run (queueMachine T) s tr s') (halone : LeftAlone s tr) (hsettled : s'.Settled) :
    (poppedItems tr).length = min s.shared.length s.waiting := by
  have hwatched := watched_run (ConcurrentQueue.law T) (hfront.append hrun)
  have hitems := congrArg List.length (popped_pushed hrun)
  have hthreads := waiting_leftAlone hrun halone
  rw [pushed_leftAlone hrun halone, List.append_nil, List.length_append] at hitems
  rcases empty_of_settled hwatched hsettled with hempty | hnobody
  · rw [hempty, List.length_nil] at hitems
    omega
  · omega

/-- **The queue is first in, first out for any number of producers and consumers, and no
item waits for a consumer that sleeps**: what is on its way arrives after a bounded number
of steps, and then all items are out or nobody is left who waits. -/
theorem queue_serves (h : Run (queueMachine T) (State.start [] n) front s) :
    poppedItems front ++ s.shared = pushedItems front ∧
      (s.Settled → s.shared = [] ∨ s.waiting = 0) ∧
      (∃ tr s', Run (queueMachine T) s tr s' ∧ LeftAlone s tr ∧ s'.Settled) ∧
      ∀ tr s', Run (queueMachine T) s tr s' → LeftAlone s tr →
        tr.length ≤ onTheWay s ∧
          (s'.Settled → (poppedItems tr).length = min s.shared.length s.waiting) := by
  refine ⟨popped_pushed h, empty_of_settled (watched_run (ConcurrentQueue.law T) h), ?_, ?_⟩
  · refine (settling (ConcurrentQueue.monitor T)).ends State.Settled ?_ trivial
    intro s _ hgoing
    obtain ⟨l, s', o, hl, hstep⟩ := goes_on (ConcurrentQueue.monitor T) hgoing
    exact ⟨l, s', o, hl, hstep, Nat.le_refl 1⟩
  · intro tr s' hrun halone
    refine ⟨?_, served_settled h hrun halone⟩
    have hpaid := (settling (ConcurrentQueue.monitor T)).paid_le (fun _ => true)
      (fun _ _ => Nat.le_refl 1) trivial hrun halone
    rwa [List.countP_true] at hpaid

end Serve

end Queue

/-- A consumer sleeps, two items are pushed, and another consumer is quicker than the
notification. -/
def overtakenConsumer : List (Action Nat) :=
  [.call 0, .look 0, .act 5, .call 1, .look 1, .notifyOne (some 0), .act 6, .look 0]

theorem queue_serves_overtaken : ∃ s tr, Run (queueMachine Nat) (State.start [] 2) tr s ∧
    poppedItems tr = [5, 6] ∧ poppedItems tr ++ s.shared = pushedItems tr := by
  obtain ⟨s, tr, hrun, hview⟩ := (queueMachine Nat).exec_view (State.start [] 2) overtakenConsumer
    (fun r => poppedItems r.2) (v := [5, 6]) (by decide)
  exact ⟨s, tr, hrun, hview, (queue_serves hrun).1⟩

end P2PShopping
