/-
# `Tavernmx.Server.PoolThreads` — the thread pool, one critical section at a time

`main` owns a `BS::thread_pool` and hands it one task for each client.  The threads
share with it a queue, a counter and two flags, all under one mutex, and two
condition variables.  One step is what happens under the mutex at a time, or one
look at a variable without it.

    thread    entering ──▸ askingWaiting ─▸ askingRunning ─▸ askingTasks ─▸ notifying
                               ▴     └──────────────┴───┬───────────┘           │
                               │                        ▾                       │
              finishing ───────┘     asleep ◂────── checking ◂──────────────────┘
                  ▴                                     │ └──▸ ended
                  └───────── running ◂──────────────────┘

A thread that has counted itself out looks, without the mutex, whether `wait` is to be
notified, and then for the next task.  It sleeps when there is none, and a notification
that comes while it does not sleep is lost to it.  `Unslept` is why nothing is lost by
that, neither for the threads (`work_conserving`) nor for `wait`.

`handedOver`, `begun` and `finished` are records of the tasks.
-/
import Mathlib.Algebra.BigOperators.Group.List.Basic
import Tavernmx.Lib.Runs
import Tavernmx.Server.Worker

namespace Tavernmx.Server

/-- Where a thread of the pool is. -/
inductive PoolThread (Task : Type) where
  /-- Before it has the mutex for the first time. -/
  | entering
  /-- At `waiting`, the first of the conditions for notifying. -/
  | askingWaiting
  | askingRunning
  | askingTasks
  | notifying
  /-- At the predicate of `task_available_cv.wait`. -/
  | checking
  | asleep
  | running (task : Task)
  /-- The task is over, and the thread has not counted itself out. -/
  | finishing (task : Task)
  | ended
  deriving DecidableEq, Repr

/-- Where the pool's owner is. -/
inductive PoolOwner where
  /-- In `create_threads`. -/
  | creating
  | idle
  /-- At `notify_one`, after a task was put into the queue. -/
  | notifying
  /-- At the predicate of `wait`, which the destructor calls. -/
  | checking
  | asleep
  /-- At `destroy_threads`. -/
  | stopping
  /-- At `notify_all`. -/
  | broadcasting
  | joining (i : Nat)
  | destroyed
  deriving DecidableEq, Repr

structure TaskPool (Task : Type) where
  threadCount : Nat
  threads : List (PoolThread Task)
  tasks : List Task
  tasksRunning : Nat
  waiting : Bool
  workersRunning : Bool
  owner : PoolOwner
  handedOver : List Task
  begun : List Task
  finished : List Task

variable {Task : Type}

namespace PoolThread

/-- A notification of `task_available_cv`. -/
def wake : PoolThread Task → PoolThread Task
  | .asleep => .checking
  | w => w

def isAsleep : PoolThread Task → Bool
  | .asleep => true
  | _ => false

def hasEnded : PoolThread Task → Bool
  | .ended => true
  | _ => false

/-- The task of a thread that has not counted itself out. -/
def task? : PoolThread Task → Option Task
  | .running task | .finishing task => some task
  | _ => none

/-- The thread is counted as running. -/
def isCounted : PoolThread Task → Bool
  | .entering | .running _ | .finishing _ => true
  | _ => false

/-- The thread is on its way to the queue. -/
def isComing : PoolThread Task → Bool
  | .asleep | .running _ | .ended => false
  | _ => true

/-- The thread is about to notify `wait`, if there is need. -/
def isAsking : PoolThread Task → Bool
  | .askingWaiting | .askingRunning | .askingTasks | .notifying => true
  | _ => false

end PoolThread

/-- A notification of `tasks_done_cv`. -/
def PoolOwner.wake : PoolOwner → PoolOwner
  | .asleep => .checking
  | owner => owner

namespace TaskPool

/-- The constructor, as far as `create_threads` has set the counter. -/
def create (threadCount : Nat) : TaskPool Task :=
  ⟨threadCount, [], [], threadCount, false, true, .creating, [], [], []⟩

/-- `worker`: what a thread does next, and where it is then. -/
def advance (p : TaskPool Task) : PoolThread Task → Option (TaskPool Task × PoolThread Task)
  | .entering => some ({ p with tasksRunning := p.tasksRunning - 1 }, .askingWaiting)
  | .finishing task =>
    some ({ p with tasksRunning := p.tasksRunning - 1, finished := p.finished ++ [task] },
      .askingWaiting)
  | .askingWaiting => some (p, if p.waiting then .askingRunning else .checking)
  | .askingRunning => some (p, if p.tasksRunning = 0 then .askingTasks else .checking)
  | .askingTasks => some (p, if p.tasks.isEmpty then .notifying else .checking)
  | .notifying => some ({ p with owner := p.owner.wake }, .checking)
  | .checking =>
    if p.workersRunning then
      match p.tasks with
      | task :: tasks =>
        some ({ p with
          tasks, tasksRunning := p.tasksRunning + 1, begun := p.begun ++ [task] }, .running task)
      | [] => some (p, .asleep)
    else some (p, .ended)
  | .asleep | .running _ | .ended => none

/-- What the owner does next, in the constructor or the destructor. -/
def ownerStep (p : TaskPool Task) : Option (TaskPool Task) :=
  match p.owner with
  | .creating =>
    if p.threads.length < p.threadCount then some { p with threads := p.threads ++ [.entering] }
    else some { p with owner := .idle }
  | .checking =>
    if p.tasksRunning = 0 ∧ p.tasks.isEmpty then
      some { p with waiting := false, owner := .stopping }
    else some { p with owner := .asleep }
  | .stopping => some { p with workersRunning := false, owner := .broadcasting }
  | .broadcasting => some { p with threads := p.threads.map PoolThread.wake, owner := .joining 0 }
  | .joining i =>
    if i < p.threadCount then
      if (p.threads[i]?).any PoolThread.hasEnded then some { p with owner := .joining (i + 1) }
      else none
    else some { p with owner := .destroyed }
  | .idle | .notifying | .asleep | .destroyed => none

inductive Event (Task : Type) where
  | owner
  /-- `detach_task`, up to `notify_one`. -/
  | detachTask (task : Task)
  /-- `notify_one`, with the thread that is woken, if one sleeps. -/
  | notifyOne (i : Option Nat)
  /-- The destructor is called. -/
  | destroy
  | thread (i : Nat)
  /-- The task of the thread returns. -/
  | taskEnds (i : Nat)
  /-- A wait ends without a notification. -/
  | spurious (i : Option Nat)

def exec (p : TaskPool Task) : Event Task → Option (TaskPool Task)
  | .owner => p.ownerStep
  | .detachTask task =>
    if p.owner = .idle then
      some { p with
        tasks := p.tasks ++ [task], owner := .notifying, handedOver := p.handedOver ++ [task] }
    else none
  | .notifyOne (some i) =>
    if p.owner = .notifying ∧ (p.threads[i]?).any PoolThread.isAsleep then
      some { p with threads := p.threads.set i .checking, owner := .idle }
    else none
  | .notifyOne none =>
    if p.owner = .notifying ∧ ¬ p.threads.any PoolThread.isAsleep then
      some { p with owner := .idle }
    else none
  | .destroy =>
    if p.owner = .idle then some { p with waiting := true, owner := .checking } else none
  | .thread i => do
    let w ← p.threads[i]?
    let (p, w) ← p.advance w
    pure { p with threads := p.threads.set i w }
  | .taskEnds i =>
    match p.threads[i]? with
    | some (.running task) => some { p with threads := p.threads.set i (.finishing task) }
    | _ => none
  | .spurious (some i) =>
    if (p.threads[i]?).any PoolThread.isAsleep then
      some { p with threads := p.threads.set i .checking }
    else none
  | .spurious none => if p.owner = .asleep then some { p with owner := .checking } else none

end TaskPool

/-- The pool of `main`. -/
def taskPool (Task : Type) (threadCount : Nat) :
    LabelledSystem (TaskPool Task) (TaskPool.Event Task) where
  init p := p = .create threadCount
  step p e p' := p.exec e = some p'

/-! ## What one step does -/

/-- What a thread can do next: `advance`, read as a relation. -/
inductive Advance (p : TaskPool Task) :
    PoolThread Task → TaskPool Task → PoolThread Task → Prop where
  | enter : Advance p .entering { p with tasksRunning := p.tasksRunning - 1 } .askingWaiting
  | finish (task : Task) : Advance p (.finishing task)
      { p with tasksRunning := p.tasksRunning - 1, finished := p.finished ++ [task] } .askingWaiting
  | askWaiting (hwaiting : p.waiting = true) : Advance p .askingWaiting p .askingRunning
  | askRunning (hrunning : p.tasksRunning = 0) : Advance p .askingRunning p .askingTasks
  | askTasks (htasks : p.tasks = []) : Advance p .askingTasks p .notifying
  /-- Nobody is to be notified. -/
  | look {w : PoolThread Task} (hasking : w.isAsking = true)
      (hnot : p.waiting = false ∨ p.tasksRunning ≠ 0 ∨ p.tasks ≠ []) : Advance p w p .checking
  | notify : Advance p .notifying { p with owner := p.owner.wake } .checking
  | pickUp {task : Task} {tasks : List Task} (hworkers : p.workersRunning = true)
      (htasks : p.tasks = task :: tasks) : Advance p .checking
        { p with tasks, tasksRunning := p.tasksRunning + 1, begun := p.begun ++ [task] }
        (.running task)
  | sleep (hworkers : p.workersRunning = true) (htasks : p.tasks = []) :
      Advance p .checking p .asleep
  | leave (hworkers : p.workersRunning = false) : Advance p .checking p .ended

theorem PoolThread.isCounted_of_isAsking {w : PoolThread Task} (h : w.isAsking = true) :
    w.isCounted = false ∧ w.task? = none := by
  cases w <;> first | exact ⟨rfl, rfl⟩ | cases h

theorem advance_cases {p q : TaskPool Task} {w w' : PoolThread Task}
    (h : p.advance w = some (q, w')) : Advance p w q w' := by
  cases w with
  | entering =>
      cases h
      exact .enter
  | finishing task =>
      cases h
      exact .finish task
  | askingWaiting =>
      cases hwaiting : p.waiting with
      | false =>
          simp only [TaskPool.advance, hwaiting] at h
          cases h
          exact .look rfl (.inl hwaiting)
      | true =>
          simp only [TaskPool.advance, hwaiting] at h
          cases h
          exact .askWaiting hwaiting
  | askingRunning =>
      by_cases hrunning : p.tasksRunning = 0
      · simp only [TaskPool.advance, if_pos hrunning] at h
        cases h
        exact .askRunning hrunning
      · simp only [TaskPool.advance, if_neg hrunning] at h
        cases h
        exact .look rfl (.inr (.inl hrunning))
  | askingTasks =>
      cases htasks : p.tasks with
      | nil =>
          simp only [TaskPool.advance, htasks] at h
          cases h
          exact .askTasks htasks
      | cons task tasks =>
          simp only [TaskPool.advance, htasks] at h
          cases h
          refine .look rfl (.inr (.inr ?_))
          rw [htasks]
          exact List.cons_ne_nil task tasks
  | notifying =>
      cases h
      exact .notify
  | checking =>
      cases hworkers : p.workersRunning with
      | false =>
          simp only [TaskPool.advance, hworkers] at h
          cases h
          exact .leave hworkers
      | true =>
          cases htasks : p.tasks with
          | nil =>
              simp only [TaskPool.advance, hworkers, htasks] at h
              cases h
              exact .sleep hworkers htasks
          | cons task tasks =>
              simp only [TaskPool.advance, hworkers, htasks] at h
              cases h
              simpa only [hworkers] using Advance.pickUp hworkers htasks
  | asleep => cases h
  | running task => cases h
  | ended => cases h

/-- One thread goes from one place to another, and the others stay. -/
def Goes (threads : List (PoolThread Task)) (w w' : PoolThread Task)
    (threads' : List (PoolThread Task)) : Prop :=
  ∃ before after, threads = before ++ w :: after ∧ threads' = before ++ w' :: after

theorem goes_set {threads : List (PoolThread Task)} {i : Nat} {w : PoolThread Task}
    (h : threads[i]? = some w) (w' : PoolThread Task) : Goes threads w w' (threads.set i w') := by
  obtain ⟨hi, rfl⟩ := List.getElem?_eq_some_iff.mp h
  refine ⟨threads.take i, threads.drop (i + 1), ?_, ?_⟩
  · rw [List.getElem_cons_drop, List.take_append_drop]
  · rw [List.set_eq_take_append_cons_drop, if_pos hi]

/-- **What one step does.** -/
inductive PoolStep (p : TaskPool Task) : TaskPool.Event Task → TaskPool Task → Prop where
  | create (howner : p.owner = .creating) (hmore : p.threads.length < p.threadCount) :
      PoolStep p .owner { p with threads := p.threads ++ [.entering] }
  | created (howner : p.owner = .creating) (hall : p.threadCount ≤ p.threads.length) :
      PoolStep p .owner { p with owner := .idle }
  | detachTask (task : Task) (howner : p.owner = .idle) :
      PoolStep p (.detachTask task) { p with
        tasks := p.tasks ++ [task], owner := .notifying, handedOver := p.handedOver ++ [task] }
  | notifyOne {i : Nat} {threads : List (PoolThread Task)} (howner : p.owner = .notifying)
      (hgoes : Goes p.threads .asleep .checking threads) :
      PoolStep p (.notifyOne (some i)) { p with threads, owner := .idle }
  | notifyNone (howner : p.owner = .notifying) (hnone : .asleep ∉ p.threads) :
      PoolStep p (.notifyOne none) { p with owner := .idle }
  | destroy (howner : p.owner = .idle) :
      PoolStep p .destroy { p with waiting := true, owner := .checking }
  | sleep (howner : p.owner = .checking) (hnot : ¬ (p.tasksRunning = 0 ∧ p.tasks = [])) :
      PoolStep p .owner { p with owner := .asleep }
  | waited (howner : p.owner = .checking) (hdone : p.tasksRunning = 0 ∧ p.tasks = []) :
      PoolStep p .owner { p with waiting := false, owner := .stopping }
  | stop (howner : p.owner = .stopping) :
      PoolStep p .owner { p with workersRunning := false, owner := .broadcasting }
  | notifyAll (howner : p.owner = .broadcasting) :
      PoolStep p .owner { p with threads := p.threads.map PoolThread.wake, owner := .joining 0 }
  | join {i : Nat} (howner : p.owner = .joining i) (hended : p.threads[i]? = some .ended) :
      PoolStep p .owner { p with owner := .joining (i + 1) }
  | joined {i : Nat} (howner : p.owner = .joining i) (hall : p.threadCount ≤ i) :
      PoolStep p .owner { p with owner := .destroyed }
  | thread {i : Nat} {w w' : PoolThread Task} {q : TaskPool Task}
      {threads : List (PoolThread Task)} (hadvance : Advance p w q w')
      (hgoes : Goes p.threads w w' threads) : PoolStep p (.thread i) { q with threads }
  | taskEnds {i : Nat} {task : Task} {threads : List (PoolThread Task)}
      (hgoes : Goes p.threads (.running task) (.finishing task) threads) :
      PoolStep p (.taskEnds i) { p with threads }
  | spurious {i : Nat} {threads : List (PoolThread Task)}
      (hgoes : Goes p.threads .asleep .checking threads) :
      PoolStep p (.spurious (some i)) { p with threads }
  | spuriousWait (howner : p.owner = .asleep) :
      PoolStep p (.spurious none) { p with owner := .checking }

theorem PoolThread.isAsleep_iff {w : PoolThread Task} : w.isAsleep = true ↔ w = .asleep := by
  cases w <;> simp [PoolThread.isAsleep]

theorem PoolThread.hasEnded_iff {w : PoolThread Task} : w.hasEnded = true ↔ w = .ended := by
  cases w <;> simp [PoolThread.hasEnded]

theorem any_isAsleep {w : Option (PoolThread Task)} (h : w.any PoolThread.isAsleep = true) :
    w = some .asleep := by
  obtain ⟨w, rfl, hasleep⟩ := Option.any_eq_true _ _ |>.mp h
  rw [PoolThread.isAsleep_iff.mp hasleep]

theorem advance_threads {p q : TaskPool Task} {w w' : PoolThread Task} (h : Advance p w q w') :
    q.threads = p.threads := by
  cases h <;> rfl

theorem owner_cases {p p' : TaskPool Task} (h : p.ownerStep = some p') :
    PoolStep p .owner p' := by
  rw [TaskPool.ownerStep] at h
  cases howner : p.owner with
  | creating =>
      simp only [howner] at h
      split at h
      · cases h
        simpa only [howner] using PoolStep.create howner ‹_›
      · cases h
        exact .created howner (Nat.le_of_not_lt ‹_›)
  | checking =>
      simp only [howner, List.isEmpty_iff] at h
      split at h
      · cases h
        exact .waited howner ‹_›
      · cases h
        exact .sleep howner ‹_›
  | stopping =>
      simp only [howner] at h
      cases h
      exact .stop howner
  | broadcasting =>
      simp only [howner] at h
      cases h
      exact .notifyAll howner
  | joining i =>
      simp only [howner] at h
      split at h
      · obtain ⟨hended, h⟩ := Option.ite_none_right_eq_some.mp h
        cases h
        obtain ⟨w, hw, hended⟩ := Option.any_eq_true _ _ |>.mp hended
        exact .join howner (by rw [hw, PoolThread.hasEnded_iff.mp hended])
      · cases h
        exact .joined howner (Nat.le_of_not_lt ‹_›)
  | idle | notifying | asleep | destroyed =>
      simp only [howner] at h
      cases h

theorem step_cases {p p' : TaskPool Task} {e : TaskPool.Event Task} (h : p.exec e = some p') :
    PoolStep p e p' := by
  cases e with
  | owner => exact owner_cases h
  | detachTask task =>
      obtain ⟨howner, h⟩ := Option.ite_none_right_eq_some.mp h
      cases h
      exact .detachTask task howner
  | notifyOne i =>
      cases i with
      | some i =>
          obtain ⟨⟨howner, hasleep⟩, h⟩ := Option.ite_none_right_eq_some.mp h
          cases h
          exact .notifyOne howner (goes_set (any_isAsleep hasleep) _)
      | none =>
          obtain ⟨⟨howner, hnone⟩, h⟩ := Option.ite_none_right_eq_some.mp h
          cases h
          refine .notifyNone howner fun hasleep => hnone ?_
          exact List.any_eq_true.mpr ⟨_, hasleep, rfl⟩
  | destroy =>
      obtain ⟨howner, h⟩ := Option.ite_none_right_eq_some.mp h
      cases h
      exact .destroy howner
  | thread i =>
      obtain ⟨w, hw, h⟩ := Option.bind_eq_some_iff.mp h
      obtain ⟨⟨q, w'⟩, hadvance, h⟩ := Option.bind_eq_some_iff.mp h
      cases h
      have hcases := advance_cases hadvance
      refine .thread hcases ?_
      rw [advance_threads hcases]
      exact goes_set hw w'
  | taskEnds i =>
      rw [TaskPool.exec] at h
      split at h
      · cases h
        exact .taskEnds (goes_set ‹_› _)
      · cases h
  | spurious i =>
      cases i with
      | some i =>
          obtain ⟨hasleep, h⟩ := Option.ite_none_right_eq_some.mp h
          cases h
          exact .spurious (goes_set (any_isAsleep hasleep) _)
      | none =>
          obtain ⟨howner, h⟩ := Option.ite_none_right_eq_some.mp h
          cases h
          exact .spuriousWait howner

/-! ## The counter and the tasks -/

section Goes

variable {threads threads' : List (PoolThread Task)} {w w' : PoolThread Task}

theorem Goes.length_eq (h : Goes threads w w' threads') : threads'.length = threads.length := by
  obtain ⟨before, after, rfl, rfl⟩ := h
  simp only [List.length_append, List.length_cons]

/-- A count of the threads changes as the one thread does. -/
theorem Goes.countP (h : Goes threads w w' threads') (test : PoolThread Task → Bool) :
    threads'.countP test + (if test w then 1 else 0)
      = threads.countP test + (if test w' then 1 else 0) := by
  obtain ⟨before, after, rfl, rfl⟩ := h
  simp only [List.countP_append, List.countP_cons]
  omega

/-- So do the tasks that are not over. -/
theorem Goes.tasks (h : Goes threads w w' threads') :
    ∃ rest, (threads.filterMap PoolThread.task?).Perm (w.task?.toList ++ rest) ∧
      (threads'.filterMap PoolThread.task?).Perm (w'.task?.toList ++ rest) := by
  obtain ⟨before, after, rfl, rfl⟩ := h
  refine ⟨before.filterMap PoolThread.task? ++ after.filterMap PoolThread.task?, ?_, ?_⟩
  · rw [List.filterMap_append, List.filterMap_cons]
    cases w.task? with
    | none => exact .refl _
    | some task => exact List.perm_middle
  · rw [List.filterMap_append, List.filterMap_cons]
    cases w'.task? with
    | none => exact .refl _
    | some task => exact List.perm_middle

/-- The others are still there. -/
theorem Goes.mem_of_mem (h : Goes threads w w' threads') {v : PoolThread Task}
    (hv : v ∈ threads) (hne : v ≠ w) : v ∈ threads' := by
  obtain ⟨before, after, rfl, rfl⟩ := h
  exact List.mem_append.mpr ((List.mem_append.mp hv).imp_right fun hrest =>
    List.mem_cons_of_mem _ ((List.mem_cons.mp hrest).resolve_left hne))

theorem Goes.mem_of_mem_new (h : Goes threads w w' threads') {v : PoolThread Task}
    (hv : v ∈ threads') (hne : v ≠ w') : v ∈ threads := by
  obtain ⟨before, after, rfl, rfl⟩ := h
  exact List.mem_append.mpr ((List.mem_append.mp hv).imp_right fun hrest =>
    List.mem_cons_of_mem _ ((List.mem_cons.mp hrest).resolve_left hne))

theorem Goes.mem (h : Goes threads w w' threads') : w ∈ threads ∧ w' ∈ threads' := by
  obtain ⟨before, after, rfl, rfl⟩ := h
  exact ⟨List.mem_append_right _ List.mem_cons_self, List.mem_append_right _ List.mem_cons_self⟩

theorem Goes.getElem? (h : Goes threads w w' threads') {v : PoolThread Task} {j : Nat}
    (hv : threads[j]? = some v) (hne : v ≠ w) : threads'[j]? = some v := by
  obtain ⟨before, after, rfl, rfl⟩ := h
  rcases Nat.lt_trichotomy j before.length with hlt | rfl | hgt
  · rwa [List.getElem?_append_left hlt] at hv ⊢
  · simp [hne.symm] at hv
  · obtain ⟨k, rfl⟩ := Nat.exists_eq_add_of_lt hgt
    rw [List.getElem?_append_right (by omega)] at hv ⊢
    have hk : before.length + k + 1 - before.length = k + 1 := by omega
    rwa [hk, List.getElem?_cons_succ] at hv ⊢

end Goes

namespace TaskPool

/-- The counter counts the threads that run a task, or have not entered their loop, and
each task is begun once, in the order in which they were handed over. -/
structure Counts (p : TaskPool Task) : Prop where
  created : p.threads.length ≤ p.threadCount
  all : p.owner ≠ .creating → p.threads.length = p.threadCount
  count : p.tasksRunning + p.threads.length = p.threadCount + p.threads.countP PoolThread.isCounted
  begun : p.handedOver = p.begun ++ p.tasks
  finished : p.begun.Perm (p.finished ++ p.threads.filterMap PoolThread.task?)

theorem counts_create (threadCount : Nat) : (create threadCount : TaskPool Task).Counts where
  created := Nat.zero_le _
  all h := (h rfl).elim
  count := rfl
  begun := rfl
  finished := .refl _

/-- A thread moves and takes neither a task nor itself into the count. -/
theorem Counts.goes {p : TaskPool Task} (h : p.Counts) {threads : List (PoolThread Task)}
    {w w' : PoolThread Task} (hgoes : Goes p.threads w w' threads)
    (hcounted : w'.isCounted = w.isCounted) (htask : w'.task? = w.task?) :
    Counts { p with threads } := by
  have hlength := hgoes.length_eq
  have hcountP := hgoes.countP PoolThread.isCounted
  have hcreated := h.created
  have hcount := h.count
  rw [hcounted] at hcountP
  obtain ⟨rest, hold, hnew⟩ := hgoes.tasks
  rw [htask] at hnew
  refine ⟨by simp only; omega, fun howner => ?_, by simp only; omega, h.begun, ?_⟩
  · rw [← h.all howner]
    exact hlength
  · exact h.finished.trans ((hold.trans hnew.symm).append_left p.finished)

/-- The owner goes on. -/
theorem Counts.owner {p : TaskPool Task} (h : p.Counts) {owner : PoolOwner}
    (waiting workersRunning : Bool)
    (howner : p.owner ≠ .creating ∨ p.threadCount ≤ p.threads.length) :
    Counts { p with owner, waiting, workersRunning } :=
  ⟨h.created, fun _ => howner.elim h.all fun hle => Nat.le_antisymm h.created hle, h.count,
    h.begun, h.finished⟩

theorem Counts.thread {p q : TaskPool Task} (h : p.Counts) {w w' : PoolThread Task}
    {threads : List (PoolThread Task)} (hadvance : Advance p w q w')
    (hgoes : Goes p.threads w w' threads) : Counts { q with threads } := by
  have hlength := hgoes.length_eq
  have hcountP := hgoes.countP PoolThread.isCounted
  have hcreated := h.created
  have hcount := h.count
  obtain ⟨rest, hold, hnew⟩ := hgoes.tasks
  cases hadvance with
  | enter =>
      simp only [PoolThread.isCounted, if_true, Bool.false_eq_true, if_false] at hcountP
      refine ⟨by simp only; omega, fun howner => hlength.trans (h.all howner), ?_, h.begun, ?_⟩
      · simp only
        omega
      · exact h.finished.trans ((hold.trans hnew.symm).append_left p.finished)
  | finish task =>
      simp only [PoolThread.isCounted, if_true, Bool.false_eq_true, if_false] at hcountP
      refine ⟨by simp only; omega, fun howner => hlength.trans (h.all howner), ?_, h.begun, ?_⟩
      · simp only
        omega
      · refine h.finished.trans ((hold.append_left p.finished).trans ?_)
        simp only [PoolThread.task?, Option.toList, List.append_assoc]
        exact ((hnew.symm.cons task).append_left p.finished)
  | pickUp hworkers htasks =>
      simp only [PoolThread.isCounted, if_true, Bool.false_eq_true, if_false] at hcountP
      refine ⟨by simp only; omega, fun howner => hlength.trans (h.all howner), ?_, ?_, ?_⟩
      · simp only
        omega
      · simp only [h.begun, htasks, List.append_assoc, List.singleton_append]
      · refine (h.finished.append_right _).trans ?_
        simp only [List.append_assoc]
        exact ((hold.append_right _).trans
          (List.perm_append_comm.trans hnew.symm)).append_left p.finished
  | notify =>
      have hnotified := h.goes hgoes rfl rfl
      refine ⟨hnotified.created, fun howner => hnotified.all fun hcreating => howner ?_,
        hnotified.count, hnotified.begun, hnotified.finished⟩
      simp only [show p.owner = .creating from hcreating]
      rfl
  | askWaiting _ | askRunning _ | askTasks _ | sleep _ _ | leave _ => exact h.goes hgoes rfl rfl
  | look hasking _ =>
      obtain ⟨hcounted, htask⟩ := PoolThread.isCounted_of_isAsking hasking
      exact h.goes hgoes hcounted.symm htask.symm

theorem wake_isCounted (w : PoolThread Task) : w.wake.isCounted = w.isCounted := by
  cases w <;> rfl

theorem wake_task? (w : PoolThread Task) : w.wake.task? = w.task? := by
  cases w <;> rfl

theorem Counts.step {p p' : TaskPool Task} {e : TaskPool.Event Task} (h : p.Counts)
    (hstep : PoolStep p e p') : p'.Counts := by
  have hcreated := h.created
  have hcount := h.count
  cases hstep with
  | create howner hmore =>
      refine ⟨?_, fun hnot => (hnot howner).elim, ?_, h.begun, ?_⟩
      · simp only [List.length_append, List.length_singleton]
        omega
      · simp only [List.length_append, List.length_singleton, List.countP_append,
          List.countP_singleton, PoolThread.isCounted, if_true]
        omega
      · simpa only [List.filterMap_append, List.filterMap_cons, List.filterMap_nil,
          PoolThread.task?, List.append_nil] using h.finished
  | created howner hall => exact h.owner _ _ (.inr hall)
  | detachTask task howner =>
      refine ⟨hcreated, fun _ => h.all ?_, hcount, ?_, h.finished⟩
      · rw [howner]
        exact PoolOwner.noConfusion
      · simp only [h.begun, List.append_assoc]
  | notifyOne howner hgoes =>
      have hwoken := h.goes hgoes rfl rfl
      refine hwoken.owner _ _ (.inl ?_)
      simp only [howner]
      exact PoolOwner.noConfusion
  | notifyAll howner =>
      refine ⟨?_, fun _ => ?_, ?_, h.begun, ?_⟩
      · simpa only [List.length_map] using hcreated
      · rw [List.length_map]
        refine h.all ?_
        rw [howner]
        exact PoolOwner.noConfusion
      · simpa only [List.length_map, List.countP_map, Function.comp_def, wake_isCounted]
          using hcount
      · simpa only [List.filterMap_map, Function.comp_def, wake_task?] using h.finished
  | thread hadvance hgoes => exact h.thread hadvance hgoes
  | taskEnds hgoes | spurious hgoes => exact h.goes hgoes rfl rfl
  | notifyNone howner _ | destroy howner | sleep howner _ | waited howner _ | stop howner
  | join howner _ | joined howner _ | spuriousWait howner =>
      refine h.owner _ _ (.inl ?_)
      rw [howner]
      exact PoolOwner.noConfusion

/-! ## The phases of the destructor -/

end TaskPool

namespace PoolOwner

/-- In `wait`. -/
def isWaiting : PoolOwner → Bool
  | .checking | .asleep => true
  | _ => false

/-- After `wait`. -/
def hasWaited : PoolOwner → Bool
  | .stopping | .broadcasting | .joining _ | .destroyed => true
  | _ => false

/-- After `workers_running` was set to `false`. -/
def hasStopped : PoolOwner → Bool
  | .broadcasting | .joining _ | .destroyed => true
  | _ => false

/-- The threads that were joined, of so many. -/
def joined (threadCount : Nat) : PoolOwner → Nat
  | .joining i => i
  | .destroyed => threadCount
  | _ => 0

/-- After `notify_all`. -/
def hasNotified : PoolOwner → Bool
  | .joining _ | .destroyed => true
  | _ => false

theorem hasStopped_of_hasNotified {owner : PoolOwner} (h : owner.hasNotified = true) :
    owner.hasStopped = true := by
  cases owner <;> first | rfl | cases h

theorem hasWaited_of_hasStopped {owner : PoolOwner} (h : owner.hasStopped = true) :
    owner.hasWaited = true := by
  cases owner <;> first | rfl | cases h

end PoolOwner

namespace TaskPool

/-- What the two flags say, what `wait` waited for, and what was joined. -/
structure Phases (p : TaskPool Task) : Prop where
  waiting : p.waiting = p.owner.isWaiting
  workersRunning : p.workersRunning = !p.owner.hasStopped
  waited : p.owner.hasWaited = true → p.tasksRunning = 0 ∧ p.tasks = []
  awake : p.owner.hasNotified = true → ∀ w ∈ p.threads, w.isAsleep = false
  joined : p.owner.joined p.threadCount ≤ p.threadCount ∧
    ∀ j < p.owner.joined p.threadCount, p.threads[j]? = some .ended

theorem phases_create (threadCount : Nat) : (create threadCount : TaskPool Task).Phases where
  waiting := rfl
  workersRunning := rfl
  waited h := Bool.noConfusion h
  awake h := Bool.noConfusion h
  joined := ⟨Nat.zero_le _, fun _ h => (Nat.not_lt_zero _ h).elim⟩

/-- With all tasks over, no thread is counted. -/
theorem Counts.not_isCounted {p : TaskPool Task} (h : p.Counts) (hzero : p.tasksRunning = 0)
    {w : PoolThread Task} (hw : w ∈ p.threads) : w.isCounted = false := by
  have hcount := h.count
  have hcreated := h.created
  have hnone : p.threads.countP PoolThread.isCounted = 0 := by omega
  exact Bool.eq_false_of_not_eq_true (List.countP_eq_zero.mp hnone w hw)

/-- A thread that has not ended moves, and does not fall asleep after `notify_all`. -/
theorem Phases.goes {p : TaskPool Task} (h : p.Phases) {threads : List (PoolThread Task)}
    {w w' : PoolThread Task} (hgoes : Goes p.threads w w' threads) (hended : w.hasEnded = false)
    (hasleep : w'.isAsleep = true → p.workersRunning = true) : Phases { p with threads } := by
  have hne : PoolThread.ended ≠ w := by
    rintro rfl
    cases hended
  refine ⟨h.waiting, h.workersRunning, h.waited, fun hnotified v hv => ?_, h.joined.1,
    fun j hj => hgoes.getElem? (h.joined.2 j hj) hne⟩
  obtain ⟨before, after, hold, rfl⟩ := hgoes
  have hnone := h.awake hnotified
  rw [hold] at hnone
  rcases List.mem_append.mp hv with hbefore | hrest
  · exact hnone v (List.mem_append_left _ hbefore)
  · rcases List.mem_cons.mp hrest with rfl | hafter
    · refine Bool.eq_false_of_not_eq_true fun hsleeps => ?_
      have hworkers := h.workersRunning.symm.trans (hasleep hsleeps)
      rw [PoolOwner.hasStopped_of_hasNotified hnotified] at hworkers
      cases hworkers
    · exact hnone v (List.mem_append_right _ (List.mem_cons_of_mem _ hafter))

theorem Phases.thread {p q : TaskPool Task} (h : p.Phases) (hcounts : p.Counts)
    {w w' : PoolThread Task} {threads : List (PoolThread Task)} (hadvance : Advance p w q w')
    (hgoes : Goes p.threads w w' threads) : Phases { q with threads } := by
  have hwaited : p.owner.hasWaited = true → w.isCounted = false := fun howner =>
    hcounts.not_isCounted (h.waited howner).1 hgoes.mem.1
  cases hadvance with
  | enter | finish _ =>
      have hmoved := h.goes hgoes rfl fun h => Bool.noConfusion h
      exact ⟨hmoved.waiting, hmoved.workersRunning, fun howner => Bool.noConfusion (hwaited howner),
        hmoved.awake, hmoved.joined⟩
  | pickUp hworkers htasks =>
      have hmoved := h.goes hgoes rfl fun h => Bool.noConfusion h
      refine ⟨hmoved.waiting, hmoved.workersRunning, fun howner => ?_, hmoved.awake, hmoved.joined⟩
      cases htasks.symm.trans (h.waited howner).2
  | notify =>
      have hmoved := h.goes hgoes rfl fun h => Bool.noConfusion h
      cases howner : p.owner with
      | asleep =>
          refine ⟨hmoved.waiting.trans ?_, hmoved.workersRunning.trans ?_,
            fun h => Bool.noConfusion h, fun h => Bool.noConfusion h, Nat.zero_le _,
            fun _ h => (Nat.not_lt_zero _ h).elim⟩
          · simp only [howner]
            rfl
          · simp only [howner]
            rfl
      | _ => simpa only [howner, PoolOwner.wake] using hmoved
  | look hasking _ =>
      refine h.goes hgoes ?_ fun h => Bool.noConfusion h
      cases w <;> first | rfl | cases hasking
  | sleep hworkers _ => exact h.goes hgoes rfl fun _ => hworkers
  | askWaiting _ | askRunning _ | askTasks _ | leave _ =>
      exact h.goes hgoes rfl fun h => Bool.noConfusion h

/-- Before `wait` has returned, only the flags matter. -/
theorem phases_early {p : TaskPool Task} (howner : p.owner.hasWaited = false)
    (hwaiting : p.waiting = p.owner.isWaiting) (hworkers : p.workersRunning = true) :
    p.Phases := by
  have hstopped : p.owner.hasStopped = false := Bool.eq_false_of_not_eq_true fun h =>
    Bool.noConfusion (howner.symm.trans (PoolOwner.hasWaited_of_hasStopped h))
  have hnotified : p.owner.hasNotified = false := Bool.eq_false_of_not_eq_true fun h =>
    Bool.noConfusion (hstopped.symm.trans (PoolOwner.hasStopped_of_hasNotified h))
  have hjoined : p.owner.joined p.threadCount = 0 := by
    cases hstage : p.owner <;> first | rfl | (rw [hstage] at howner; cases howner)
  refine ⟨hwaiting, by rw [hworkers, hstopped]; rfl, fun h => ?_, fun h => ?_, ?_⟩
  · exact Bool.noConfusion (howner.symm.trans h)
  · exact Bool.noConfusion (hnotified.symm.trans h)
  · rw [hjoined]
    exact ⟨Nat.zero_le _, fun _ h => (Nat.not_lt_zero _ h).elim⟩

theorem wake_isAsleep (w : PoolThread Task) : w.wake.isAsleep = false := by
  cases w <;> rfl

theorem Phases.step {p p' : TaskPool Task} {e : TaskPool.Event Task} (h : p.Phases)
    (hcounts : p.Counts) (hstep : PoolStep p e p') : p'.Phases := by
  have hwaiting := h.waiting
  have hworkers := h.workersRunning
  have hwaited := h.waited
  have hawake := h.awake
  have hjoined := h.joined
  cases hstep with
  | thread hadvance hgoes => exact h.thread hcounts hadvance hgoes
  | taskEnds hgoes | spurious hgoes => exact h.goes hgoes rfl fun h => Bool.noConfusion h
  | create howner _ | created howner _ | detachTask _ howner | notifyOne howner _
  | notifyNone howner _ =>
      rw [howner] at hwaiting hworkers
      refine phases_early ?_ ?_ hworkers
      · simp [howner, PoolOwner.hasWaited]
      · simpa [howner, PoolOwner.isWaiting] using hwaiting
  | destroy howner | sleep howner _ | spuriousWait howner =>
      rw [howner] at hwaiting hworkers
      exact phases_early rfl (by first | exact hwaiting | rfl) hworkers
  | waited howner hdone =>
      rw [howner] at hworkers
      exact ⟨rfl, hworkers, fun _ => hdone, fun h => Bool.noConfusion h, Nat.zero_le _,
        fun _ h => (Nat.not_lt_zero _ h).elim⟩
  | stop howner =>
      rw [howner] at hwaiting hwaited
      exact ⟨hwaiting, rfl, fun _ => hwaited rfl, fun h => Bool.noConfusion h, Nat.zero_le _,
        fun _ h => (Nat.not_lt_zero _ h).elim⟩
  | notifyAll howner =>
      rw [howner] at hwaiting hworkers hwaited
      refine ⟨hwaiting, hworkers, fun _ => hwaited rfl, fun _ w hw => ?_, Nat.zero_le _,
        fun _ h => (Nat.not_lt_zero _ h).elim⟩
      obtain ⟨v, -, rfl⟩ := List.mem_map.mp hw
      exact wake_isAsleep v
  | @join i howner hended =>
      rw [howner] at hwaiting hworkers hwaited hawake hjoined
      have hi : i < p.threads.length := (List.getElem?_eq_some_iff.mp hended).1
      refine ⟨hwaiting, hworkers, hwaited, hawake, Nat.le_trans hi hcounts.created, fun j hj => ?_⟩
      rcases Nat.lt_succ_iff_lt_or_eq.mp hj with hlt | rfl
      · exact hjoined.2 j hlt
      · exact hended
  | @joined i howner hall =>
      rw [howner] at hwaiting hworkers hwaited hawake hjoined
      exact ⟨hwaiting, hworkers, hwaited, hawake, Nat.le_refl _,
        fun j hj => hjoined.2 j (Nat.lt_of_lt_of_le hj hall)⟩

/-! ## No notification is missed -/

/-- While a thread sleeps, there are not more tasks in the queue than threads on their
way to it, or about to be sent there; and while the owner sleeps in `wait` with all
tasks over, a thread is about to notify it. -/
structure Unslept (p : TaskPool Task) : Prop where
  threads : ∀ w ∈ p.threads, w.isAsleep = true →
    p.tasks.length ≤ p.threads.countP PoolThread.isComing + if p.owner = .notifying then 1 else 0
  owner : p.owner = .asleep → p.tasksRunning = 0 → p.tasks = [] →
    ∃ w ∈ p.threads, w.isAsking = true

theorem unslept_create (threadCount : Nat) : (create threadCount : TaskPool Task).Unslept where
  threads _ h := (List.not_mem_nil h).elim
  owner h := PoolOwner.noConfusion h

/-- What one thread does about the tasks. -/
theorem Unslept.goes {p q : TaskPool Task} (h : p.Unslept)
    {w w' : PoolThread Task} {threads : List (PoolThread Task)}
    (hgoes : Goes p.threads w w' threads) (howner : q.owner = .notifying ↔ p.owner = .notifying)
    (htasks : q.tasks = [] ∨ w'.isAsleep = false ∧
      q.tasks.length + (if w.isComing then 1 else 0)
        ≤ p.tasks.length + if w'.isComing then 1 else 0)
    (hasking : q.owner = .asleep → q.tasksRunning = 0 → q.tasks = [] → w'.isAsking = true ∨
      w.isAsking = false ∧ p.owner = .asleep ∧ p.tasksRunning = 0 ∧ p.tasks = []) :
    Unslept { q with threads } := by
  have hcoming := hgoes.countP PoolThread.isComing
  refine ⟨fun v hv hasleep => ?_, fun hsleeps hzero hempty => ?_⟩
  · rcases htasks with hempty | ⟨hawake, hle⟩
    · simp only [hempty, List.length_nil]
      exact Nat.zero_le _
    · have hne : v ≠ w' := by
        rintro rfl
        exact Bool.noConfusion (hasleep.symm.trans hawake)
      have hold := h.threads v (hgoes.mem_of_mem_new hv hne) hasleep
      simp only [howner]
      omega
  · rcases hasking hsleeps hzero hempty with hnew | ⟨hnot, hold⟩
    · exact ⟨w', hgoes.mem.2, hnew⟩
    · obtain ⟨v, hv, hvasking⟩ := h.owner hold.1 hold.2.1 hold.2.2
      refine ⟨v, hgoes.mem_of_mem hv ?_, hvasking⟩
      rintro rfl
      exact Bool.noConfusion (hvasking.symm.trans hnot)

theorem PoolThread.isComing_of_isAsking {w : PoolThread Task} (h : w.isAsking = true) :
    w.isComing = true := by
  cases w <;> first | rfl | cases h

theorem Unslept.thread {p q : TaskPool Task} (h : p.Unslept) (hphases : p.Phases)
    {w w' : PoolThread Task} {threads : List (PoolThread Task)} (hadvance : Advance p w q w')
    (hgoes : Goes p.threads w w' threads) : Unslept { q with threads } := by
  cases hadvance with
  | enter | finish _ | askWaiting _ | askRunning _ | askTasks _ =>
      exact h.goes hgoes Iff.rfl (.inr ⟨rfl, Nat.le_refl _⟩) fun _ _ _ => .inl rfl
  | look hasking hnot =>
      refine h.goes hgoes Iff.rfl (.inr ⟨rfl, ?_⟩) fun howner hzero hempty => ?_
      · rw [PoolThread.isComing_of_isAsking hasking]
        exact Nat.le_refl _
      · have hwaiting := hphases.waiting
        rw [howner] at hwaiting
        rcases hnot with hnot | hnot | hnot
        · exact Bool.noConfusion (hnot.symm.trans hwaiting)
        · exact (hnot hzero).elim
        · exact (hnot hempty).elim
  | notify =>
      refine h.goes hgoes ?_ (.inr ⟨rfl, Nat.le_refl _⟩) fun hsleeps => ?_
      · cases p.owner <;> simp [PoolOwner.wake]
      · cases howner : p.owner <;> simp [PoolOwner.wake, howner] at hsleeps
  | pickUp hworkers htasks =>
      refine h.goes hgoes Iff.rfl (.inr ⟨rfl, ?_⟩) fun _ hzero => (Nat.succ_ne_zero _ hzero).elim
      simp only [htasks, List.length_cons]
      exact Nat.le_refl _
  | sleep hworkers htasks =>
      exact h.goes hgoes Iff.rfl (.inl htasks) fun howner hzero hempty =>
        .inr ⟨rfl, howner, hzero, hempty⟩
  | leave hworkers =>
      have hstopped : p.owner.hasStopped = true := by
        have := hphases.workersRunning.symm.trans hworkers
        simpa using this
      have hempty := (hphases.waited (PoolOwner.hasWaited_of_hasStopped hstopped)).2
      exact h.goes hgoes Iff.rfl (.inl hempty) fun howner hzero hempty =>
        .inr ⟨rfl, howner, hzero, hempty⟩

theorem Unslept.step {p p' : TaskPool Task} {e : TaskPool.Event Task} (h : p.Unslept)
    (hphases : p.Phases) (hstep : PoolStep p e p') : p'.Unslept := by
  have hthreads := h.threads
  cases hstep with
  | thread hadvance hgoes => exact h.thread hphases hadvance hgoes
  | taskEnds hgoes =>
      exact h.goes hgoes Iff.rfl (.inr ⟨rfl, Nat.le_add_right _ _⟩) fun howner hzero hempty =>
        .inr ⟨rfl, howner, hzero, hempty⟩
  | spurious hgoes =>
      exact h.goes hgoes Iff.rfl (.inr ⟨rfl, Nat.le_add_right _ _⟩) fun howner hzero hempty =>
        .inr ⟨rfl, howner, hzero, hempty⟩
  | create howner _ =>
      refine ⟨fun v hv hasleep => ?_, fun hsleeps => ?_⟩
      · have hold : v ∈ p.threads := by
          refine (List.mem_append.mp hv).resolve_right fun hnew => ?_
          rw [List.mem_singleton.mp hnew] at hasleep
          cases hasleep
        have hle := hthreads v hold hasleep
        simp only [List.countP_append]
        omega
      · cases howner.symm.trans hsleeps
  | detachTask task howner =>
      refine ⟨fun v hv hasleep => ?_, PoolOwner.noConfusion⟩
      have hle := hthreads v hv hasleep
      simp only [howner, reduceCtorEq, if_false] at hle
      simp only [List.length_append, List.length_singleton, if_true]
      omega
  | notifyOne howner hgoes =>
      refine ⟨fun v hv hasleep => ?_, PoolOwner.noConfusion⟩
      have hne : v ≠ .checking := by
        rintro rfl
        cases hasleep
      have hle := hthreads v (hgoes.mem_of_mem_new hv hne) hasleep
      have hcoming := hgoes.countP PoolThread.isComing
      simp only [howner, if_true] at hle
      simp only [PoolThread.isComing, if_true, Bool.false_eq_true, if_false] at hcoming
      simp only [reduceCtorEq, if_false]
      omega
  | notifyNone howner hnone =>
      refine ⟨fun v hv hasleep => ?_, PoolOwner.noConfusion⟩
      rw [PoolThread.isAsleep_iff.mp hasleep] at hv
      exact (hnone hv).elim
  | notifyAll howner =>
      refine ⟨fun v hv hasleep => ?_, PoolOwner.noConfusion⟩
      obtain ⟨w, -, rfl⟩ := List.mem_map.mp hv
      exact Bool.noConfusion (hasleep.symm.trans (wake_isAsleep w))
  | sleep howner hnot =>
      refine ⟨fun v hv hasleep => ?_, fun _ hzero hempty => (hnot ⟨hzero, hempty⟩).elim⟩
      simpa [howner] using hthreads v hv hasleep
  | created howner _ | destroy howner | waited howner _ | stop howner | join howner _
  | joined howner _ | spuriousWait howner =>
      refine ⟨fun v hv hasleep => ?_, PoolOwner.noConfusion⟩
      simpa [howner] using hthreads v hv hasleep

/-- No thread ends before `workers_running` is set to `false`. -/
def Alive (p : TaskPool Task) : Prop :=
  p.workersRunning = true → ∀ w ∈ p.threads, w.hasEnded = false

theorem Alive.goes {p : TaskPool Task} (h : p.Alive) {threads : List (PoolThread Task)}
    {w w' : PoolThread Task} (hgoes : Goes p.threads w w' threads)
    (hended : p.workersRunning = true → w'.hasEnded = false) : Alive { p with threads } := by
  intro hworkers v hv
  by_cases hnew : v = w'
  · rw [hnew]
    exact hended hworkers
  · exact h hworkers v (hgoes.mem_of_mem_new hv hnew)

theorem Alive.step {p p' : TaskPool Task} {e : TaskPool.Event Task} (h : p.Alive)
    (hstep : PoolStep p e p') : p'.Alive := by
  cases hstep with
  | thread hadvance hgoes =>
      cases hadvance with
      | leave hworkers =>
          exact h.goes hgoes fun hrunning => Bool.noConfusion (hworkers.symm.trans hrunning)
      | _ => exact h.goes hgoes fun _ => rfl
  | taskEnds hgoes | spurious hgoes | notifyOne _ hgoes => exact h.goes hgoes fun _ => rfl
  | create _ _ =>
      intro hworkers v hv
      rcases List.mem_append.mp hv with hold | hnew
      · exact h hworkers v hold
      · rw [List.mem_singleton.mp hnew]
        rfl
  | stop _ => exact fun hworkers => Bool.noConfusion hworkers
  | notifyAll _ =>
      intro hworkers v hv
      obtain ⟨w, hw, rfl⟩ := List.mem_map.mp hv
      have hended := h hworkers w hw
      cases w <;> exact hended
  | created _ _ | detachTask _ _ | notifyNone _ _ | destroy _ | sleep _ _ | waited _ _
  | join _ _ | joined _ _ | spuriousWait _ => exact h

/-- Everything a run keeps. -/
structure Sound (p : TaskPool Task) : Prop where
  counts : p.Counts
  phases : p.Phases
  unslept : p.Unslept
  alive : p.Alive

theorem Sound.step {p p' : TaskPool Task} {e : TaskPool.Event Task} (h : p.Sound)
    (hstep : PoolStep p e p') : p'.Sound where
  counts := h.counts.step hstep
  phases := h.phases.step h.counts hstep
  unslept := h.unslept.step h.phases hstep
  alive := h.alive.step hstep

end TaskPool

section Runs

variable {threadCount : Nat} {allowed : TaskPool Task → TaskPool.Event Task → Prop}

theorem sound_reachable {p : TaskPool Task} (h : (taskPool Task threadCount).Reachable allowed p) :
    p.Sound ∧ p.threadCount = threadCount := by
  refine h.invariant ?_ ?_
  · rintro p rfl
    exact ⟨⟨TaskPool.counts_create _, TaskPool.phases_create _, TaskPool.unslept_create _,
      fun _ _ h => (List.not_mem_nil h).elim⟩, rfl⟩
  · rintro p e p' - ⟨hp, hthreads⟩ - hstep
    have hcases := step_cases hstep
    refine ⟨hp.step hcases, hthreads ▸ ?_⟩
    cases hcases with
    | thread hadvance _ => cases hadvance <;> rfl
    | _ => rfl

/-- **The pool conserves work, and loses no notification.**  The counter is right, each
task is begun once and in order; and while a thread sleeps, a thread is on its way, or
about to be sent, for each task that waits. -/
theorem work_conserving {p : TaskPool Task}
    (h : (taskPool Task threadCount).Reachable LabelledSystem.anyStep p) :
    p.tasksRunning + p.threads.length
      = threadCount + p.threads.countP PoolThread.isCounted ∧
    p.handedOver = p.begun ++ p.tasks ∧
    p.begun.Perm (p.finished ++ p.threads.filterMap PoolThread.task?) ∧
    (.asleep ∈ p.threads → p.tasks.length
      ≤ p.threads.countP PoolThread.isComing + if p.owner = .notifying then 1 else 0) := by
  obtain ⟨hp, rfl⟩ := sound_reachable h
  exact ⟨hp.counts.count, hp.counts.begun, hp.counts.finished,
    fun hasleep => hp.unslept.threads _ hasleep rfl⟩

/-- Two threads sleep, and one is woken for the first of two tasks; the owner is about to
notify for the second. -/
theorem work_conserving_two : ∃ p : TaskPool Nat, p.tasks = [1, 2] ∧ .asleep ∈ p.threads ∧
    p.tasks.length
      ≤ p.threads.countP PoolThread.isComing + if p.owner = .notifying then 1 else 0 := by
  obtain ⟨p, hp, htest⟩ := (taskPool Nat 2).exists_of_execute LabelledSystem.anyStep
    (fun _ _ _ h => h) rfl
    [.owner, .owner, .owner, .thread 0, .thread 0, .thread 0, .thread 1, .thread 1, .thread 1,
      .detachTask 1, .notifyOne (some 0), .detachTask 2]
    (fun p => p.tasks = [1, 2] ∧ .asleep ∈ p.threads) (by decide +kernel)
  obtain ⟨htasks, hasleep⟩ := of_decide_eq_true htest
  exact ⟨p, htasks, hasleep, (work_conserving hp).2.2.2 hasleep⟩

end Runs

end Tavernmx.Server
