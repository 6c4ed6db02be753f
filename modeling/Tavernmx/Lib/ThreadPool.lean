/-
# `Tavernmx.Lib.ThreadPool` — threads that take tasks from one queue

A fixed number of threads and a queue of tasks.  `detachTask` only appends to the
queue; a thread that has nothing to do takes the oldest task, counts itself as
running, and counts itself out when the task is over.

The counter is a variable of its own, as a program that reads it does not see the
threads.  It starts at the number of threads, because a thread counts itself out
once before it takes its first task.  `Counted` says what it counts; `unfinished`,
the tasks that were handed over and are not over, is more than that by what waits
in the queue.
-/
import Mathlib.Data.List.Basic

structure ThreadPool (Task : Type) where
  threadCount : Nat
  /-- The tasks that wait, the oldest first. -/
  tasks : List Task
  /-- The threads that were created and have not entered their loop. -/
  starting : Nat
  running : List Task
  tasksRunning : Nat

namespace ThreadPool

variable {Task : Type}

def create (threadCount : Nat) : ThreadPool Task := ⟨threadCount, [], threadCount, [], threadCount⟩

def detachTask (task : Task) (p : ThreadPool Task) : ThreadPool Task :=
  { p with tasks := p.tasks ++ [task] }

/-- The tasks that were handed over and are not over. -/
def unfinished (p : ThreadPool Task) : Nat := p.tasks.length + p.running.length

/-- What the threads do. -/
inductive Event (Task : Type) where
  | enter
  | pickUp
  | finish (task : Task)

def move [DecidableEq Task] (p : ThreadPool Task) : Event Task → Option (ThreadPool Task)
  | .enter =>
    if 0 < p.starting then
      some { p with starting := p.starting - 1, tasksRunning := p.tasksRunning - 1 }
    else none
  | .pickUp =>
    match p.tasks with
    | task :: tasks =>
      if p.starting + p.running.length < p.threadCount then
        some { p with
          tasks, running := p.running ++ [task], tasksRunning := p.tasksRunning + 1 }
      else none
    | [] => none
  | .finish task =>
    if task ∈ p.running then
      some { p with running := p.running.erase task, tasksRunning := p.tasksRunning - 1 }
    else none

/-- The counter counts the threads that run a task, or have not entered their loop. -/
structure Counted (p : ThreadPool Task) : Prop where
  count : p.tasksRunning = p.starting + p.running.length
  room : p.starting + p.running.length ≤ p.threadCount

theorem counted_create (threadCount : Nat) : (create threadCount : ThreadPool Task).Counted :=
  ⟨rfl, Nat.le_refl _⟩

theorem Counted.detachTask {p : ThreadPool Task} (h : p.Counted) (task : Task) :
    (p.detachTask task).Counted :=
  ⟨h.count, h.room⟩

@[simp] theorem unfinished_detachTask (task : Task) (p : ThreadPool Task) :
    (p.detachTask task).unfinished = p.unfinished + 1 := by
  simp only [unfinished, detachTask, List.length_append, List.length_singleton]
  omega

/-- **What one move does**: the counter stays right, no task becomes unfinished, and
the queue only gets shorter. -/
theorem Counted.move [DecidableEq Task] {p p' : ThreadPool Task} (h : p.Counted) {e : Event Task}
    (hmove : p.move e = some p') :
    p'.Counted ∧ p'.threadCount = p.threadCount ∧ p'.unfinished ≤ p.unfinished ∧
      p'.tasks <:+ p.tasks := by
  have hcount := h.count
  have hroom := h.room
  cases e with
  | enter =>
      rw [ThreadPool.move, Option.ite_none_right_eq_some] at hmove
      obtain ⟨hstarting, hmove⟩ := hmove
      cases hmove
      exact ⟨⟨by simp only; omega, by simp only; omega⟩, rfl, Nat.le_refl _, List.suffix_rfl⟩
  | pickUp =>
      rw [ThreadPool.move] at hmove
      cases htasks : p.tasks with
      | nil =>
          rw [htasks] at hmove
          cases hmove
      | cons task tasks =>
          rw [htasks] at hmove
          simp only [Option.ite_none_right_eq_some] at hmove
          obtain ⟨hidle, hmove⟩ := hmove
          cases hmove
          refine ⟨⟨?_, ?_⟩, rfl, ?_, List.suffix_cons task tasks⟩
          · simp only [List.length_append, List.length_singleton]
            omega
          · simp only [List.length_append, List.length_singleton]
            omega
          · simp only [unfinished, htasks, List.length_append, List.length_cons, List.length_nil]
            omega
  | finish task =>
      rw [ThreadPool.move, Option.ite_none_right_eq_some] at hmove
      obtain ⟨hrunning, hmove⟩ := hmove
      cases hmove
      have hlen := List.length_erase_of_mem hrunning
      have hpos := List.length_pos_of_mem hrunning
      refine ⟨⟨?_, ?_⟩, rfl, ?_, List.suffix_rfl⟩
      · simp only
        omega
      · simp only
        omega
      · simp only [unfinished]
        omega

end ThreadPool
