/-
# `Tavernmx.Server.PoolDestructor` — the thread pool waits for every task

When `main` leaves, the destructor of its pool waits until every task is over, stops
the threads and joins them.  `destructor_waits` is that it does; `destructor_returns`
that it does not wait for ever, unless a task runs for ever: between two spurious
wake-ups the pool takes a bounded number of steps, and it can always take one as long
as no task is running.
-/
import Tavernmx.Server.PoolThreads

namespace Tavernmx.Server

variable {Task : Type}

/-- The destructor has been called. -/
def PoolOwner.isDestroying (owner : PoolOwner) : Bool := owner.isWaiting || owner.hasWaited

namespace TaskPool

/-! ## What has been waited for -/

theorem Counts.finished_of_zero {p : TaskPool Task} (h : p.Counts) (hzero : p.tasksRunning = 0)
    (hempty : p.tasks = []) : p.handedOver.Perm p.finished := by
  have hnone : p.threads.filterMap PoolThread.task? = [] := by
    refine List.filterMap_eq_nil_iff.mpr fun w hw => ?_
    have hcounted := h.not_isCounted hzero hw
    cases w <;> first | rfl | cases hcounted
  have hover := h.finished
  rw [hnone, List.append_nil] at hover
  rw [h.begun, hempty, List.append_nil]
  exact hover

theorem Sound.ended {p : TaskPool Task} (h : p.Sound) (howner : p.owner = .destroyed) :
    ∀ w ∈ p.threads, w = .ended := by
  have hjoined := h.phases.joined.2
  have hall := h.counts.all (by rw [howner]; exact PoolOwner.noConfusion)
  rw [howner] at hjoined
  intro w hw
  obtain ⟨j, hj, rfl⟩ := List.mem_iff_getElem.mp hw
  have hended := hjoined j (Nat.lt_of_lt_of_eq hj hall)
  rw [List.getElem?_eq_getElem hj] at hended
  exact Option.some.inj hended

/-! ## How long it takes -/

end TaskPool

/-- How many steps the thread takes before it sleeps, at most, with what it may make
the owner do. -/
def PoolThread.rank : PoolThread Task → Nat
  | .running _ => 8
  | .entering | .finishing _ => 7
  | .askingWaiting => 6
  | .askingRunning => 5
  | .askingTasks => 4
  | .notifying => 3
  | .checking => 1
  | .asleep | .ended => 0

/-- How many steps the owner takes, with the threads that it wakes. -/
def PoolOwner.rank (threadCount : Nat) : PoolOwner → Nat
  | .checking => 2 * threadCount + 4
  | .asleep | .stopping => 2 * threadCount + 3
  | .broadcasting => 2 * threadCount + 2
  | .joining i => threadCount - i + 1
  | _ => 0

namespace TaskPool

def rank (p : TaskPool Task) : Nat :=
  (p.threads.map PoolThread.rank).sum + 8 * p.tasks.length + p.owner.rank p.threadCount

theorem Goes.sum {threads threads' : List (PoolThread Task)} {w w' : PoolThread Task}
    (h : Goes threads w w' threads') : (threads'.map PoolThread.rank).sum + w.rank
      = (threads.map PoolThread.rank).sum + w'.rank := by
  obtain ⟨before, after, rfl, rfl⟩ := h
  simp only [List.map_append, List.map_cons, List.sum_append, List.sum_cons]
  omega

theorem sum_wake_le (threads : List (PoolThread Task)) :
    ((threads.map PoolThread.wake).map PoolThread.rank).sum
      ≤ (threads.map PoolThread.rank).sum + threads.length := by
  induction threads with
  | nil => exact Nat.le_refl _
  | cons w threads ih =>
      have hw : w.wake.rank ≤ w.rank + 1 := by
        cases w <;> simp [PoolThread.wake, PoolThread.rank]
      simp only [List.map_cons, List.sum_cons, List.length_cons]
      omega

theorem sum_rank_le (threads : List (PoolThread Task)) :
    (threads.map PoolThread.rank).sum ≤ 8 * threads.length := by
  induction threads with
  | nil => exact Nat.le_refl _
  | cons w threads ih =>
      have hw : w.rank ≤ 8 := by
        cases w <;> simp [PoolThread.rank]
      simp only [List.map_cons, List.sum_cons, List.length_cons]
      omega

theorem rank_le {p : TaskPool Task} (h : p.Counts) :
    p.rank ≤ 10 * p.threadCount + 8 * p.tasks.length + 4 := by
  have hsum := sum_rank_le p.threads
  have hcreated := h.created
  have howner : p.owner.rank p.threadCount ≤ 2 * p.threadCount + 4 := by
    cases p.owner <;> simp only [PoolOwner.rank] <;> omega
  simp only [rank]
  omega

/-- No wait ends without a notification. -/
def Prompt (_ : TaskPool Task) : Event Task → Prop
  | .spurious _ => False
  | _ => True

theorem rank_thread {p q : TaskPool Task} {w w' : PoolThread Task}
    {threads : List (PoolThread Task)} (hadvance : Advance p w q w')
    (hgoes : Goes p.threads w w' threads) : rank { q with threads } + 1 ≤ p.rank := by
  have hsum := Goes.sum hgoes
  cases hadvance with
  | look hasking _ =>
      have hw : 3 ≤ w.rank := by
        cases w <;> first | (simp [PoolThread.rank]; done) | cases hasking
      simp only [show (PoolThread.checking : PoolThread Task).rank = 1 from rfl] at hsum
      simp only [rank]
      omega
  | notify =>
      have howner : p.owner.wake.rank p.threadCount ≤ p.owner.rank p.threadCount + 1 := by
        cases p.owner <;> simp [PoolOwner.wake, PoolOwner.rank]
      simp only [PoolThread.rank] at hsum
      simp only [rank]
      omega
  | pickUp hworkers htasks =>
      simp only [PoolThread.rank] at hsum
      simp only [rank, htasks, List.length_cons]
      omega
  | _ =>
      simp only [PoolThread.rank] at hsum
      simp only [rank]
      omega

/-- **Each step of the destructor counts.** -/
theorem rank_step {p p' : TaskPool Task} {e : Event Task} (hp : p.Sound)
    (hdestroying : p.owner.isDestroying = true) (hprompt : p.Prompt e) (hstep : PoolStep p e p') :
    p'.owner.isDestroying = true ∧ p'.rank + 1 ≤ p.rank := by
  cases hstep with
  | thread hadvance hgoes =>
      refine ⟨?_, rank_thread hadvance hgoes⟩
      cases hadvance with
      | notify =>
          simp only
          cases howner : p.owner <;> first | rfl | (rw [howner] at hdestroying; cases hdestroying)
      | _ => exact hdestroying
  | taskEnds hgoes =>
      have hsum := Goes.sum hgoes
      simp only [PoolThread.rank] at hsum
      refine ⟨hdestroying, ?_⟩
      simp only [rank]
      omega
  | sleep howner _ | waited howner _ | stop howner =>
      refine ⟨rfl, ?_⟩
      simp only [rank, howner, PoolOwner.rank]
      omega
  | notifyAll howner =>
      have hwake := sum_wake_le p.threads
      have hcreated := hp.counts.created
      refine ⟨rfl, ?_⟩
      simp only [rank, howner, PoolOwner.rank]
      omega
  | @join i howner hended =>
      have hi := (List.getElem?_eq_some_iff.mp hended).1
      have hcreated := hp.counts.created
      refine ⟨rfl, ?_⟩
      simp only [rank, howner, PoolOwner.rank]
      omega
  | joined howner _ =>
      refine ⟨rfl, ?_⟩
      simp only [rank, howner, PoolOwner.rank]
      omega
  | spurious _ | spuriousWait _ => exact hprompt.elim
  | create howner _ | created howner _ | detachTask _ howner | notifyOne howner _
  | notifyNone howner _ | destroy howner =>
      rw [howner] at hdestroying
      cases hdestroying

/-! ## It can always go on -/

/-- A thread that is on its way takes a step. -/
theorem exec_thread_of_isComing {p : TaskPool Task} {w : PoolThread Task} (hw : w ∈ p.threads)
    (hcoming : w.isComing = true) : ∃ i p', p.exec (.thread i) = some p' := by
  obtain ⟨i, hi, rfl⟩ := List.mem_iff_getElem.mp hw
  have hsome : (p.advance p.threads[i]).isSome = true := by
    cases hw : p.threads[i] with
    | checking =>
        rw [advance]
        split
        · split <;> rfl
        · rfl
    | asleep | running _ | ended =>
        rw [hw] at hcoming
        cases hcoming
    | _ => rfl
  obtain ⟨⟨q, w'⟩, hadvance⟩ := Option.isSome_iff_exists.mp hsome
  refine ⟨i, { q with threads := q.threads.set i w' }, ?_⟩
  simp only [exec, List.getElem?_eq_getElem hi, Option.bind_eq_bind, Option.bind_some, hadvance]
  rfl

/-- Nobody is on its way, and no task runs: all threads sleep, or have ended. -/
theorem asleep_or_ended {p : TaskPool Task} (hcoming : ∀ w ∈ p.threads, w.isComing = false)
    (hrunning : ∀ task, .running task ∉ p.threads) {w : PoolThread Task} (hw : w ∈ p.threads) :
    w.isCounted = false ∧ (w = .asleep ∨ w = .ended) := by
  have hnot := hcoming w hw
  cases w with
  | asleep => exact ⟨rfl, .inl rfl⟩
  | ended => exact ⟨rfl, .inr rfl⟩
  | running task => exact (hrunning task hw).elim
  | _ => cases hnot

/-- `wait` is not left asleep. -/
theorem Sound.not_asleep {p : TaskPool Task} (h : p.Sound) (hpos : 0 < p.threadCount)
    (hcoming : ∀ w ∈ p.threads, w.isComing = false)
    (hrunning : ∀ task, .running task ∉ p.threads) : p.owner ≠ .asleep := by
  intro howner
  have hworkers := h.phases.workersRunning
  have hall := h.counts.all (by rw [howner]; exact PoolOwner.noConfusion)
  rw [howner] at hworkers
  have hzero : p.tasksRunning = 0 := by
    have hcount := h.counts.count
    have hnone : p.threads.countP PoolThread.isCounted = 0 :=
      List.countP_eq_zero.mpr fun w hw => by
        rw [(asleep_or_ended hcoming hrunning hw).1]
        exact Bool.false_ne_true
    omega
  cases htasks : p.tasks with
  | nil =>
      obtain ⟨w, hw, hasking⟩ := h.unslept.owner howner hzero htasks
      exact Bool.noConfusion ((hcoming w hw).symm.trans (PoolThread.isComing_of_isAsking hasking))
  | cons task tasks =>
      obtain ⟨w, hw⟩ := List.exists_mem_of_length_pos (Nat.lt_of_lt_of_eq hpos hall.symm)
      rcases (asleep_or_ended hcoming hrunning hw).2 with rfl | rfl
      · have hle := h.unslept.threads _ hw rfl
        have hnone : p.threads.countP PoolThread.isComing = 0 :=
          List.countP_eq_zero.mpr fun w hw => by
            rw [hcoming w hw]
            exact Bool.false_ne_true
        simp [hnone, howner, htasks] at hle
      · exact Bool.noConfusion (h.alive hworkers _ hw)

theorem Sound.enabled {p : TaskPool Task} (h : p.Sound) (hpos : 0 < p.threadCount)
    (hdestroying : p.owner.isDestroying = true) :
    p.owner = .destroyed ∨ (∃ task, .running task ∈ p.threads) ∨
      ∃ e p', (e = .owner ∨ ∃ i, e = .thread i) ∧ p.exec e = some p' := by
  by_cases hcoming : ∃ w ∈ p.threads, w.isComing = true
  · obtain ⟨w, hw, hcoming⟩ := hcoming
    obtain ⟨i, p', hexec⟩ := exec_thread_of_isComing hw hcoming
    exact .inr (.inr ⟨_, p', .inr ⟨i, rfl⟩, hexec⟩)
  by_cases hrunning : ∃ task, .running task ∈ p.threads
  · exact .inr (.inl hrunning)
  have hcoming : ∀ w ∈ p.threads, w.isComing = false := fun w hw =>
    Bool.eq_false_of_not_eq_true fun h => hcoming ⟨w, hw, h⟩
  have hrunning : ∀ task, .running task ∉ p.threads := fun task h => hrunning ⟨task, h⟩
  suffices hstep : p.owner = .destroyed ∨ ∃ p', p.ownerStep = some p' by
    refine hstep.imp_right fun ⟨p', hstep⟩ => .inr ⟨.owner, p', .inl rfl, hstep⟩
  cases howner : p.owner with
  | creating | idle | notifying =>
      rw [howner] at hdestroying
      cases hdestroying
  | checking =>
      right
      rw [ownerStep, howner]
      simp only
      split <;> exact ⟨_, rfl⟩
  | asleep => exact (h.not_asleep hpos hcoming hrunning howner).elim
  | stopping | broadcasting =>
      right
      rw [ownerStep, howner]
      exact ⟨_, rfl⟩
  | joining i =>
      right
      have hall := h.counts.all (by rw [howner]; exact PoolOwner.noConfusion)
      have hawake := h.phases.awake (by rw [howner]; rfl)
      rw [ownerStep, howner]
      simp only
      by_cases hi : i < p.threadCount
      · have hi' : i < p.threads.length := by omega
        have hmem : p.threads[i] ∈ p.threads := List.getElem_mem hi'
        have hended : p.threads[i] = .ended := by
          refine (asleep_or_ended hcoming hrunning hmem).2.resolve_left fun hasleep => ?_
          have hnot := hawake _ hmem
          rw [hasleep] at hnot
          cases hnot
        simp [hi, hi', hended, PoolThread.hasEnded]
      · rw [if_neg hi]
        exact ⟨_, rfl⟩
  | destroyed => exact .inl rfl

end TaskPool

section Runs

variable {threadCount : Nat}

/-- **The destructor waits for every task.**  When `wait` has returned, all tasks that
were handed over are over; and when the pool is destroyed, all threads have ended. -/
theorem destructor_waits {p : TaskPool Task}
    (h : (taskPool Task threadCount).Reachable LabelledSystem.anyStep p)
    (hwaited : p.owner.hasWaited = true) :
    p.tasks = [] ∧ p.handedOver.Perm p.finished ∧
      (p.owner = .destroyed → ∀ w ∈ p.threads, w = .ended) := by
  obtain ⟨hp, -⟩ := sound_reachable h
  obtain ⟨hzero, hempty⟩ := hp.phases.waited hwaited
  exact ⟨hempty, hp.counts.finished_of_zero hzero hempty, hp.ended⟩

/-- Two threads and two tasks, until the pool is called upon to be destroyed, and sleeps. -/
def twoTasks : List (TaskPool.Event Nat) :=
  [.owner, .owner, .owner, .thread 0, .detachTask 1, .notifyOne none, .thread 0, .thread 0,
    .detachTask 2, .notifyOne none, .destroy, .owner]

/-- Both tasks are done, and the threads joined. -/
theorem destructor_waits_two : ∃ p : TaskPool Nat, p.owner = .destroyed ∧ p.handedOver = [1, 2] ∧
    p.handedOver.Perm p.finished ∧ ∀ w ∈ p.threads, w = .ended := by
  obtain ⟨p, hp, htest⟩ := (taskPool Nat 2).exists_of_execute LabelledSystem.anyStep
    (fun _ _ _ h => h) rfl
    (twoTasks ++ [.thread 1, .thread 1, .thread 1, .thread 1, .taskEnds 0, .thread 0, .thread 0,
      .thread 0, .thread 0, .taskEnds 1, .thread 1, .thread 1, .thread 1, .thread 1, .thread 1,
      .owner, .owner, .owner, .thread 0, .thread 1, .owner, .owner, .owner])
    (fun p => p.owner = .destroyed ∧ p.handedOver = [1, 2]) (by decide +kernel)
  obtain ⟨howner, hhanded⟩ := of_decide_eq_true htest
  obtain ⟨-, hover, hended⟩ := destructor_waits hp (by rw [howner]; rfl)
  exact ⟨p, howner, hhanded, hover, hended howner⟩

/-- **And it returns.**  Without spurious wake-ups it takes a bounded number of steps,
and before the pool is destroyed it can always take one, or a task is running. -/
theorem destructor_returns {p p' : TaskPool Task} (hpos : 0 < threadCount)
    (h : (taskPool Task threadCount).Reachable LabelledSystem.anyStep p)
    (hdestroying : p.owner.isDestroying = true) {es : List (TaskPool.Event Task)}
    (hpath : (taskPool Task threadCount).Path TaskPool.Prompt p es p') :
    es.length ≤ 10 * threadCount + 8 * p.tasks.length + 4 ∧
    (p'.owner = .destroyed ∨ (∃ task, .running task ∈ p'.threads) ∨
      ∃ e p'', (e = .owner ∨ ∃ i, e = .thread i) ∧ p'.exec e = some p'') := by
  obtain ⟨hp, hthreads⟩ := sound_reachable h
  have hreach : (taskPool Task threadCount).Reachable LabelledSystem.anyStep p' :=
    h.path (hpath.mono fun _ _ _ => trivial)
  obtain ⟨hp', hthreads'⟩ := sound_reachable hreach
  have hstep : ∀ (p : TaskPool Task) (e : TaskPool.Event Task) (p' : TaskPool Task),
      p.Sound ∧ p.owner.isDestroying = true → p.Prompt e →
      (taskPool Task threadCount).step p e p' →
      (p'.Sound ∧ p'.owner.isDestroying = true) ∧
        p'.rank + (if (fun _ => true) e then 1 else 0) ≤ p.rank := by
    rintro p e p' ⟨hp, hdestroying⟩ hprompt hexec
    have hcases := step_cases hexec
    obtain ⟨hdestroying', hrank⟩ := TaskPool.rank_step hp hdestroying hprompt hcases
    exact ⟨⟨hp.step hcases, hdestroying'⟩, hrank⟩
  obtain ⟨⟨-, hdestroying'⟩, hcount⟩ := hpath.countP_le hstep ⟨hp, hdestroying⟩
  rw [List.countP_true] at hcount
  have hbound := TaskPool.rank_le hp.counts
  refine ⟨by omega, hp'.enabled (by omega) hdestroying'⟩

/-- `wait` sleeps, and both tasks are over: one thread is asking whether to notify. -/
theorem destructor_returns_two : ∃ p : TaskPool Nat, p.owner = .asleep ∧
    p.threads = [.asleep, .askingRunning] ∧
    ∃ e p', (e = .owner ∨ ∃ i, e = .thread i) ∧ p.exec e = some p' := by
  obtain ⟨p, hp, htest⟩ := (taskPool Nat 2).exists_of_execute LabelledSystem.anyStep
    (fun _ _ _ h => h) rfl
    (twoTasks ++ [.thread 1, .thread 1, .thread 1, .thread 1, .taskEnds 0, .thread 0, .thread 0,
      .thread 0, .thread 0, .taskEnds 1, .thread 1])
    (fun p => p.owner = .asleep ∧ (p.exec (.thread 1)).any fun p =>
      p.owner = .asleep ∧ p.threads = [.asleep, .askingRunning]) (by decide +kernel)
  obtain ⟨howner, htest⟩ := of_decide_eq_true htest
  obtain ⟨p', hexec, htest⟩ := (Option.any_eq_true _ _).mp htest
  obtain ⟨hsleeps, hthreads⟩ := of_decide_eq_true htest
  have hdestroying : p.owner.isDestroying = true := by
    rw [howner]
    rfl
  obtain ⟨-, hnext⟩ := destructor_returns Nat.two_pos hp hdestroying
    (.cons (l := TaskPool.Event.thread 1) trivial hexec (.nil p'))
  refine ⟨p', hsleeps, hthreads, ?_⟩
  rcases hnext with hdestroyed | ⟨task, hrunning⟩ | hstep
  · cases hsleeps.symm.trans hdestroyed
  · rw [hthreads] at hrunning
    simp at hrunning
  · exact hstep

end Runs

end Tavernmx.Server
