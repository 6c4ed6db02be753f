/-
# `Tavernmx.Server.PoolAdmission` — the accept loop over the threads of its pool

`Admission` lets the pool's threads enter, pick up and finish at any time.  Here the
same loop runs over the pool as it is written, with its sleeping threads and their
notifications; `pool_refines` is that this does nothing `Admission` does not allow.

With the threads there it can be said when the limit fails.  A task that was handed over
waits until a thread has come to the queue, woken up for it or done with the task before
and already counted out.  A connection is let in past the limit exactly when it comes while
every thread without a task has one waiting for it, and one of them is asleep or on its way
(`pool_limit`).
-/
import Tavernmx.Server.Admission
import Tavernmx.Server.PoolThreads

namespace Tavernmx.Server

/-- The accept loop and its pool. -/
structure PoolAdmission extends Accepting where
  pool : TaskPool ConnId

inductive PoolAdmissionStep where
  | accept (arrival : Arrival)
  | write
  | handOver
  | pool (e : TaskPool.Event ConnId)

def PoolAdmissionStep.isWrite : PoolAdmissionStep → Bool
  | .write => true
  | _ => false

variable {Task : Type}

namespace TaskPool

/-- The tasks that are in the queue, or with a thread. -/
def unfinished (p : TaskPool Task) : Nat :=
  p.tasks.length + (p.threads.filterMap PoolThread.task?).length

/-- A step that the pool takes by itself, or in its constructor. -/
def Event.isOwn : Event Task → Bool
  | .detachTask _ | .destroy => false
  | _ => true

/-- A thread without a task has none waiting for it. -/
def HasRoom (p : TaskPool Task) : Prop :=
  p.tasks.length < p.threads.countP fun w => w.task?.isNone

/-- Every thread is counted as running. -/
def IsCounted (p : TaskPool Task) : Prop := ∀ w ∈ p.threads, w.isCounted = true

end TaskPool

namespace PoolAdmission

def start (threadCount : Nat) : PoolAdmission := ⟨.start, .create threadCount⟩

def exec (s : PoolAdmission) : PoolAdmissionStep → Option PoolAdmission
  | .accept arrival =>
    if s.pool.owner = .idle then
      -- `get_tasks_running() >= get_thread_count()`
      (s.accept arrival (s.pool.unfinished ≥ s.pool.threadCount)
        (s.pool.tasksRunning ≥ s.pool.threadCount)).map fun loop => ⟨loop, s.pool⟩
    else none
  | .write => s.write.map fun loop => ⟨loop, s.pool⟩
  | .handOver =>
    s.handOver.bind fun next =>
      (s.pool.exec (.detachTask next.1)).map fun pool => ⟨next.2, pool⟩
  | .pool e => if e.isOwn then (s.pool.exec e).map fun pool => { s with pool } else none

/-- A connection comes while some thread has room for it, or while all are counted, and then
it takes the NAK. -/
def Settled (s : PoolAdmission) : PoolAdmissionStep → Prop
  | .accept arrival => s.pool.HasRoom ∨ (s.pool.IsCounted ∧ arrival.TakesNak)
  | _ => True

end PoolAdmission

/-- `main`, from the constructor of the pool on. -/
def poolAdmission (maxClients hardwareConcurrency : Nat) :
    LabelledSystem PoolAdmission PoolAdmissionStep where
  init s := s = .start (determineThreadCount maxClients hardwareConcurrency)
  step s l s' := s.exec l = some s'

/-! ## What the threads come to -/

/-- The thread has not been started, or not entered its loop. -/
def PoolThread.isEntering : PoolThread Task → Bool
  | .entering => true
  | _ => false

/-- The pool as `Admission` has it. -/
structure TaskPool.Abstracts (p : TaskPool Task) (q : ThreadPool Task) : Prop where
  threadCount : q.threadCount = p.threadCount
  tasks : q.tasks = p.tasks
  starting : q.starting + p.threads.length
    = p.threadCount + p.threads.countP PoolThread.isEntering
  running : q.running.Perm (p.threads.filterMap PoolThread.task?)
  tasksRunning : q.tasksRunning = p.tasksRunning

namespace TaskPool

theorem abstracts_create (threadCount : Nat) :
    (create threadCount : TaskPool Task).Abstracts (.create threadCount) :=
  ⟨rfl, rfl, rfl, .refl _, rfl⟩

theorem Abstracts.unfinished_eq {p : TaskPool Task} {q : ThreadPool Task} (h : p.Abstracts q) :
    q.unfinished = p.unfinished := by
  rw [ThreadPool.unfinished, unfinished, h.tasks, h.running.length_eq]

/-- The queue gets a task. -/
theorem Abstracts.detachTask {p p' : TaskPool Task} {q : ThreadPool Task} (h : p.Abstracts q)
    {task : Task} (hexec : p.exec (.detachTask task) = some p') :
    p'.Abstracts (q.detachTask task) := by
  cases step_cases hexec with
  | detachTask _ _ =>
      exact ⟨h.threadCount, congrArg (· ++ [task]) h.tasks, h.starting, h.running, h.tasksRunning⟩

/-- A thread moves, and neither enters nor takes or ends a task. -/
theorem Abstracts.goes {p : TaskPool Task} {q : ThreadPool Task} (h : p.Abstracts q)
    {threads : List (PoolThread Task)} {w w' : PoolThread Task}
    (hgoes : Goes p.threads w w' threads) (hentering : w'.isEntering = w.isEntering)
    (htask : w'.task? = w.task?) : Abstracts { p with threads } q := by
  have hcountP := hgoes.countP PoolThread.isEntering
  have hlength := hgoes.length_eq
  have hstarting := h.starting
  rw [hentering] at hcountP
  obtain ⟨rest, hold, hnew⟩ := hgoes.tasks
  rw [htask] at hnew
  refine ⟨h.threadCount, h.tasks, ?_, h.running.trans (hold.trans hnew.symm), h.tasksRunning⟩
  simp only
  omega

/-- A thread that is counted is entering, or has a task. -/
theorem countP_isCounted (threads : List (PoolThread Task)) :
    threads.countP PoolThread.isCounted
      = threads.countP PoolThread.isEntering + (threads.filterMap PoolThread.task?).length := by
  induction threads with
  | nil => rfl
  | cons w threads ih =>
      rw [List.countP_cons, List.countP_cons, ih, List.filterMap_cons]
      cases w <;> simp [PoolThread.isCounted, PoolThread.isEntering, PoolThread.task?] <;> omega

theorem Abstracts.thread [DecidableEq Task] {p p' : TaskPool Task} {q : ThreadPool Task}
    (h : p.Abstracts q) (hcounts : p.Counts) {w w' : PoolThread Task}
    {threads : List (PoolThread Task)} (hadvance : Advance p w p' w')
    (hgoes : Goes p.threads w w' threads) :
    Abstracts { p' with threads } q ∨
      ∃ m q', Abstracts { p' with threads } q' ∧ q.move m = some q' := by
  have hlength := hgoes.length_eq
  have hentering := hgoes.countP PoolThread.isEntering
  have hcreated := hcounts.created
  have hstarting := h.starting
  obtain ⟨rest, hold, hnew⟩ := hgoes.tasks
  cases hadvance with
  | enter =>
      simp only [PoolThread.isEntering, if_true, Bool.false_eq_true, if_false] at hentering
      have hpos : 0 < q.starting := by omega
      refine .inr ⟨.enter, _, ?_, if_pos hpos⟩
      refine ⟨h.threadCount, h.tasks, ?_, h.running.trans (hold.trans hnew.symm), ?_⟩
      · simp only
        omega
      · simp only [h.tasksRunning]
  | finish task =>
      simp only [PoolThread.isEntering, Bool.false_eq_true, if_false] at hentering
      have hrunning : q.running.Perm (task :: rest) := h.running.trans hold
      have hmem : task ∈ q.running := hrunning.mem_iff.mpr List.mem_cons_self
      refine .inr ⟨.finish task, _, ?_, if_pos hmem⟩
      refine ⟨h.threadCount, h.tasks, ?_, ?_, ?_⟩
      · simp only
        omega
      · refine (hrunning.erase task).trans ?_
        rw [List.erase_cons_head]
        exact hnew.symm
      · simp only [h.tasksRunning]
  | @pickUp task tasks hworkers htasks =>
      have hcounted := hgoes.countP PoolThread.isCounted
      have hle : threads.countP PoolThread.isCounted ≤ threads.length := List.countP_le_length
      have hsum := countP_isCounted p.threads
      have hrunning := h.running.length_eq
      have hthreads := h.threadCount
      simp only [PoolThread.isEntering, Bool.false_eq_true, if_false] at hentering
      simp only [PoolThread.isCounted, if_true, Bool.false_eq_true, if_false] at hcounted
      have hidle : q.starting + q.running.length < q.threadCount := by omega
      refine .inr ⟨.pickUp, { q with
        tasks, running := q.running ++ [task], tasksRunning := q.tasksRunning + 1 }, ?_, ?_⟩
      · refine ⟨h.threadCount, rfl, ?_, ?_, congrArg (· + 1) h.tasksRunning⟩
        · simp only
          omega
        · exact ((h.running.trans hold).append_right [task]).trans
            (List.perm_append_comm.trans hnew.symm)
      · rw [ThreadPool.move, h.tasks, htasks]
        exact if_pos hidle
  | notify | askWaiting _ | askRunning _ | askTasks _ | sleep _ _ | leave _ =>
      have hsame := h.goes hgoes rfl rfl
      exact .inl ⟨hsame.threadCount, hsame.tasks, hsame.starting, hsame.running, hsame.tasksRunning⟩
  | look hasking _ =>
      refine .inl (h.goes hgoes ?_ ?_)
      · cases w <;> first | rfl | cases hasking
      · exact (PoolThread.isCounted_of_isAsking hasking).2.symm

/-- **What a step of the pool is to `Admission`**: one move of its threads, or nothing. -/
theorem Abstracts.step [DecidableEq Task] {p p' : TaskPool Task} {q : ThreadPool Task}
    (h : p.Abstracts q) (hcounts : p.Counts) {e : Event Task} (hown : e.isOwn = true)
    (hstep : PoolStep p e p') :
    p'.Abstracts q ∨ ∃ m q', p'.Abstracts q' ∧ q.move m = some q' := by
  cases hstep with
  | thread hadvance hgoes => exact h.thread hcounts hadvance hgoes
  | taskEnds hgoes | spurious hgoes => exact .inl (h.goes hgoes rfl rfl)
  | notifyOne _ hgoes =>
      have hwoken := h.goes hgoes rfl rfl
      exact .inl ⟨hwoken.threadCount, hwoken.tasks, hwoken.starting, hwoken.running,
        hwoken.tasksRunning⟩
  | create _ _ =>
      have hstarting := h.starting
      refine .inl ⟨h.threadCount, h.tasks, ?_, ?_, h.tasksRunning⟩
      · simp only [List.length_append, List.length_singleton, List.countP_append,
          List.countP_singleton, PoolThread.isEntering, if_true]
        omega
      · simpa only [List.filterMap_append, List.filterMap_cons, List.filterMap_nil,
          PoolThread.task?, List.append_nil] using h.running
  | notifyAll _ =>
      have hwake : ∀ w : PoolThread Task, w.wake.isEntering = w.isEntering := by
        intro w
        cases w <;> rfl
      refine .inl ⟨h.threadCount, h.tasks, ?_, ?_, h.tasksRunning⟩
      · simpa only [List.length_map, List.countP_map, Function.comp_def, hwake] using h.starting
      · simpa only [List.filterMap_map, Function.comp_def, wake_task?] using h.running
  | detachTask _ _ | destroy _ => cases hown
  | created _ _ | notifyNone _ _ | sleep _ _ | waited _ _ | stop _ | join _ _ | joined _ _
  | spuriousWait _ =>
      exact .inl ⟨h.threadCount, h.tasks, h.starting, h.running, h.tasksRunning⟩

theorem countP_task?_isNone (threads : List (PoolThread Task)) :
    (threads.countP fun w => w.task?.isNone) + (threads.filterMap PoolThread.task?).length
      = threads.length := by
  induction threads with
  | nil => rfl
  | cons w threads ih =>
      rw [List.countP_cons, List.filterMap_cons, List.length_cons, ← ih]
      cases htask : w.task? with
      | none => simp only [Option.isNone_none, if_true]; omega
      | some task => simp only [Option.isNone_some, Bool.false_eq_true, if_false,
          List.length_cons]; omega

/-- **What the two numbers say about the threads.** -/
theorem Sound.hasRoom_iff {p : TaskPool Task} (h : p.Sound) (howner : p.owner = .idle) :
    p.unfinished < p.threadCount ↔ p.HasRoom := by
  have hall := h.counts.all (by rw [howner]; exact PoolOwner.noConfusion)
  have htasks := countP_task?_isNone p.threads
  rw [unfinished, HasRoom]
  omega

theorem Sound.isCounted_iff {p : TaskPool Task} (h : p.Sound) (howner : p.owner = .idle) :
    p.threadCount ≤ p.tasksRunning ↔ p.IsCounted := by
  have hall := h.counts.all (by rw [howner]; exact PoolOwner.noConfusion)
  have hcount := h.counts.count
  have hle : p.threads.countP PoolThread.isCounted ≤ p.threads.length := List.countP_le_length
  rw [IsCounted, ← List.countP_eq_length]
  omega

end TaskPool

/-! ## The accept loop -/

namespace PoolAdmission

/-- The loop as `Admission` has it. -/
structure Abstracts (s : PoolAdmission) (t : Admission) : Prop where
  pool : s.pool.Abstracts t.pool
  loop : t.toAccepting = s.toAccepting

theorem Abstracts.accept {s s' : PoolAdmission} {t : Admission} (h : s.Abstracts t)
    {arrival : Arrival} (hexec : s.exec (.accept arrival) = some s') :
    s.pool.owner = .idle ∧ ∃ t', s'.Abstracts t' ∧ t.exec (.accept arrival) = some t' := by
  obtain ⟨howner, hexec⟩ := Option.ite_none_right_eq_some.mp hexec
  obtain ⟨loop, haccept, rfl⟩ := Option.map_eq_some_iff.mp hexec
  refine ⟨howner, ⟨loop, t.pool⟩, ⟨h.pool, rfl⟩, ?_⟩
  rw [Admission.exec, h.loop, tooManyConnections, h.pool.unfinished_eq, h.pool.tasksRunning,
    h.pool.threadCount, haccept]
  rfl

theorem Abstracts.write {s s' : PoolAdmission} {t : Admission} (h : s.Abstracts t)
    (hexec : s.exec .write = some s') : ∃ t', s'.Abstracts t' ∧ t.exec .write = some t' := by
  obtain ⟨loop, hwrite, rfl⟩ := Option.map_eq_some_iff.mp hexec
  refine ⟨⟨loop, t.pool⟩, ⟨h.pool, rfl⟩, ?_⟩
  rw [Admission.exec, h.loop, hwrite]
  rfl

theorem Abstracts.handOver {s s' : PoolAdmission} {t : Admission} (h : s.Abstracts t)
    (hexec : s.exec .handOver = some s') :
    ∃ t', s'.Abstracts t' ∧ t.exec .handOver = some t' := by
  obtain ⟨⟨client, loop⟩, hhandOver, hexec⟩ := Option.bind_eq_some_iff.mp hexec
  obtain ⟨pool, hpool, rfl⟩ := Option.map_eq_some_iff.mp hexec
  refine ⟨⟨loop, t.pool.detachTask client⟩, ⟨h.pool.detachTask hpool, rfl⟩, ?_⟩
  rw [Admission.exec, h.loop, hhandOver]
  rfl

theorem Abstracts.pool_step {s s' : PoolAdmission} {t : Admission} (h : s.Abstracts t)
    (hcounts : s.pool.Counts) {e : TaskPool.Event ConnId} (hexec : s.exec (.pool e) = some s') :
    s'.Abstracts t ∨ ∃ m t', s'.Abstracts t' ∧ t.exec (.pool m) = some t' := by
  obtain ⟨hown, hexec⟩ := Option.ite_none_right_eq_some.mp hexec
  obtain ⟨pool, hpool, rfl⟩ := Option.map_eq_some_iff.mp hexec
  rcases h.pool.step hcounts hown (step_cases hpool) with hsame | ⟨m, q, hq, hmove⟩
  · exact .inl ⟨hsame, h.loop⟩
  · refine .inr ⟨m, { t with pool := q }, ⟨hq, h.loop⟩, ?_⟩
    rw [Admission.exec, hmove]
    rfl

/-- The pool goes through one of its own steps, or stays. -/
theorem sound_step {s s' : PoolAdmission} (h : s.pool.Sound) {l : PoolAdmissionStep}
    (hexec : s.exec l = some s') : s'.pool.Sound := by
  cases l with
  | accept arrival =>
      obtain ⟨-, hexec⟩ := Option.ite_none_right_eq_some.mp hexec
      obtain ⟨loop, -, rfl⟩ := Option.map_eq_some_iff.mp hexec
      exact h
  | write =>
      obtain ⟨loop, -, rfl⟩ := Option.map_eq_some_iff.mp hexec
      exact h
  | handOver =>
      obtain ⟨next, -, hexec⟩ := Option.bind_eq_some_iff.mp hexec
      obtain ⟨pool, hpool, rfl⟩ := Option.map_eq_some_iff.mp hexec
      exact h.step (step_cases hpool)
  | pool e =>
      obtain ⟨-, hexec⟩ := Option.ite_none_right_eq_some.mp hexec
      obtain ⟨pool, hpool, rfl⟩ := Option.map_eq_some_iff.mp hexec
      exact h.step (step_cases hpool)

/-- The loop's part in a step. -/
theorem accepting_step {s s' : PoolAdmission} {l : PoolAdmissionStep}
    (hexec : s.exec l = some s') : accepting.step s.toAccepting l.isWrite s'.toAccepting := by
  cases l with
  | accept arrival =>
      obtain ⟨-, hexec⟩ := Option.ite_none_right_eq_some.mp hexec
      obtain ⟨loop, haccept, rfl⟩ := Option.map_eq_some_iff.mp hexec
      exact .accept arrival _ _ haccept
  | write =>
      obtain ⟨loop, hwrite, rfl⟩ := Option.map_eq_some_iff.mp hexec
      exact .write hwrite
  | handOver =>
      obtain ⟨⟨client, loop⟩, hhandOver, hexec⟩ := Option.bind_eq_some_iff.mp hexec
      obtain ⟨pool, -, rfl⟩ := Option.map_eq_some_iff.mp hexec
      exact .handOver hhandOver
  | pool e =>
      obtain ⟨-, hexec⟩ := Option.ite_none_right_eq_some.mp hexec
      obtain ⟨pool, -, rfl⟩ := Option.map_eq_some_iff.mp hexec
      exact .pool _

end PoolAdmission

variable {maxClients hardwareConcurrency : Nat}

theorem pool_sound {allowed : PoolAdmission → PoolAdmissionStep → Prop} {s : PoolAdmission}
    (h : (poolAdmission maxClients hardwareConcurrency).Reachable allowed s) : s.pool.Sound := by
  refine h.invariant ?_ ?_
  · rintro s rfl
    exact ⟨TaskPool.counts_create _, TaskPool.phases_create _, TaskPool.unslept_create _,
      fun _ _ h => (List.not_mem_nil h).elim⟩
  · rintro s l s' - hs - hstep
    exact PoolAdmission.sound_step hs hstep

/-- The conditions on the two sides need only agree where a connection comes. -/
theorem pool_simulates {allowed : PoolAdmission → PoolAdmissionStep → Prop}
    {allowed' : Admission → AdmissionStep → Prop}
    (haccept : ∀ s t arrival, s.pool.Sound → s.pool.owner = .idle → s.Abstracts t →
      allowed s (.accept arrival) → allowed' t (.accept arrival))
    (hothers : ∀ t m, (∀ arrival, m ≠ .accept arrival) → allowed' t m) {s : PoolAdmission}
    (h : (poolAdmission maxClients hardwareConcurrency).Reachable allowed s) :
    ∃ t, s.Abstracts t ∧
      (admission maxClients hardwareConcurrency).Reachable allowed' t := by
  refine h.simulate ?_ ?_
  · rintro s rfl
    exact ⟨.start _, ⟨TaskPool.abstracts_create _, rfl⟩, rfl⟩
  · intro s l s' t hreach hrel hallowed hstep
    have hsound := pool_sound hreach
    cases l with
    | accept arrival =>
        obtain ⟨howner, t', hrel', hexec⟩ := hrel.accept hstep
        exact .inr ⟨_, t', hrel', haccept s t arrival hsound howner hrel hallowed, hexec⟩
    | write =>
        obtain ⟨t', hrel', hexec⟩ := hrel.write hstep
        exact .inr ⟨_, t', hrel', hothers t _ fun _ => AdmissionStep.noConfusion, hexec⟩
    | handOver =>
        obtain ⟨t', hrel', hexec⟩ := hrel.handOver hstep
        exact .inr ⟨_, t', hrel', hothers t _ fun _ => AdmissionStep.noConfusion, hexec⟩
    | pool e =>
        rcases hrel.pool_step hsound.counts hstep with hsame | ⟨m, t', hrel', hexec⟩
        · exact .inl hsame
        · exact .inr ⟨_, t', hrel', hothers t _ fun _ => AdmissionStep.noConfusion, hexec⟩

/-- **The pool as it is written does nothing `Admission` does not allow.** -/
theorem pool_refines {s : PoolAdmission}
    (h : (poolAdmission maxClients hardwareConcurrency).Reachable LabelledSystem.anyStep s) :
    ∃ t, s.Abstracts t ∧
      (admission maxClients hardwareConcurrency).Reachable LabelledSystem.anyStep t :=
  pool_simulates (fun _ _ _ _ _ _ _ => trivial) (fun _ _ _ => trivial) h

/-- The two conditions are one, where the owner is not in a call to the pool. -/
theorem settled_iff {s : PoolAdmission} {t : Admission} (hsound : s.pool.Sound)
    (howner : s.pool.owner = .idle) (hrel : s.Abstracts t) (arrival : Arrival) :
    t.Settled (.accept arrival) ↔ s.Settled (.accept arrival) := by
  rw [Admission.Settled, PoolAdmission.Settled, hrel.pool.unfinished_eq, hrel.pool.threadCount,
    hrel.pool.tasksRunning, hsound.hasRoom_iff howner, hsound.isCounted_iff howner]

/-- A connection that comes while nothing has room for it and not every thread is counted. -/
theorem exceeded_of_not_counted {s s' : PoolAdmission} (hsound : s.pool.Sound) {arrival : Arrival}
    (hexec : s.exec (.accept arrival) = some s') (hroom : ¬ s.pool.HasRoom)
    (hcounted : ¬ s.pool.IsCounted) :
    ∃ s'', s'.exec .handOver = some s'' ∧ s''.pool.threadCount < s''.pool.unfinished := by
  obtain ⟨howner, hexec⟩ := Option.ite_none_right_eq_some.mp hexec
  obtain ⟨loop, haccept, rfl⟩ := Option.map_eq_some_iff.mp hexec
  have hfull := Nat.le_of_not_lt (mt (hsound.hasRoom_iff howner).mp hroom)
  have hmany := mt (hsound.isCounted_iff howner).mp hcounted
  obtain ⟨-, -, -, hstage⟩ := Accepting.accept_eq haccept
  rw [if_neg (mt of_decide_eq_true hmany)] at hstage
  have hhandOver : loop.handOver = some (arrival.client, { loop with stage := .awaiting }) := by
    rw [Accepting.handOver, hstage]
  refine ⟨⟨{ loop with stage := .awaiting }, { s.pool with
    tasks := s.pool.tasks ++ [arrival.client]
    owner := .notifying
    handedOver := s.pool.handedOver ++ [arrival.client] }⟩, ?_, ?_⟩
  · simp only [PoolAdmission.exec, hhandOver, Option.bind_some, TaskPool.exec, howner, if_true,
      Option.map_some]
  · simp only [TaskPool.unfinished, List.length_append, List.length_singleton] at hfull ⊢
    omega

/-- **When the limit is kept, over the pool as it is written.**  It is in every run in which a
connection only comes while some thread has room for it, or while all the threads are counted
and it takes the NAK; and then every connection over the limit is rejected, after so many
writes.  In any other state in which a connection can come, one that comes while not all the
threads are counted is handed over past the limit. -/
theorem pool_limit :
    (∀ s, (poolAdmission maxClients hardwareConcurrency).Reachable PoolAdmission.Settled s →
      s.pool.threadCount = determineThreadCount maxClients hardwareConcurrency ∧
      s.pool.unfinished ≤ s.pool.threadCount ∧
      ∃ n, (0 < n → (s.exec .write).isSome = true) ∧ ∀ ls s',
        (poolAdmission maxClients hardwareConcurrency).Path LabelledSystem.anyStep s ls s' →
          n ≤ ls.countP PoolAdmissionStep.isWrite → s.crowded.Sublist s'.rejected) ∧
    ∀ s, (poolAdmission maxClients hardwareConcurrency).Reachable LabelledSystem.anyStep s →
      ∀ arrival s', s.exec (.accept arrival) = some s' →
        ¬ s.pool.HasRoom → ¬ s.pool.IsCounted →
          ∃ s'', s'.exec .handOver = some s'' ∧ s''.pool.threadCount < s''.pool.unfinished := by
  constructor
  · intro s h
    have hothers : ∀ (t : Admission) (m : AdmissionStep), (∀ arrival, m ≠ .accept arrival) →
        t.Settled m := by
      intro t m hm
      cases m with
      | accept arrival => exact (hm arrival rfl).elim
      | write | handOver | pool _ => trivial
    obtain ⟨t, hrel, ht⟩ := pool_simulates (fun _ _ arrival hsound howner hrel =>
      (settled_iff hsound howner hrel arrival).mpr) hothers h
    obtain ⟨hlimited, hthreads⟩ := limited_reachable ht
    have hunfinished := hlimited.unfinished
    rw [hrel.pool.unfinished_eq, hrel.pool.threadCount] at hunfinished
    have hanswering := hlimited.answering
    rw [hrel.loop] at hanswering
    obtain ⟨n, hwrite, hrejects⟩ := hanswering.rejects
    refine ⟨hrel.pool.threadCount.symm.trans hthreads, hunfinished, n,
      fun hpos => Option.isSome_map.trans (hwrite hpos), fun ls s' hpath hcount => ?_⟩
    have hloop := hpath.map PoolAdmission.toAccepting PoolAdmissionStep.isWrite
      fun _ _ _ => PoolAdmission.accepting_step
    refine hrejects _ _ hloop ?_
    rwa [List.countP_map, Function.id_comp]
  · intro s h arrival s' hexec hroom hcounted
    exact exceeded_of_not_counted (pool_sound h) hexec hroom hcounted

/-- The thread is created and enters, takes the first client, and the second is turned
away. -/
def oneClient : List PoolAdmissionStep :=
  [.pool .owner, .pool .owner, .pool (.thread 0), .pool (.thread 0), .pool (.thread 0),
    .accept (patientPeer 1), .handOver, .pool (.notifyOne (some 0)), .pool (.thread 0),
    .accept (patientPeer 2), .write, .write]

theorem pool_refines_one : ∃ (s : PoolAdmission) (t : Admission), s.rejected = [2] ∧
    s.Abstracts t ∧ (admission 1 8).Reachable LabelledSystem.anyStep t := by
  obtain ⟨s, hs, htest⟩ := (poolAdmission 1 8).exists_of_execute LabelledSystem.anyStep
    (fun _ _ _ h => h) rfl oneClient (fun s => s.rejected = [2]) (by decide +kernel)
  obtain ⟨t, hrel, ht⟩ := pool_refines hs
  exact ⟨s, t, of_decide_eq_true htest, hrel, ht⟩

/-- The condition, with a NAK that is through at the second write. -/
def PoolAdmission.settlesSoon (s : PoolAdmission) : PoolAdmissionStep → Bool
  | .accept arrival =>
    decide (s.pool.tasks.length < s.pool.threads.countP fun w => w.task?.isNone) ||
    (s.pool.threads.all PoolThread.isCounted && arrival.connection.isConnected &&
      decide (arrival.writes 0 = .retry) && decide (arrival.writes 1 = .written))
  | _ => true

theorem settled_of_settlesSoon {s : PoolAdmission} {l : PoolAdmissionStep}
    (h : s.settlesSoon l = true) : s.Settled l := by
  cases l with
  | accept arrival =>
      simp only [PoolAdmission.settlesSoon, Bool.or_eq_true, Bool.and_eq_true, decide_eq_true_eq,
        List.all_eq_true] at h
      rcases h with hroom | ⟨⟨⟨hcounted, hconnected⟩, hretry⟩, hwritten⟩
      · exact .inl hroom
      · refine .inr ⟨hcounted, hconnected, 1, hwritten, fun m hm => ?_⟩
        rwa [Nat.lt_one_iff.mp hm]
  | write | handOver | pool _ => trivial

/-- The first client is done and counted out, the second is handed over, and the third comes
before the thread is at the queue again. -/
def threeClients : List PoolAdmissionStep :=
  [.pool .owner, .pool .owner, .pool (.thread 0), .pool (.thread 0), .pool (.thread 0),
    .accept (patientPeer 1), .handOver, .pool (.notifyOne (some 0)), .pool (.thread 0),
    .pool (.taskEnds 0), .pool (.thread 0), .accept (patientPeer 2), .handOver,
    .pool (.notifyOne none)]

theorem pool_limit_exceeded :
    (∃ s : PoolAdmission, s.crowded = [2] ∧ s.rejected = [] ∧ s.pool.unfinished ≤ 1 ∧
      ∃ n, ∀ ls s', (poolAdmission 1 8).Path LabelledSystem.anyStep s ls s' →
        n ≤ ls.countP PoolAdmissionStep.isWrite → [2].Sublist s'.rejected) ∧
    ∃ s s' s'' : PoolAdmission, s.pool.finished = [1] ∧ s.pool.tasks = [2] ∧
      s.exec (.accept (patientPeer 3)) = some s' ∧ s'.exec .handOver = some s'' ∧
      s''.pool.threadCount < s''.pool.unfinished := by
  constructor
  · obtain ⟨s, hs, htest⟩ := (poolAdmission 1 8).exists_of_execute
      (fun s l => s.settlesSoon l = true) (fun _ _ _ h => h) rfl (oneClient.take 10)
      (fun s => s.crowded = [2] ∧ s.rejected = []) (by decide +kernel)
    obtain ⟨hcrowded, hrejected⟩ := of_decide_eq_true htest
    obtain ⟨hthreads, hunfinished, n, -, hrejects⟩ := pool_limit.1 s
      (hs.mono fun _ _ => settled_of_settlesSoon)
    rw [hcrowded] at hrejects
    exact ⟨s, hcrowded, hrejected, hunfinished.trans_eq hthreads, n, hrejects⟩
  · obtain ⟨s, hs, htest⟩ := (poolAdmission 1 8).exists_of_execute LabelledSystem.anyStep
      (fun _ _ _ h => h) rfl threeClients
      (fun s => s.pool.finished = [1] ∧ s.pool.tasks = [2] ∧
        (s.exec (.accept (patientPeer 3))).isSome ∧
        (s.pool.threads.countP fun w => w.task?.isNone) = 1 ∧
        s.pool.threads.all PoolThread.isCounted = false) (by decide +kernel)
    obtain ⟨hfinished, htasks, haccept, hidle, hcounted⟩ := of_decide_eq_true htest
    obtain ⟨s', hs'⟩ := Option.isSome_iff_exists.mp haccept
    have hroom : ¬ s.pool.HasRoom := by
      rw [TaskPool.HasRoom, htasks, hidle]
      exact Nat.lt_irrefl 1
    have hnot : ¬ s.pool.IsCounted := fun hall => by
      rw [List.all_eq_true.mpr hall] at hcounted
      cases hcounted
    obtain ⟨s'', hs'', hexceeded⟩ := pool_limit.2 s hs (patientPeer 3) s' hs' hroom hnot
    exact ⟨s, s', s'', hfinished, htasks, hs', hs'', hexceeded⟩

end Tavernmx.Server
