/-
# `Tavernmx.Server.Admission` — how many clients are let in

The accept loop compares the pool's counter of running tasks with its number of
threads, and either sends a NAK or hands the connection to the pool.  Handing it
over only puts it into the queue, so a connection that no thread has picked up
does not count yet, and the next one is let in although the pool is full
(`admission_exceeded`).

The NAK is sent by the loop itself, write by write, while the pool goes on.  A peer
that is gone ends the loop with an exception, and one whose writes always ask to be
tried again keeps it.

Those are the only ways: as long as no connection is accepted while the pool is full
and its counter does not show it, because a task is still waiting, and every peer that
meets a full counter takes its NAK, the limit is kept and every connection over it is
sent the NAK and shut down (`admission_limit`).

`Accepting` is the loop without its pool.
-/
import Tavernmx.Lib.Runs
import Tavernmx.Lib.ThreadPool
import Tavernmx.Server.Worker
import Tavernmx.Shared.Transport

namespace Tavernmx.Server

/-- `determine_thread_count`. -/
def determineThreadCount (numThreads hardwareConcurrency : Nat) : Nat :=
  if numThreads > 0 then numThreads
  else if hardwareConcurrency > 0 then hardwareConcurrency
  else 1

/-- `get_tasks_running() >= get_thread_count()`. -/
def tooManyConnections (pool : ThreadPool ConnId) : Bool := pool.tasksRunning ≥ pool.threadCount

/-! ## The accept loop without its pool -/

/-- A connection that `await_next_connection` returned, and how its peer lets the
writes end. -/
structure Arrival where
  client : ConnId
  connection : Connection
  writes : Nat → WriteResult

/-- The peer is still there, and after some retries a write does not fail. -/
def Arrival.TakesNak (arrival : Arrival) : Prop :=
  arrival.connection.isConnected = true ∧ ∃ n, GoesThrough arrival.writes n

/-- Where the loop is. -/
inductive AcceptStage where
  | awaiting
  /-- A connection has passed the check and is about to be handed over. -/
  | admitting (client : ConnId)
  /-- In `send_message` of the NAK, after so many writes that asked to be tried again. -/
  | refusing (arrival : Arrival) (retries : Nat)
  /-- An exception has left the loop. -/
  | left

/-- The loop.  `crowded` records the connections that were accepted while as many as
the pool has threads were unfinished. -/
structure Accepting where
  stage : AcceptStage
  /-- The connections that were sent a NAK and shut down. -/
  rejected : List ConnId
  crowded : List ConnId

namespace Accepting

def start : Accepting := ⟨.awaiting, [], []⟩

/-- `await_next_connection` returns a connection, and the counter is read. -/
def accept (s : Accepting) (arrival : Arrival) (full tooMany : Bool) : Option Accepting :=
  match s.stage with
  | .awaiting =>
    let s := if full then { s with crowded := s.crowded ++ [arrival.client] } else s
    some { s with stage :=
      if tooMany then
        -- `send_message_block` throws when the connection is lost
        if arrival.connection.isConnected then .refusing arrival 0 else .left
      else .admitting arrival.client }
  | _ => none

/-- The next write of the NAK; once it is through, `shutdown`. -/
def write (s : Accepting) : Option Accepting :=
  match s.stage with
  | .refusing arrival retries =>
    match arrival.writes retries with
    | .written => some { s with stage := .awaiting, rejected := s.rejected ++ [arrival.client] }
    | .retry => some { s with stage := .refusing arrival (retries + 1) }
    | .failed => some { s with stage := .left }
  | _ => none

/-- The connection for `detach_task`, and the loop after it. -/
def handOver (s : Accepting) : Option (ConnId × Accepting) :=
  match s.stage with
  | .admitting client => some (client, { s with stage := .awaiting })
  | _ => none

end Accepting

/-- A step of the loop, or of its pool; the label says whether it is a write of the NAK. -/
inductive AcceptingStep : Accepting → Bool → Accepting → Prop where
  | accept {s s' : Accepting} (arrival : Arrival) (full tooMany : Bool)
      (h : s.accept arrival full tooMany = some s') : AcceptingStep s false s'
  | write {s s' : Accepting} (h : s.write = some s') : AcceptingStep s true s'
  | handOver {s s' : Accepting} {client : ConnId} (h : s.handOver = some (client, s')) :
      AcceptingStep s false s'
  | pool (s : Accepting) : AcceptingStep s false s

def accepting : LabelledSystem Accepting Bool where
  init s := s = .start
  step := AcceptingStep

namespace Accepting

variable {s s' : Accepting} {arrival : Arrival} {full tooMany : Bool} {client : ConnId}

/-- What an arrival leads to. -/
theorem accept_eq (h : s.accept arrival full tooMany = some s') :
    s.stage = .awaiting ∧ s'.rejected = s.rejected ∧
      s'.crowded = (if full then s.crowded ++ [arrival.client] else s.crowded) ∧
      s'.stage = (if tooMany then
        if arrival.connection.isConnected then .refusing arrival 0 else .left
      else .admitting arrival.client) := by
  cases hstage : s.stage with
  | awaiting =>
      simp only [accept, hstage] at h
      cases h
      cases full <;> exact ⟨rfl, rfl, rfl, rfl⟩
  | admitting _ | refusing _ _ | left =>
      simp only [accept, hstage] at h
      cases h

/-- What a write leads to. -/
theorem write_cases (h : s.write = some s') : ∃ arrival retries,
    s.stage = .refusing arrival retries ∧
      ((arrival.writes retries = .written ∧
          s' = { s with stage := .awaiting, rejected := s.rejected ++ [arrival.client] }) ∨
        (arrival.writes retries = .retry ∧
          s' = { s with stage := .refusing arrival (retries + 1) }) ∨
        (arrival.writes retries = .failed ∧ s' = { s with stage := .left })) := by
  cases hstage : s.stage with
  | refusing arrival retries =>
      refine ⟨arrival, retries, rfl, ?_⟩
      cases hresult : arrival.writes retries with
      | written =>
          simp only [write, hstage, hresult] at h
          exact .inl ⟨rfl, (Option.some.inj h).symm⟩
      | retry =>
          simp only [write, hstage, hresult] at h
          exact .inr (.inl ⟨rfl, (Option.some.inj h).symm⟩)
      | failed =>
          simp only [write, hstage, hresult] at h
          exact .inr (.inr ⟨rfl, (Option.some.inj h).symm⟩)
  | awaiting | admitting _ | left =>
      simp only [write, hstage] at h
      cases h

theorem handOver_eq (h : s.handOver = some (client, s')) :
    s.stage = .admitting client ∧ s' = { s with stage := .awaiting } := by
  cases hstage : s.stage with
  | admitting _ =>
      simp only [handOver, hstage] at h
      cases h
      exact ⟨rfl, rfl⟩
  | awaiting | refusing _ _ | left =>
      simp only [handOver, hstage] at h
      cases h

/-! ### Every connection over the limit is answered -/

/-- The crowded connections are rejected, up to the one that is being sent the NAK, and
that one takes it. -/
def Answering (s : Accepting) : Prop :=
  s.crowded.Sublist s.rejected ∨ ∃ arrival retries n, s.stage = .refusing arrival retries ∧
    s.crowded.Sublist (s.rejected ++ [arrival.client]) ∧ retries ≤ n ∧
    GoesThrough arrival.writes n

/-- Away from `send_message`, they are all rejected. -/
theorem Answering.answered (h : s.Answering) (hstage : ∀ arrival retries,
    s.stage ≠ .refusing arrival retries) : s.crowded.Sublist s.rejected := by
  rcases h with h | ⟨arrival, retries, -, hrefusing, -⟩
  · exact h
  · exact absurd hrefusing (hstage arrival retries)

theorem Answering.accept (h : s.Answering)
    (htakes : full = true → tooMany = true ∧ arrival.TakesNak)
    (haccept : s.accept arrival full tooMany = some s') : s'.Answering := by
  obtain ⟨hawaiting, hrejected, hcrowded, hstage⟩ := accept_eq haccept
  have hanswered : s.crowded.Sublist s.rejected := by
    refine h.answered fun _ _ hrefusing => ?_
    cases hawaiting.symm.trans hrefusing
  cases full with
  | true =>
      obtain ⟨hmany, hconnected, n, hthrough⟩ := htakes rfl
      rw [if_pos hmany, if_pos hconnected] at hstage
      refine .inr ⟨arrival, 0, n, hstage, ?_, Nat.zero_le n, hthrough⟩
      rw [hrejected, hcrowded, if_pos rfl]
      exact hanswered.append (.refl _)
  | false =>
      left
      rw [hrejected, hcrowded]
      exact hanswered

theorem Answering.write (h : s.Answering) (hwrite : s.write = some s') : s'.Answering := by
  obtain ⟨arrival, retries, hstage, hresult⟩ := write_cases hwrite
  rcases h with hanswered | ⟨other, _, n, hother, hanswered, hle, hthrough⟩
  · left
    rcases hresult with ⟨-, rfl⟩ | ⟨-, rfl⟩ | ⟨-, rfl⟩
    · exact hanswered.trans (List.sublist_append_left ..)
    · exact hanswered
    · exact hanswered
  · cases hother.symm.trans hstage
    rcases hresult with ⟨-, rfl⟩ | ⟨hagain, rfl⟩ | ⟨hfailed, -⟩
    · exact .inl hanswered
    · have hlt := hthrough.lt_of_retry hle hagain
      exact .inr ⟨arrival, retries + 1, n, rfl, hanswered, hlt, hthrough⟩
    · exact absurd hfailed (hthrough.not_failed hle)

theorem Answering.handOver (h : s.Answering) (hhandOver : s.handOver = some (client, s')) :
    s'.Answering := by
  obtain ⟨hstage, rfl⟩ := handOver_eq hhandOver
  refine .inl (h.answered fun _ _ hrefusing => ?_)
  cases hstage.symm.trans hrefusing

/-! ### And the answer comes -/

/-- Who was rejected stays so. -/
theorem rejected_step {isWrite : Bool} (hstep : accepting.step s isWrite s') :
    s.rejected.Sublist s'.rejected := by
  cases hstep with
  | accept arrival full tooMany haccept =>
      obtain ⟨-, hrejected, -, -⟩ := accept_eq haccept
      rw [hrejected]
  | write hwrite =>
      obtain ⟨arrival, retries, -, ⟨-, rfl⟩ | ⟨-, rfl⟩ | ⟨-, rfl⟩⟩ := write_cases hwrite
      · exact List.sublist_append_left ..
      · exact .refl _
      · exact .refl _
  | handOver hhandOver =>
      obtain ⟨-, rfl⟩ := handOver_eq hhandOver
      exact .refl _
  | pool => exact .refl _

theorem rejected_path {writes : List Bool}
    (hpath : accepting.Path LabelledSystem.anyStep s writes s') :
    s.rejected.Sublist s'.rejected := by
  induction hpath with
  | nil _ => exact .refl _
  | cons _ hstep _ ih => exact (rejected_step hstep).trans ih

/-- **A peer that takes the NAK has it after so many writes more**, whatever else happens
between them. -/
theorem rejected_of_writes {writes : List Bool}
    (hpath : accepting.Path LabelledSystem.anyStep s writes s') {retries n : Nat}
    (hstage : s.stage = .refusing arrival retries) (hle : retries ≤ n)
    (hthrough : GoesThrough arrival.writes n) (hcount : n < retries + writes.countP id) :
    (s.rejected ++ [arrival.client]).Sublist s'.rejected := by
  induction hpath generalizing retries with
  | nil _ => exact absurd hcount (Nat.not_lt_of_le hle)
  | @cons s mid s' isWrite writes _ hstep hpath ih =>
      cases hstep with
      | accept _ _ _ haccept =>
          obtain ⟨hawaiting, -⟩ := accept_eq haccept
          cases hawaiting.symm.trans hstage
      | handOver hhandOver =>
          obtain ⟨hadmitting, -⟩ := handOver_eq hhandOver
          cases hadmitting.symm.trans hstage
      | pool => exact ih hstage hle (by simpa using hcount)
      | write hwrite =>
          rw [List.countP_cons_of_pos rfl] at hcount
          obtain ⟨other, retries', hrefusing, hresult⟩ := write_cases hwrite
          cases hrefusing.symm.trans hstage
          rcases hresult with ⟨-, rfl⟩ | ⟨hagain, rfl⟩ | ⟨hfailed, -⟩
          · exact rejected_path hpath
          · exact ih rfl (hthrough.lt_of_retry hle hagain) (by omega)
          · exact absurd hfailed (hthrough.not_failed hle)

/-- **The crowded connections are all rejected after so many writes more**, and as long as
there are writes to come, the next one can be made. -/
theorem Answering.rejects (h : s.Answering) :
    ∃ n, (0 < n → s.write.isSome = true) ∧ ∀ writes s',
      accepting.Path LabelledSystem.anyStep s writes s' → n ≤ writes.countP id →
        s.crowded.Sublist s'.rejected := by
  rcases h with hanswered | ⟨arrival, retries, n, hstage, hanswered, hle, hthrough⟩
  · exact ⟨0, fun h => absurd h (Nat.lt_irrefl 0), fun _ _ hpath _ =>
      hanswered.trans (rejected_path hpath)⟩
  · refine ⟨n + 1 - retries, fun _ => ?_, fun writes s' hpath hcount => ?_⟩
    · rw [Accepting.write, hstage]
      cases hresult : arrival.writes retries <;> simp [hresult]
    · exact hanswered.trans (rejected_of_writes hpath hstage hle hthrough (by omega))

/-! ### Where no answer comes -/

/-- An exception has left the loop, or the NAK will never be through. -/
def Stuck (s : Accepting) : Prop :=
  s.stage = .left ∨ ∃ arrival retries, s.stage = .refusing arrival retries ∧
    (∀ m < retries, arrival.writes m = .retry) ∧ ¬ ∃ n, GoesThrough arrival.writes n

theorem stuck_of_accept (haccept : s.accept arrival full tooMany = some s')
    (hmany : tooMany = true) (htakes : ¬ arrival.TakesNak) : s'.Stuck := by
  obtain ⟨-, -, -, hstage⟩ := accept_eq haccept
  rw [if_pos hmany] at hstage
  split at hstage
  next hconnected =>
    exact .inr ⟨arrival, 0, hstage, fun m hm => absurd hm (Nat.not_lt_zero m),
      fun hthrough => htakes ⟨hconnected, hthrough⟩⟩
  next => exact .inl hstage

/-- Then nothing is rejected any more. -/
theorem Stuck.step {isWrite : Bool} (h : s.Stuck) (hstep : accepting.step s isWrite s') :
    s'.Stuck ∧ s'.rejected = s.rejected := by
  rcases h with hleft | ⟨arrival, retries, hstage, hretries, hnever⟩
  · cases hstep with
    | accept _ _ _ haccept => cases (accept_eq haccept).1.symm.trans hleft
    | write hwrite =>
        obtain ⟨_, _, hrefusing, -⟩ := write_cases hwrite
        cases hrefusing.symm.trans hleft
    | handOver hhandOver => cases (handOver_eq hhandOver).1.symm.trans hleft
    | pool => exact ⟨.inl hleft, rfl⟩
  · cases hstep with
    | accept _ _ _ haccept => cases (accept_eq haccept).1.symm.trans hstage
    | handOver hhandOver => cases (handOver_eq hhandOver).1.symm.trans hstage
    | pool => exact ⟨.inr ⟨arrival, retries, hstage, hretries, hnever⟩, rfl⟩
    | write hwrite =>
        obtain ⟨other, _, hrefusing, hresult⟩ := write_cases hwrite
        cases hrefusing.symm.trans hstage
        rcases hresult with ⟨hwritten, -⟩ | ⟨hretry, rfl⟩ | ⟨-, rfl⟩
        · exact absurd ⟨retries, hwritten, hretries⟩ hnever
        · refine ⟨.inr ⟨arrival, retries + 1, rfl, fun m hm => ?_, hnever⟩, rfl⟩
          rcases Nat.eq_or_lt_of_le (Nat.le_of_lt_succ hm) with rfl | hlt
          · exact hretry
          · exact hretries m hlt
        · exact ⟨.inl rfl, rfl⟩

theorem Stuck.path {writes : List Bool} (h : s.Stuck)
    (hpath : accepting.Path LabelledSystem.anyStep s writes s') : s'.rejected = s.rejected := by
  induction hpath with
  | nil _ => rfl
  | cons _ hstep _ ih =>
      obtain ⟨hmid, hsame⟩ := h.step hstep
      exact (ih hmid).trans hsame

end Accepting

/-! ## The loop and its pool -/

/-- The accept loop and its pool. -/
structure Admission extends Accepting where
  pool : ThreadPool ConnId

inductive AdmissionStep where
  | accept (arrival : Arrival)
  /-- A write of the NAK. -/
  | write
  /-- `detach_task`. -/
  | handOver
  | pool (e : ThreadPool.Event ConnId)

def AdmissionStep.isWrite : AdmissionStep → Bool
  | .write => true
  | _ => false

namespace Admission

def start (threadCount : Nat) : Admission := ⟨.start, .create threadCount⟩

def exec (s : Admission) : AdmissionStep → Option Admission
  | .accept arrival =>
    (s.accept arrival (s.pool.unfinished ≥ s.pool.threadCount) (tooManyConnections s.pool)).map
      fun loop => ⟨loop, s.pool⟩
  | .write => s.write.map fun loop => ⟨loop, s.pool⟩
  | .handOver => s.handOver.map fun next => ⟨next.2, s.pool.detachTask next.1⟩
  | .pool e => (s.pool.move e).map fun pool => { s with pool }

/-- A connection comes while the pool is not full, or while the counter shows that it is, and
then it takes the NAK. -/
def Settled (s : Admission) : AdmissionStep → Prop
  | .accept arrival => s.pool.unfinished < s.pool.threadCount ∨
    (s.pool.threadCount ≤ s.pool.tasksRunning ∧ arrival.TakesNak)
  | _ => True

end Admission

/-- The server's `main`, with the number of clients from its configuration. -/
def admission (maxClients hardwareConcurrency : Nat) : LabelledSystem Admission AdmissionStep where
  init s := s = .start (determineThreadCount maxClients hardwareConcurrency)
  step s l s' := s.exec l = some s'

/-- The loop's part in a step. -/
theorem Admission.accepting_step {s s' : Admission} {l : AdmissionStep}
    (hexec : s.exec l = some s') :
    accepting.step s.toAccepting l.isWrite s'.toAccepting := by
  cases l with
  | accept arrival =>
      obtain ⟨loop, haccept, rfl⟩ := Option.map_eq_some_iff.mp hexec
      exact .accept arrival _ _ haccept
  | write =>
      obtain ⟨loop, hwrite, rfl⟩ := Option.map_eq_some_iff.mp hexec
      exact .write hwrite
  | handOver =>
      obtain ⟨⟨client, loop⟩, hhandOver, rfl⟩ := Option.map_eq_some_iff.mp hexec
      exact .handOver hhandOver
  | pool e =>
      obtain ⟨pool, -, rfl⟩ := Option.map_eq_some_iff.mp hexec
      exact .pool _

/-- What the accept loop keeps while the condition holds. -/
structure Admission.Limited (s : Admission) : Prop where
  counted : s.pool.Counted
  unfinished : s.pool.unfinished ≤ s.pool.threadCount
  admitted : ∀ client, s.stage = .admitting client → s.pool.unfinished < s.pool.threadCount
  answering : s.toAccepting.Answering

theorem Admission.limited_start (threadCount : Nat) : (start threadCount).Limited :=
  ⟨ThreadPool.counted_create _, Nat.zero_le _, (fun _ h => by cases h), .inl .slnil⟩

theorem Admission.Limited.accept {s s' : Admission} (h : s.Limited) {arrival : Arrival}
    (hsettled : s.Settled (.accept arrival)) (hexec : s.exec (.accept arrival) = some s') :
    s'.Limited ∧ s'.pool = s.pool := by
  obtain ⟨loop, haccept, rfl⟩ := Option.map_eq_some_iff.mp hexec
  have htakes : s.pool.threadCount ≤ s.pool.unfinished →
      tooManyConnections s.pool = true ∧ arrival.TakesNak := fun hfull =>
    (hsettled.resolve_left (Nat.not_lt_of_le hfull)).imp_left decide_eq_true
  refine ⟨⟨h.counted, h.unfinished, fun client hstage => ?_,
    h.answering.accept (fun hfull => htakes (of_decide_eq_true hfull)) haccept⟩, rfl⟩
  -- who is let in has found the counter, and so the pool, not full
  refine Nat.lt_of_not_le fun hfull => ?_
  obtain ⟨hmany, hconnected, -⟩ := htakes hfull
  obtain ⟨-, -, -, hloop⟩ := Accepting.accept_eq haccept
  rw [if_pos hmany, if_pos hconnected] at hloop
  cases hloop.symm.trans hstage

theorem Admission.Limited.exec {s s' : Admission} (h : s.Limited) {l : AdmissionStep}
    (hsettled : s.Settled l) (hexec : s.exec l = some s') :
    s'.Limited ∧ s'.pool.threadCount = s.pool.threadCount := by
  cases l with
  | accept arrival =>
      obtain ⟨hlimited, hpool⟩ := h.accept hsettled hexec
      exact ⟨hlimited, by rw [hpool]⟩
  | write =>
      obtain ⟨loop, hwrite, rfl⟩ := Option.map_eq_some_iff.mp hexec
      refine ⟨⟨h.counted, h.unfinished, fun client hstage => ?_, h.answering.write hwrite⟩, rfl⟩
      obtain ⟨arrival, retries, -, ⟨-, rfl⟩ | ⟨-, rfl⟩ | ⟨-, rfl⟩⟩ :=
        Accepting.write_cases hwrite <;> cases hstage
  | handOver =>
      obtain ⟨⟨client, loop⟩, hhandOver, rfl⟩ := Option.map_eq_some_iff.mp hexec
      have hanswering := h.answering.handOver hhandOver
      obtain ⟨hadmitting, rfl⟩ := Accepting.handOver_eq hhandOver
      refine ⟨⟨h.counted.detachTask client, ?_, (fun _ hstage => by cases hstage), hanswering⟩,
        rfl⟩
      rw [ThreadPool.unfinished_detachTask]
      exact h.admitted client hadmitting
  | pool e =>
      obtain ⟨pool, hmove, rfl⟩ := Option.map_eq_some_iff.mp hexec
      obtain ⟨hcounted, hthreads, hle, -⟩ := h.counted.move hmove
      refine ⟨⟨hcounted, ?_, fun client hstage => ?_, h.answering⟩, hthreads⟩
      · have := h.unfinished
        simp only
        omega
      · have := h.admitted client hstage
        simp only
        omega

variable {maxClients hardwareConcurrency : Nat}

theorem limited_reachable {s : Admission}
    (h : (admission maxClients hardwareConcurrency).Reachable Admission.Settled s) :
    s.Limited ∧ s.pool.threadCount = determineThreadCount maxClients hardwareConcurrency := by
  refine h.invariant ?_ ?_
  · rintro s rfl
    exact ⟨Admission.limited_start _, rfl⟩
  · rintro s l s' - ⟨hs, hthreads⟩ hsettled hstep
    exact (hs.exec hsettled hstep).imp id fun hsame => hsame.trans hthreads

/-- **The admission limit**, in every run in which no connection is accepted while the
pool is full, unless its counter shows it and the connection takes the NAK.  Every
connection over the limit is rejected, the last one after so many writes of its NAK. -/
theorem admission_limit {s : Admission}
    (h : (admission maxClients hardwareConcurrency).Reachable Admission.Settled s) :
    s.pool.threadCount = determineThreadCount maxClients hardwareConcurrency ∧
    s.pool.unfinished ≤ s.pool.threadCount ∧
    ∃ n, (0 < n → (s.exec .write).isSome = true) ∧ ∀ ls s',
      (admission maxClients hardwareConcurrency).Path LabelledSystem.anyStep s ls s' →
        n ≤ ls.countP AdmissionStep.isWrite → s.crowded.Sublist s'.rejected := by
  obtain ⟨hlimited, hthreads⟩ := limited_reachable h
  obtain ⟨n, hwrite, hrejects⟩ := hlimited.answering.rejects
  refine ⟨hthreads, hlimited.unfinished, n, fun hpos => Option.isSome_map.trans (hwrite hpos),
    fun ls s' hpath hcount => ?_⟩
  have hloop := hpath.map Admission.toAccepting AdmissionStep.isWrite
    fun _ _ _ => Admission.accepting_step
  refine hrejects _ _ hloop ?_
  rwa [List.countP_map, Function.id_comp]

/-- **Every step that does not meet the condition breaks the limit**: the connection is about
to be handed to a full pool, or it is over the limit and nothing is rejected any more. -/
theorem unlimited_of_not_settled {s s' : Admission} {arrival : Arrival}
    (hunsettled : ¬ s.Settled (.accept arrival)) (hexec : s.exec (.accept arrival) = some s') :
    arrival.client ∈ s'.crowded ∧
      ((s'.stage = .admitting arrival.client ∧ s'.pool.threadCount ≤ s'.pool.unfinished) ∨
        ∀ ls s'', (admission maxClients hardwareConcurrency).Path LabelledSystem.anyStep s' ls s'' →
          s''.rejected = s.rejected) := by
  obtain ⟨hfull, hshown⟩ := not_or.mp hunsettled
  have hfull := Nat.le_of_not_lt hfull
  obtain ⟨loop, haccept, rfl⟩ := Option.map_eq_some_iff.mp hexec
  obtain ⟨-, hrejected, hcrowded, hstage⟩ := Accepting.accept_eq haccept
  refine ⟨?_, ?_⟩
  · show arrival.client ∈ loop.crowded
    rw [hcrowded, if_pos (decide_eq_true hfull)]
    exact List.mem_append_right _ (List.mem_singleton_self _)
  by_cases hmany : tooManyConnections s.pool = true
  · right
    intro ls s'' hpath
    have hstuck := Accepting.stuck_of_accept haccept hmany fun htakes =>
      hshown ⟨of_decide_eq_true hmany, htakes⟩
    have hloop := hpath.map Admission.toAccepting AdmissionStep.isWrite
      fun _ _ _ => Admission.accepting_step
    exact (hstuck.path hloop).trans hrejected
  · left
    rw [if_neg hmany] at hstage
    exact ⟨hstage, hfull⟩

/-- A peer that takes the NAK at the second write. -/
def patientPeer (client : ConnId) : Arrival :=
  ⟨client, .accepted, fun n => if n = 0 then .retry else .written⟩

theorem takesNak_patientPeer (client : ConnId) : (patientPeer client).TakesNak :=
  ⟨rfl, 1, rfl, fun m hm => by
    obtain rfl := Nat.lt_one_iff.mp hm
    rfl⟩

/-- One client, and the next one is turned away. -/
theorem admission_limit_one : ∃ s : Admission, s.pool.running = [1] ∧ s.crowded = [2] ∧
    s.rejected = [] ∧ ∃ n, ∀ ls s',
      (admission 1 8).Path LabelledSystem.anyStep s ls s' →
        n ≤ ls.countP AdmissionStep.isWrite → [2].Sublist s'.rejected := by
  have hstart : (admission 1 8).Reachable Admission.Settled (.start 1) := .init rfl
  have h1 := hstart.step (AdmissionStep.pool .enter) trivial rfl
  have h2 := h1.step (AdmissionStep.accept (patientPeer 1)) (.inl (by decide)) rfl
  have h3 := h2.step AdmissionStep.handOver trivial rfl
  have h4 := h3.step (AdmissionStep.pool .pickUp) trivial rfl
  have h5 := h4.step (AdmissionStep.accept (patientPeer 2))
    (.inr ⟨by decide, takesNak_patientPeer 2⟩) rfl
  obtain ⟨-, -, n, -, hrejects⟩ := admission_limit h5
  exact ⟨_, rfl, rfl, rfl, n, hrejects⟩

/-- The second client is accepted before a thread has picked up the first. -/
theorem admission_exceeded : ∃ s : Admission,
    (admission 1 8).Reachable LabelledSystem.anyStep s ∧ s.pool.threadCount = 1 ∧
      s.pool.unfinished = 2 ∧ s.crowded = [2] ∧ s.pool.tasks = [1, 2] ∧ s.rejected = [] := by
  obtain ⟨s, hs, htest⟩ := (admission 1 8).exists_of_execute LabelledSystem.anyStep
    (fun _ _ _ h => h) rfl
    [.pool .enter, .accept (patientPeer 1), .handOver, .accept (patientPeer 2), .handOver]
    (fun s => s.pool.threadCount = 1 ∧ s.pool.unfinished = 2 ∧ s.crowded = [2] ∧
      s.pool.tasks = [1, 2] ∧ s.rejected = []) (by decide +kernel)
  exact ⟨s, hs, of_decide_eq_true htest⟩

end Tavernmx.Server
