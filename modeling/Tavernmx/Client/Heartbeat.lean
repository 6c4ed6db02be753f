/-
# `Tavernmx.Client.Heartbeat` — when the client's worker asks, and when it gives up

One iteration of the loop of `server_message_worker`, with every way out of it.
The clock is read after a block, for the check, and once more when the check has
found the server quiet, and any time may pass between two readings:

    last block        more than QUIET_TIMEOUT        HEARTBEAT
    HEARTBEAT         more than QUIET_TIMEOUT        the loop is left

The second timeout is counted from a reading that was made after the HEARTBEAT was
decided on, and so after the first had passed; a block takes both back.  `record`
notes the blocks and the HEARTBEATs as they come, and `heartbeat_timely` is about
the records of all runs.
-/
import Tavernmx.Client.MessageWorker
import Tavernmx.Lib.Fallible
import Tavernmx.Lib.Runs

namespace Tavernmx.Client

open Messaging

/-! ## The loop -/

/-- A block that was received, and a HEARTBEAT that was sent, with the reading for it. -/
inductive ClockEvent where
  | received (now : Int)
  | heartbeat (now : Int)
  deriving DecidableEq, Repr

/-- The ways out of the loop. -/
inductive LoopExit where
  | disconnected
  | shutdownRequested
  | unanswered (now : Int)
  /-- An exception, which the worker catches, or an assertion. -/
  | faulted (fault : Fault)
  deriving DecidableEq, Repr

/-- The variables of the worker, what it put into `messages_in` and what it sent. -/
structure MessageWorker where
  timer : QuietTimer
  waitingOnServer : Bool
  messagesIn : List Message
  sent : List Message
  record : List ClockEvent

/-- What one iteration is given from outside.  For a reading that is not made, the one before
it can be given. -/
structure Iteration where
  connected : Bool
  shutdownRequested : Bool
  /-- What `receive_message` returns. -/
  received : Exec (Option MessageBlock)
  receivedAt : Int
  checkedAt : Int
  checkedAgainAt : Int
  /-- What is popped from `messages_out`. -/
  messagesOut : List Message
  /-- How `send_messages` ends. -/
  sending : Exec Unit

/-- The readings follow one another, and the clock. -/
structure Iteration.InOrder (i : Iteration) (clock : Int) : Prop where
  received : clock ≤ i.receivedAt
  checked : i.receivedAt ≤ i.checkedAt
  checkedAgain : i.checkedAt ≤ i.checkedAgainAt

namespace MessageWorker

/-- Before the loop, when the request for the rooms was sent. -/
def start (now : Int) (waitingOnServer : Bool) (messagesIn : List Message) : MessageWorker :=
  ⟨.heard now, waitingOnServer, messagesIn, [createRoomListRequest], []⟩

/-- Step 1: the worker, and what it replies. -/
def receive (codec : MsgPack) (i : Iteration) (w : MessageWorker) :
    Exec (MessageWorker × List Message) := do
  match ← i.received with
  | some block => do
      let received ← receiveBlock codec block
      pure ({ w with
        timer := .heard i.receivedAt
        waitingOnServer := false
        messagesIn := w.messagesIn ++ received.messagesIn
        record := w.record ++ [.received i.receivedAt] }, received.sendMessages)
  | none => pure (w, [])

/-- What the check of step 2 leaves; `heartbeats` is empty, or the one it sends. -/
def checked (timer : QuietTimer) (heartbeats : List Message) (i : Iteration) (w : MessageWorker) :
    MessageWorker :=
  { w with
    timer
    waitingOnServer := w.waitingOnServer || !heartbeats.isEmpty
    record := w.record ++ heartbeats.map fun _ => .heartbeat i.checkedAt }

/-- One iteration, and the way out if it is the last. -/
def iterate (codec : MsgPack) (i : Iteration) (w : MessageWorker) :
    MessageWorker × Option LoopExit :=
  if !i.connected then (w, some .disconnected)
  else if i.shutdownRequested then (w, some .shutdownRequested)
  else match w.receive codec i with
    | .error fault => (w, some (.faulted fault))
    | .ok (w, replies) =>
      match w.timer.check i.checkedAt i.checkedAgainAt with
      | none => (w, some (.unanswered i.checkedAgainAt))
      | some (timer, heartbeats) =>
        let w := w.checked timer heartbeats i
        match i.sending with
        | .error fault => (w, some (.faulted fault))
        | .ok () => ({ w with sent := w.sent ++ replies ++ heartbeats ++ i.messagesOut }, none)

variable {codec : MsgPack} {i : Iteration} {w w' : MessageWorker} {replies : List Message}

/-- The ways in which step 1 can go. -/
inductive Received (i : Iteration) (w : MessageWorker) : MessageWorker → Prop where
  | nothing : Received i w w
  | block (messagesIn : List Message) : Received i w
      { w with
        timer := .heard i.receivedAt
        waitingOnServer := false
        messagesIn := w.messagesIn ++ messagesIn
        record := w.record ++ [.received i.receivedAt] }

theorem receive_cases (h : w.receive codec i = .ok (w', replies)) : Received i w w' := by
  rw [receive] at h
  obtain ⟨block, -, h⟩ := Fallible.bind_ok.mp h
  cases block with
  | none =>
      cases h
      exact .nothing
  | some block =>
      obtain ⟨received, -, h⟩ := Fallible.bind_ok.mp h
      cases h
      exact .block received.messagesIn

/-- The ways in which an iteration can go. -/
inductive Iterated (codec : MsgPack) (i : Iteration) (w : MessageWorker) :
    MessageWorker × Option LoopExit → Prop where
  /-- Before anything was received. -/
  | leaves {exit : LoopExit} (hother : ∀ now, exit ≠ .unanswered now) :
      Iterated codec i w (w, some exit)
  | givesUp {w' : MessageWorker} {replies : List Message}
      (hreceive : w.receive codec i = .ok (w', replies))
      (hcheck : w'.timer.check i.checkedAt i.checkedAgainAt = none) :
      Iterated codec i w (w', some (.unanswered i.checkedAgainAt))
  | fails {w' : MessageWorker} {replies heartbeats : List Message} {timer : QuietTimer}
      (fault : Fault) (hreceive : w.receive codec i = .ok (w', replies))
      (hcheck : w'.timer.check i.checkedAt i.checkedAgainAt = some (timer, heartbeats)) :
      Iterated codec i w (w'.checked timer heartbeats i, some (.faulted fault))
  | goesOn {w' : MessageWorker} {replies heartbeats : List Message} {timer : QuietTimer}
      (sent : List Message) (hreceive : w.receive codec i = .ok (w', replies))
      (hcheck : w'.timer.check i.checkedAt i.checkedAgainAt = some (timer, heartbeats)) :
      Iterated codec i w ({ w'.checked timer heartbeats i with sent }, none)

theorem iterate_cases (codec : MsgPack) (i : Iteration) (w : MessageWorker) :
    Iterated codec i w (w.iterate codec i) := by
  rw [iterate]
  split
  · exact .leaves fun now hbad => by cases hbad
  split
  · exact .leaves fun now hbad => by cases hbad
  cases hreceive : w.receive codec i with
  | error fault => exact .leaves fun now hbad => by cases hbad
  | ok result =>
      obtain ⟨w', replies⟩ := result
      cases hcheck : w'.timer.check i.checkedAt i.checkedAgainAt with
      | none =>
          simp only [hcheck]
          exact .givesUp hreceive hcheck
      | some result =>
          obtain ⟨timer, heartbeats⟩ := result
          simp only [hcheck]
          cases i.sending with
          | error fault => exact .fails fault hreceive hcheck
          | ok _ => exact .goesOn _ hreceive hcheck

end MessageWorker

/-! ## The record -/

/-- The reading for the last block, or the one before the loop. -/
def lastHeard (started : Int) (record : List ClockEvent) : Int :=
  record.foldl (fun last event => match event with
    | .received now => now
    | .heartbeat _ => last) started

/-- How many HEARTBEATs followed the last block. -/
def openHeartbeats (record : List ClockEvent) : Nat :=
  record.foldl (fun n event => match event with
    | .received _ => 0
    | .heartbeat _ => n + 1) 0

def ClockEvent.isHeartbeat : ClockEvent → Bool
  | .heartbeat _ => true
  | .received _ => false

/-- Every HEARTBEAT is late enough, and is not the second. -/
def Timely (started : Int) (record : List ClockEvent) : Prop :=
  ∀ earlier now later, record = earlier ++ .heartbeat now :: later →
    quietTimeout < now - lastHeard started earlier ∧ openHeartbeats earlier = 0

variable {started clock now : Int} {record : List ClockEvent} {event : ClockEvent}

@[simp] theorem lastHeard_received :
    lastHeard started (record ++ [.received now]) = now := by
  rw [lastHeard, List.foldl_append]
  rfl

@[simp] theorem lastHeard_heartbeat :
    lastHeard started (record ++ [.heartbeat now]) = lastHeard started record := by
  rw [lastHeard, List.foldl_append]
  rfl

@[simp] theorem openHeartbeats_received : openHeartbeats (record ++ [.received now]) = 0 := by
  rw [openHeartbeats, List.foldl_append]
  rfl

@[simp] theorem openHeartbeats_heartbeat :
    openHeartbeats (record ++ [.heartbeat now]) = openHeartbeats record + 1 := by
  rw [openHeartbeats, List.foldl_append]
  rfl

theorem Timely.append (h : Timely started record)
    (hevent : ∀ now, event = .heartbeat now →
      quietTimeout < now - lastHeard started record ∧ openHeartbeats record = 0) :
    Timely started (record ++ [event]) := by
  intro earlier now later hsplit
  rcases List.eq_nil_or_concat later with rfl | ⟨rest, last, rfl⟩
  · obtain ⟨rfl, hlast⟩ := List.append_inj' hsplit rfl
    exact hevent now (List.cons.inj hlast).1
  · have hsplit' : record ++ [event] = (earlier ++ .heartbeat now :: rest) ++ [last] := by
      rw [hsplit]
      simp
    obtain ⟨hrecord, -⟩ := List.append_inj' hsplit' rfl
    exact h earlier now rest hrecord

/-- Between two blocks there is one HEARTBEAT at most. -/
theorem Timely.countP_le_one (h : Timely started record) {earlier between later : List ClockEvent}
    (hsplit : record = earlier ++ between ++ later) (hnone : ∀ now, .received now ∉ between) :
    between.countP ClockEvent.isHeartbeat ≤ 1 := by
  match between with
  | [] => exact Nat.zero_le 1
  | [event] => exact List.countP_le_length
  | .received now :: _ => exact absurd List.mem_cons_self (hnone now)
  | _ :: .received now :: _ =>
      exact absurd (List.mem_cons_of_mem _ List.mem_cons_self) (hnone now)
  | .heartbeat now :: .heartbeat now' :: rest =>
      -- the second finds the first
      have hsplit' : record
          = (earlier ++ [.heartbeat now]) ++ .heartbeat now' :: (rest ++ later) := by
        rw [hsplit]
        simp
      have hsecond := (h _ now' _ hsplit').2
      rw [openHeartbeats_heartbeat] at hsecond
      exact absurd hsecond (Nat.succ_ne_zero _)

/-! ## The timer and the record -/

/-- What the two variables say of the record, at a reading of the clock. -/
structure MessageWorker.InTime (w : MessageWorker) (started clock : Int) : Prop where
  heard : w.timer.lastMessageReceived = lastHeard started w.record
  past : lastHeard started w.record ≤ clock
  asked : openHeartbeats w.record = if w.timer.heartbeatSent.isSome then 1 else 0
  late : ∀ sent, w.timer.heartbeatSent = some sent →
    quietTimeout < sent - lastHeard started w.record
  timely : Timely started w.record

variable {codec : MsgPack} {i : Iteration} {w w' : MessageWorker} {replies : List Message}

theorem MessageWorker.inTime_start (now : Int) (waitingOnServer : Bool)
    (messagesIn : List Message) : (start now waitingOnServer messagesIn).InTime now now where
  heard := rfl
  past := le_refl now
  asked := rfl
  late _ h := by cases h
  timely earlier now later h := by simp [start] at h

/-- Step 1 takes the HEARTBEAT back, or leaves everything as it is. -/
theorem MessageWorker.InTime.receive (h : w.InTime started clock)
    (hreceive : w.receive codec i = .ok (w', replies)) (horder : clock ≤ i.receivedAt) :
    w'.InTime started i.receivedAt := by
  cases MessageWorker.receive_cases hreceive with
  | nothing => exact ⟨h.heard, le_trans h.past horder, h.asked, h.late, h.timely⟩
  | block messagesIn =>
      exact ⟨lastHeard_received.symm, le_of_eq lastHeard_received, openHeartbeats_received,
        (fun sent hsent => by cases hsent),
        h.timely.append fun now hevent => by cases hevent⟩

/-- Step 2 sends the first HEARTBEAT, late enough, or nothing. -/
theorem MessageWorker.InTime.checked (h : w.InTime started clock) (horder : clock ≤ i.checkedAt)
    (horder' : i.checkedAt ≤ i.checkedAgainAt) {timer : QuietTimer} {heartbeats : List Message}
    (hcheck : w.timer.check i.checkedAt i.checkedAgainAt = some (timer, heartbeats)) :
    (w.checked timer heartbeats i).InTime started i.checkedAgainAt := by
  have hpast : lastHeard started w.record ≤ i.checkedAgainAt :=
    le_trans h.past (le_trans horder horder')
  have hcases := w.timer.check_cases i.checkedAt i.checkedAgainAt
  rw [hcheck] at hcases
  cases hcases with
  | waits =>
      have hrecord : (w.checked w.timer [] i).record = w.record := List.append_nil _
      exact ⟨by rw [hrecord]; exact h.heard, by rw [hrecord]; exact hpast,
        by rw [hrecord]; exact h.asked, by rw [hrecord]; exact h.late,
        by rw [hrecord]; exact h.timely⟩
  | asks hquiet hfirst =>
      rw [h.heard] at hquiet
      have hrecord : ∀ timer, (w.checked timer [createHeartbeat] i).record
          = w.record ++ [.heartbeat i.checkedAt] := fun _ => rfl
      have hnone : openHeartbeats w.record = 0 := by rw [h.asked, hfirst]; rfl
      refine ⟨?_, ?_, ?_, ?_, ?_⟩
      · rw [hrecord, lastHeard_heartbeat]
        exact h.heard
      · rw [hrecord, lastHeard_heartbeat]
        exact hpast
      · rw [hrecord, openHeartbeats_heartbeat, hnone]
        rfl
      · intro sent hsent
        rw [hrecord, lastHeard_heartbeat]
        obtain rfl : i.checkedAgainAt = sent := Option.some.inj hsent
        omega
      · rw [hrecord]
        refine h.timely.append fun now hevent => ?_
        obtain rfl : i.checkedAt = now := by cases hevent; rfl
        exact ⟨hquiet, hnone⟩

/-- The loop is left when a second timeout has passed after the first. -/
theorem MessageWorker.InTime.givesUp (h : w.InTime started clock)
    (hcheck : w.timer.check i.checkedAt i.checkedAgainAt = none) :
    2 * quietTimeout < i.checkedAgainAt - lastHeard started w.record := by
  have hcases := w.timer.check_cases i.checkedAt i.checkedAgainAt
  rw [hcheck] at hcases
  cases hcases with
  | givesUp hsent hlong =>
      have hlate := h.late _ hsent
      omega

/-! ## Runs -/

/-- The worker, the way it left the loop if it did, the reading before the loop, and the last
reading. -/
structure LoopState where
  worker : MessageWorker
  exit : Option LoopExit
  started : Int
  clock : Int

/-- The loop, with readings that never go back. -/
def messageLoop (codec : MsgPack) : LabelledSystem LoopState Iteration where
  init s := ∃ (now : Int) (waitingOnServer : Bool) (messagesIn : List Message),
    s = ⟨.start now waitingOnServer messagesIn, none, now, now⟩
  step s i s' := s.exit = none ∧ i.InOrder s.clock ∧
    s' = ⟨(s.worker.iterate codec i).1, (s.worker.iterate codec i).2, s.started, i.checkedAgainAt⟩

/-- What holds of a worker that goes on, and of one that has left. -/
structure LoopState.Sound (s : LoopState) : Prop where
  inTime : s.exit = none → s.worker.InTime s.started s.clock
  timely : Timely s.started s.worker.record
  unanswered : ∀ now, s.exit = some (.unanswered now) →
    2 * quietTimeout < now - lastHeard s.started s.worker.record

/-- One iteration. -/
theorem MessageWorker.InTime.iterate (h : w.InTime started clock) (horder : i.InOrder clock) :
    LoopState.Sound
      ⟨(w.iterate codec i).1, (w.iterate codec i).2, started, i.checkedAgainAt⟩ := by
  cases hcases : w.iterate codec i with
  | mk after exit =>
    have hiterated := w.iterate_cases codec i
    rw [hcases] at hiterated
    cases hiterated with
    | leaves hother =>
        exact ⟨(fun hnone => by cases hnone), h.timely,
          fun now hexit => absurd (Option.some.inj hexit) (hother now)⟩
    | givesUp hreceive hcheck =>
        have hreceived := h.receive hreceive horder.received
        refine ⟨(fun hnone => by cases hnone), hreceived.timely, fun now hexit => ?_⟩
        cases hexit
        exact hreceived.givesUp hcheck
    | fails fault hreceive hcheck =>
        have hchecked := (h.receive hreceive horder.received).checked horder.checked
          horder.checkedAgain hcheck
        exact ⟨(fun hnone => by cases hnone), hchecked.timely, fun now hexit => by cases hexit⟩
    | goesOn sent hreceive hcheck =>
        have hchecked := (h.receive hreceive horder.received).checked horder.checked
          horder.checkedAgain hcheck
        exact ⟨fun _ => ⟨hchecked.heard, hchecked.past, hchecked.asked, hchecked.late,
          hchecked.timely⟩, hchecked.timely, fun now hexit => by cases hexit⟩

/-- **The worker gives up more than two timeouts after it last heard of the server**; it sends
one HEARTBEAT at most between two blocks, and that more than one timeout after the first. -/
theorem heartbeat_timely {s : LoopState}
    (h : (messageLoop codec).Reachable LabelledSystem.anyStep s) :
    (∀ now, s.exit = some (.unanswered now) →
      2 * quietTimeout < now - lastHeard s.started s.worker.record) ∧
    (∀ earlier between later, s.worker.record = earlier ++ between ++ later →
      (∀ now, .received now ∉ between) → between.countP ClockEvent.isHeartbeat ≤ 1) ∧
    ∀ earlier now later, s.worker.record = earlier ++ .heartbeat now :: later →
      quietTimeout < now - lastHeard s.started earlier := by
  have hsound : s.Sound := by
    refine h.invariant ?_ ?_
    · rintro s ⟨now, waitingOnServer, messagesIn, rfl⟩
      have hstart := MessageWorker.inTime_start now waitingOnServer messagesIn
      exact ⟨fun _ => hstart, hstart.timely, fun now hexit => by cases hexit⟩
    · rintro s i s' - hs - ⟨hexit, horder, rfl⟩
      exact (hs.inTime hexit).iterate horder
  exact ⟨hsound.unanswered, fun earlier between later => hsound.timely.countP_le_one,
    fun earlier now later hsplit => (hsound.timely earlier now later hsplit).1⟩

/-- The iteration at a reading of so many seconds, with what `receive_message` returns. -/
def iterationAt (seconds : Int) (received : Option MessageBlock) : Iteration :=
  let now := seconds * 1000000000
  ⟨true, false, .ok received, now, now, now, [], .ok ()⟩

def execLoop (codec : MsgPack) (s : LoopState) (i : Iteration) : Option LoopState :=
  if s.exit = none ∧ s.clock ≤ i.receivedAt ∧ i.receivedAt ≤ i.checkedAt ∧
      i.checkedAt ≤ i.checkedAgainAt then
    some ⟨(s.worker.iterate codec i).1, (s.worker.iterate codec i).2, s.started, i.checkedAgainAt⟩
  else none

theorem step_of_execLoop {s s' : LoopState} (h : execLoop codec s i = some s') :
    (messageLoop codec).step s i s' := by
  rw [execLoop, Option.ite_none_right_eq_some] at h
  obtain ⟨⟨hexit, hreceived, hchecked, hagain⟩, h⟩ := h
  exact ⟨hexit, ⟨hreceived, hchecked, hagain⟩, (Option.some.inj h).symm⟩

/-- A block after five seconds, and then nothing: a HEARTBEAT after 36, and the end after 67. -/
theorem heartbeat_timely_unanswered : ∃ s : LoopState,
    s.exit = some (.unanswered 67000000000) ∧
    s.worker.record = [.received 5000000000, .heartbeat 36000000000] ∧
    2 * quietTimeout < 67000000000 - lastHeard s.started s.worker.record := by
  obtain ⟨s, hs, htest⟩ := (messageLoop ⟨fun _ => [], fun _ => .ok .null⟩).exists_of_execute
    LabelledSystem.anyStep (fun _ _ _ => step_of_execLoop) ⟨0, false, [], rfl⟩
    [iterationAt 5 (some .new), iterationAt 36 none, iterationAt 67 none]
    (fun s => s.exit = some (.unanswered 67000000000) ∧
      s.worker.record = [.received 5000000000, .heartbeat 36000000000])
    (by decide +kernel)
  obtain ⟨hexit, hrecord⟩ := of_decide_eq_true htest
  exact ⟨s, hexit, hrecord, (heartbeat_timely hs).1 _ hexit⟩

end Tavernmx.Client
