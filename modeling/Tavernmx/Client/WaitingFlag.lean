/-
# `Tavernmx.Client.WaitingFlag` — `waiting_on_server` from one session to the next

`server_message_worker` keeps its HEARTBEAT in a variable of its own, and tells the
chat window of it through `waiting_on_server`, which is one variable for the whole
process.  Within a session the two go together: the check of step 2 sets both, a
block resets both.

A session can end while its HEARTBEAT is not answered, and all four ways out of the
loop leave the flag as it is.  The next session then starts with a flag that is up
and without a HEARTBEAT.  This is the only way in which the two can part
(`waitingFlag_truthful`): a session that ends after it has heard from the server
again, or before it asked, leaves the flag down.
-/
import Tavernmx.Client.Heartbeat

namespace Tavernmx.Client

open Messaging

/-! ## Sessions -/

/-- A session's worker, and the way it left its loop, if it did. -/
structure ClientSession where
  worker : MessageWorker
  exit : Option LoopExit

/-- What a new session is given: the first reading, and how the request for the rooms ends. -/
structure Opening where
  now : Int
  messagesIn : List Message
  greeting : Exec Unit

/-- The worker before its loop.  It does not touch the flag. -/
def Opening.start (opening : Opening) (waitingOnServer : Bool) : ClientSession :=
  let worker := MessageWorker.start opening.now waitingOnServer opening.messagesIn
  match opening.greeting with
  | .ok () => ⟨worker, none⟩
  | .error fault => ⟨{ worker with sent := [] }, some (.faulted fault)⟩

inductive SessionEvent where
  | reconnect (opening : Opening)
  | iterate (i : Iteration)

/-- The worker has returned.  A failed assertion ends the process instead. -/
def LoopExit.returns (exit : LoopExit) : Prop := exit ≠ .faulted .assertion

instance (exit : LoopExit) : Decidable exit.returns := inferInstanceAs (Decidable (_ ≠ _))

/-- One session after the other; the flag is down when the process starts. -/
def consecutiveSessions (codec : MsgPack) : LabelledSystem ClientSession SessionEvent where
  init s := ∃ opening : Opening, s = opening.start false
  step s e s' := match e with
    | .reconnect opening =>
        s.exit.any (fun exit => exit.returns) = true ∧ s' = opening.start s.worker.waitingOnServer
    | .iterate i =>
        s.exit = none ∧ s' = ⟨(s.worker.iterate codec i).1, (s.worker.iterate codec i).2⟩

/-- A session starts after one without an open HEARTBEAT. -/
def ClientSession.Answered (s : ClientSession) : SessionEvent → Prop
  | .reconnect _ => openHeartbeats s.worker.record = 0
  | .iterate _ => True

instance (s : ClientSession) : (e : SessionEvent) → Decidable (s.Answered e)
  | .reconnect _ => inferInstanceAs (Decidable (_ = _))
  | .iterate _ => .isTrue trivial

/-! ## The flag -/

namespace MessageWorker

/-- The flag is up when a HEARTBEAT was sent, and none was answered since. -/
structure Truthful (w : MessageWorker) : Prop where
  flag : w.waitingOnServer = w.timer.heartbeatSent.isSome
  asked : w.waitingOnServer = true ↔ 0 < openHeartbeats w.record

/-- The worker's own variable and its record. -/
def Counted (w : MessageWorker) : Prop :=
  openHeartbeats w.record = if w.timer.heartbeatSent.isSome then 1 else 0

variable {codec : MsgPack} {i : Iteration} {w w' : MessageWorker}

theorem truthful_iff (h : w.Counted) :
    w.Truthful ↔ w.waitingOnServer = w.timer.heartbeatSent.isSome := by
  refine ⟨Truthful.flag, fun hflag => ⟨hflag, ?_⟩⟩
  rw [hflag, h]
  cases w.timer.heartbeatSent.isSome with
  | true => exact iff_of_true rfl Nat.one_pos
  | false => exact iff_of_false Bool.false_ne_true (Nat.lt_irrefl 0)

/-- Step 1 resets both, or neither. -/
theorem flag_received (h : Received i w w') (hcounted : w.Counted)
    (hflag : w.waitingOnServer = w.timer.heartbeatSent.isSome) :
    w'.Counted ∧ w'.waitingOnServer = w'.timer.heartbeatSent.isSome := by
  cases h with
  | nothing => exact ⟨hcounted, hflag⟩
  | block messagesIn => exact ⟨openHeartbeats_received, rfl⟩

/-- Step 2 sets both, or neither. -/
theorem flag_checked {timer : QuietTimer} {heartbeats : List Message}
    (hcheck : w.timer.check i.checkedAt i.checkedAgainAt = some (timer, heartbeats))
    (hcounted : w.Counted) (hflag : w.waitingOnServer = w.timer.heartbeatSent.isSome) :
    (w.checked timer heartbeats i).Counted ∧
      (w.checked timer heartbeats i).waitingOnServer = timer.heartbeatSent.isSome := by
  have hcases := w.timer.check_cases i.checkedAt i.checkedAgainAt
  rw [hcheck] at hcases
  cases hcases with
  | waits =>
      refine ⟨?_, ?_⟩
      · rw [Counted, checked, List.map_nil, List.append_nil]
        exact hcounted
      · rw [checked, List.isEmpty_nil, Bool.not_true, Bool.or_false]
        exact hflag
  | asks hquiet hfirst =>
      have hnone : openHeartbeats w.record = 0 := by
        rw [hcounted, hfirst]
        rfl
      refine ⟨?_, Bool.or_true _⟩
      show openHeartbeats (w.record ++ [.heartbeat i.checkedAt]) = 1
      rw [openHeartbeats_heartbeat, hnone]

/-- One iteration, whichever way it goes. -/
theorem flag_iterate (codec : MsgPack) (i : Iteration) (hcounted : w.Counted)
    (hflag : w.waitingOnServer = w.timer.heartbeatSent.isSome) :
    (w.iterate codec i).1.Counted ∧
      (w.iterate codec i).1.waitingOnServer = (w.iterate codec i).1.timer.heartbeatSent.isSome := by
  cases hcases : w.iterate codec i with
  | mk after exit =>
    have hiterated := w.iterate_cases codec i
    rw [hcases] at hiterated
    cases hiterated with
    | leaves => exact ⟨hcounted, hflag⟩
    | givesUp hreceive => exact flag_received (receive_cases hreceive) hcounted hflag
    | fails fault hreceive hcheck =>
        obtain ⟨hcounted', hflag'⟩ := flag_received (receive_cases hreceive) hcounted hflag
        exact flag_checked hcheck hcounted' hflag'
    | goesOn sent hreceive hcheck =>
        obtain ⟨hcounted', hflag'⟩ := flag_received (receive_cases hreceive) hcounted hflag
        exact flag_checked hcheck hcounted' hflag'

end MessageWorker

/-- What a new session finds is what the flag was left at. -/
theorem Opening.start_flag (opening : Opening) (waitingOnServer : Bool) :
    (opening.start waitingOnServer).worker.Counted ∧
      (opening.start waitingOnServer).worker.waitingOnServer = waitingOnServer ∧
      (opening.start waitingOnServer).worker.timer.heartbeatSent = none := by
  rw [Opening.start]
  cases opening.greeting with
  | ok _ => exact ⟨rfl, rfl, rfl⟩
  | error fault => exact ⟨rfl, rfl, rfl⟩

variable {codec : MsgPack}

/-- A session's flag is truthful at its start if it starts with a flag that is down. -/
theorem Opening.start_truthful (opening : Opening) (waitingOnServer : Bool) :
    (opening.start waitingOnServer).worker.Truthful ↔ waitingOnServer = false := by
  obtain ⟨hcounted, hflag, hnone⟩ := opening.start_flag waitingOnServer
  rw [MessageWorker.truthful_iff hcounted, hflag, hnone]
  exact Iff.rfl

/-- One step from a truthful flag. -/
theorem step_truthful {s s' : ClientSession} {e : SessionEvent} (hcounted : s.worker.Counted)
    (htruthful : s.worker.Truthful) (hstep : (consecutiveSessions codec).step s e s') :
    s'.worker.Counted ∧ (s'.worker.Truthful ↔ s.Answered e) := by
  cases e with
  | reconnect opening =>
      obtain ⟨-, rfl⟩ := hstep
      refine ⟨(opening.start_flag _).1, ?_⟩
      rw [opening.start_truthful, Bool.eq_false_iff, ne_eq, htruthful.asked]
      exact Nat.pos_iff_ne_zero.not_left
  | iterate i =>
      obtain ⟨-, rfl⟩ := hstep
      obtain ⟨hcounted', hflag'⟩ := MessageWorker.flag_iterate codec i hcounted htruthful.flag
      have htruthful' := (MessageWorker.truthful_iff hcounted').mpr hflag'
      exact ⟨hcounted', iff_of_true htruthful' trivial⟩

/-- **The flag tells the truth, in every run in which a session starts after one without an
open HEARTBEAT**, at the start of each session and after each iteration.  A session that starts
after another one finds a flag that lies. -/
theorem waitingFlag_truthful {s : ClientSession}
    (h : (consecutiveSessions codec).Reachable ClientSession.Answered s) :
    s.worker.Truthful ∧ ∀ e s', (consecutiveSessions codec).step s e s' →
      (s'.worker.Truthful ↔ s.Answered e) := by
  have hinv : s.worker.Counted ∧ s.worker.Truthful := by
    refine h.invariant ?_ ?_
    · rintro s ⟨opening, rfl⟩
      exact ⟨(opening.start_flag false).1, (opening.start_truthful false).mpr rfl⟩
    · rintro s e s' - ⟨hcounted, htruthful⟩ hanswered hstep
      obtain ⟨hcounted', hiff⟩ := step_truthful hcounted htruthful hstep
      exact ⟨hcounted', hiff.mpr hanswered⟩
  obtain ⟨hcounted, htruthful⟩ := hinv
  refine ⟨htruthful, fun e s' hstep => ?_⟩
  exact (step_truthful hcounted htruthful hstep).2

/-! ## Runs -/

def execSession (codec : MsgPack) (s : ClientSession) : SessionEvent → Option ClientSession
  | .reconnect opening =>
    if s.exit.any fun exit => exit.returns then some (opening.start s.worker.waitingOnServer)
    else none
  | .iterate i =>
    if s.exit = none then
      some ⟨(s.worker.iterate codec i).1, (s.worker.iterate codec i).2⟩
    else none

theorem step_of_execSession {s s' : ClientSession} {e : SessionEvent}
    (h : execSession codec s e = some s') : (consecutiveSessions codec).step s e s' := by
  cases e with
  | reconnect opening =>
      obtain ⟨hexit, hs'⟩ := Option.ite_none_right_eq_some.mp h
      exact ⟨hexit, (Option.some.inj hs').symm⟩
  | iterate i =>
      obtain ⟨hexit, hs'⟩ := Option.ite_none_right_eq_some.mp h
      exact ⟨hexit, (Option.some.inj hs').symm⟩

/-- A session that starts at a reading of so many seconds. -/
def openingAt (seconds : Int) : Opening := ⟨seconds * 1000000000, [], .ok ()⟩

/-- The iteration in which the peer is found to have closed the connection. -/
def closedAt (seconds : Int) : Iteration := { iterationAt seconds none with connected := false }

/-- A HEARTBEAT that is answered, the end, and a second session. -/
theorem waitingFlag_truthful_answered : ∃ s : ClientSession,
    s.worker.timer.lastMessageReceived = 50000000000 ∧ s.worker.Truthful := by
  obtain ⟨s, hs, htest⟩ := (consecutiveSessions ⟨fun _ => [], fun _ => .ok .null⟩).exists_of_execute
    ClientSession.Answered (fun _ _ _ => step_of_execSession) ⟨openingAt 0, rfl⟩
    [.iterate (iterationAt 36 none), .iterate (iterationAt 40 (some .new)),
      .iterate (closedAt 45), .reconnect (openingAt 50)]
    (fun s => s.worker.timer.lastMessageReceived = 50000000000) (by decide +kernel)
  exact ⟨s, of_decide_eq_true htest, (waitingFlag_truthful hs).1⟩

/-- **The flag lies.**  The peer closes the connection while the HEARTBEAT is open, and the next
session starts with the flag up. -/
theorem waitingFlag_stale : ∃ s : ClientSession,
    (consecutiveSessions ⟨fun _ => [], fun _ => .ok .null⟩).Reachable LabelledSystem.anyStep s ∧
      s.worker.waitingOnServer = true ∧ s.worker.timer.heartbeatSent = none ∧
      ¬ s.worker.Truthful := by
  obtain ⟨s, hs, htest⟩ := (consecutiveSessions ⟨fun _ => [], fun _ => .ok .null⟩).exists_of_execute
    LabelledSystem.anyStep (fun _ _ _ => step_of_execSession) ⟨openingAt 0, rfl⟩
    [.iterate (iterationAt 36 none), .iterate (closedAt 45), .reconnect (openingAt 50)]
    (fun s => s.worker.waitingOnServer = true ∧ s.worker.timer.heartbeatSent = none)
    (by decide +kernel)
  obtain ⟨hup, hnone⟩ := of_decide_eq_true htest
  refine ⟨s, hs, hup, hnone, fun htruthful => ?_⟩
  have hflag := htruthful.flag
  rw [hup, hnone] at hflag
  cases hflag

end Tavernmx.Client
