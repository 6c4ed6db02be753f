/-
# `Tavernmx.Client.MessageWorker` — what only the client's worker does

`server_message_worker` is `client_worker` seen from the other end: it unpacks
and dispatches with the same `switch`, and sends its batch the same way.  Two
things are its own: before the loop it asks for the rooms, and between receiving
and sending it looks at the clock, sends a HEARTBEAT when the server has been
quiet for too long, and gives up when that was not answered.
-/
import Tavernmx.Shared.Packing

namespace Tavernmx.Client

open Messaging

/-- `QUIET_TIMEOUT`, in nanoseconds. -/
def quietTimeout : Int := 30 * 1000000000

structure QuietTimer where
  lastMessageReceived : Int
  heartbeatSent : Option Int

/-- The timer when the loop starts, and after every block. -/
def QuietTimer.heard (now : Int) : QuietTimer := ⟨now, none⟩

/-- Step 2 of the loop, at its two readings of the clock: the timer and what is
sent, or `none` when the loop is left. -/
def QuietTimer.check (timer : QuietTimer) (now now' : Int) : Option (QuietTimer × List Message) :=
  if now - timer.lastMessageReceived > quietTimeout then
    match timer.heartbeatSent with
    | none => some ({ timer with heartbeatSent := some now' }, [createHeartbeat])
    | some sent => if now' - sent > quietTimeout then none else some (timer, [])
  else some (timer, [])

/-- The ways in which the check can go. -/
inductive QuietTimer.Checked (timer : QuietTimer) (now now' : Int) :
    Option (QuietTimer × List Message) → Prop where
  | waits : Checked timer now now' (some (timer, []))
  | asks (hquiet : quietTimeout < now - timer.lastMessageReceived)
      (hfirst : timer.heartbeatSent = none) :
      Checked timer now now' (some ({ timer with heartbeatSent := some now' }, [createHeartbeat]))
  | givesUp {sent : Int} (hsent : timer.heartbeatSent = some sent)
      (hlong : quietTimeout < now' - sent) : Checked timer now now' none

theorem QuietTimer.check_cases (timer : QuietTimer) (now now' : Int) :
    timer.Checked now now' (timer.check now now') := by
  unfold QuietTimer.check
  split
  case isTrue hquiet =>
    cases hsent : timer.heartbeatSent with
    | none => exact .asks hquiet hsent
    | some sent =>
        show timer.Checked now now' (if now' - sent > quietTimeout then none else _)
        split
        case isTrue hlong => exact .givesUp hsent hlong
        case isFalse => exact .waits
  case isFalse => exact .waits

/-- The check sends nothing that the other side would queue, and no ACK. -/
theorem QuietTimer.check_sends {timer timer' : QuietTimer} {now now' : Int}
    {messages : List Message}
    (h : timer.check now now' = some (timer', messages)) :
    messages.filter (·.messageType.isQueued) = [] ∧
      messages.countP (·.messageType = .ack) = 0 := by
  have hcases := timer.check_cases now now'
  rw [h] at hcases
  cases hcases with
  | waits => exact ⟨rfl, rfl⟩
  | asks hquiet hfirst => exact ⟨rfl, rfl⟩

end Tavernmx.Client
