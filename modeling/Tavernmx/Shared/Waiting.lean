/-
# `Tavernmx.Shared.Waiting` — waiting for one message

`wait_for` and `wait_for_ack_or_nak` are one loop: receive, unpack what came, return
the first message that is wanted, and otherwise go on until the time is up.  The
clock is only looked at after a look at the connection, so there is at least one,
and what the last one finds is returned however late it is.

Everything else that was unpacked is dropped: the blocks before, and the other
messages of the block that had the one wanted.
-/
import Tavernmx.Lib.Fallible
import Tavernmx.Lib.Polling
import Tavernmx.Shared.Packing

namespace Tavernmx.Messaging

/-- `SSL_TIMEOUT_MILLISECONDS`, the default of both functions. -/
def sslTimeoutMilliseconds : Int := 3000

/-- One round of the loop: what `receive_message` returned, and the milliseconds since the
start, as they are read after it. -/
structure Look where
  received : Exec (Option MessageBlock)
  elapsed : Int

/-- What is made of a look: the first message in the block that is wanted. -/
def findWanted (codec : MsgPack) (wanted : Message → Bool)
    (received : Exec (Option MessageBlock)) : Exec (Option Message) := do
  match ← received with
  | some block => do
      let messages ← unpackMessages codec block
      pure (messages.find? wanted)
  | none => pure none

/-- A message or an exception ends the loop. -/
def decision : Exec (Option Message) → Option (Exec Message)
  | .ok none => none
  | .ok (some message) => some (.ok message)
  | .error fault => some (.error fault)

/-- `std::nullopt` when the time was up. -/
def waitResult : Option (Exec Message) → Exec (Option Message)
  | some result => result.map some
  | none => .ok none

/-- The loop; `none` while it has not returned. -/
def waitUntil (codec : MsgPack) (wanted : Message → Bool) (milliseconds : Int)
    (looks : List Look) : Option (Exec (Option Message)) :=
  (Polling.poll (fun look => decision (findWanted codec wanted look.received))
    (fun look => decide (look.elapsed < milliseconds)) looks).map waitResult

def waitFor (codec : MsgPack) (messageType : MessageType) (milliseconds : Int) :
    List Look → Option (Exec (Option Message)) :=
  waitUntil codec (fun message => message.messageType = messageType) milliseconds

/-- ACK and NAK. -/
def isAckOrNak (message : Message) : Bool :=
  message.messageType = .ack || message.messageType = .nak

def waitForAckOrNak (codec : MsgPack) (milliseconds : Int) :
    List Look → Option (Exec (Option Message)) :=
  waitUntil codec isAckOrNak milliseconds

/-! ## When the loop returns, and with what -/

variable {codec : MsgPack} {wanted : Message → Bool} {milliseconds : Int} {looks : List Look}

/-- A look that finds nothing wanted while there is time. -/
def Look.InVain (codec : MsgPack) (wanted : Message → Bool) (milliseconds : Int) (look : Look) :
    Prop :=
  findWanted codec wanted look.received = .ok none ∧ look.elapsed < milliseconds

theorem decision_eq_none_iff {result : Exec (Option Message)} :
    decision result = none ↔ result = .ok none := by
  match result with
  | .ok none => exact iff_of_true rfl rfl
  | .ok (some message) => simp [decision]
  | .error fault => simp [decision]

theorem inVain_iff {look : Look} :
    Polling.InVain (fun look : Look => decision (findWanted codec wanted look.received))
      (fun look => decide (look.elapsed < milliseconds)) look ↔
        look.InVain codec wanted milliseconds := by
  rw [Polling.InVain, decision_eq_none_iff, decide_eq_true_iff, Look.InVain]

theorem waitResult_decision (result : Exec (Option Message)) :
    waitResult (decision result) = result := by
  match result with
  | .ok none => rfl
  | .ok (some message) => rfl
  | .error fault => rfl

theorem decision_waitResult (decided : Option (Exec Message)) :
    decision (waitResult decided) = decided := by
  match decided with
  | none => rfl
  | some (.ok message) => rfl
  | some (.error fault) => rfl

theorem decision_inj {found result : Exec (Option Message)} :
    decision found = decision result ↔ found = result := by
  constructor
  · intro h
    rw [← waitResult_decision found, h, waitResult_decision]
  · exact congrArg decision

/-- The loop as a poll. -/
theorem waitUntil_eq_iff {result : Exec (Option Message)} :
    waitUntil codec wanted milliseconds looks = some result ↔
      Polling.poll (fun look => decision (findWanted codec wanted look.received))
        (fun look => decide (look.elapsed < milliseconds)) looks = some (decision result) := by
  rw [waitUntil, Option.map_eq_some_iff]
  constructor
  · rintro ⟨decided, hpoll, rfl⟩
    rw [decision_waitResult, hpoll]
  · intro hpoll
    exact ⟨decision result, hpoll, waitResult_decision result⟩

/-- **What the first look that found something found is returned**, with time left until
then. -/
theorem waitUntil_eq_found_iff {result : Exec (Option Message)} (hresult : result ≠ .ok none) :
    waitUntil codec wanted milliseconds looks = some result ↔
      ∃ earlier look later, looks = earlier ++ look :: later ∧
        (∀ other ∈ earlier, other.InVain codec wanted milliseconds) ∧
        findWanted codec wanted look.received = result := by
  obtain ⟨found, hfound⟩ : ∃ found, decision result = some found :=
    Option.ne_none_iff_exists'.mp fun hnone => hresult (decision_eq_none_iff.mp hnone)
  rw [waitUntil_eq_iff, hfound, Polling.poll_eq_found_iff, ← hfound]
  simp only [inVain_iff, decision_inj]

/-- **Nothing is returned when the time is up** after a look in vain. -/
theorem waitUntil_eq_timeout_iff :
    waitUntil codec wanted milliseconds looks = some (.ok none) ↔
      ∃ earlier look later, looks = earlier ++ look :: later ∧
        (∀ other ∈ earlier, other.InVain codec wanted milliseconds) ∧
        findWanted codec wanted look.received = .ok none ∧ milliseconds ≤ look.elapsed := by
  rw [waitUntil_eq_iff, decision_eq_none_iff.mpr rfl, Polling.poll_eq_gaveUp_iff]
  simp only [inVain_iff, decision_eq_none_iff, decide_eq_false_iff_not, Int.not_lt]

/-- The loop is still waiting while every look was in vain. -/
theorem waitUntil_eq_none_iff :
    waitUntil codec wanted milliseconds looks = none ↔
      ∀ look ∈ looks, look.InVain codec wanted milliseconds := by
  rw [waitUntil, Option.map_eq_none_iff, Polling.poll_eq_none_iff]
  simp only [inVain_iff]

end Tavernmx.Messaging
