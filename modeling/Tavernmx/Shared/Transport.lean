/-
# `Tavernmx.Shared.Transport` — a connection, and writing to it

A connection is active as long as it has its BIO, the BIO has its SSL, and the
peer's shutdown was not received; `shutdown()` takes the BIO away.

`send_message` writes until a write does not fail.  A write that fails may ask to
be tried again, which the peer can bring about for as long as it likes, so the
results of the writes are a list that the peer chooses: `sendMessage` has no
result while all of them ask for another try (`sendMessage_eq_none_iff`), and
otherwise the first that does not decides.
-/
import Tavernmx.Shared.Json

namespace Tavernmx

/-- The exception of the functions of `ssl`. -/
inductive SslError where
  | sslError
  deriving DecidableEq, Repr

/-- What `BIO_write` reports: no failure, a failure that should be retried, another one. -/
inductive WriteResult where
  | written
  | retry
  | failed
  deriving DecidableEq, Repr

/-- `ssl::send_message`, over the results of its writes; `none` when it is still
trying after the last of them. -/
def sendMessage : List WriteResult → Option (Except SslError Unit)
  | [] => none
  | .written :: _ => some (pure ())
  | .retry :: results => sendMessage results
  | .failed :: _ => some (throw .sslError)

/-- What `is_connected` looks at. -/
structure Connection where
  hasBio : Bool
  hasSsl : Bool
  receivedShutdown : Bool
  deriving DecidableEq, Repr

namespace Connection

/-- A connection that was just accepted. -/
def accepted : Connection := ⟨true, true, false⟩

def isConnected (c : Connection) : Bool := c.hasBio && c.hasSsl && !c.receivedShutdown

def shutdown (c : Connection) : Connection := { c with hasBio := false }

/-- `send_message_block`. -/
def sendMessageBlock (c : Connection) (writes : List WriteResult) : Option (Exec Unit) :=
  if c.isConnected then
    (sendMessage writes).map fun result => result.mapError fun _ => .thrown .transportError
  else some (throw (.thrown .transportError))

theorem isConnected_shutdown (c : Connection) : c.shutdown.isConnected = false := rfl

end Connection

theorem sendMessage_eq_none_iff {results : List WriteResult} :
    sendMessage results = none ↔ ∀ result ∈ results, result = .retry := by
  induction results with
  | nil => simp [sendMessage]
  | cons result results ih =>
      cases result with
      | written => simp [sendMessage]
      | failed => simp [sendMessage]
      | retry =>
          rw [sendMessage, ih]
          simp

/-- Of a peer that answers the writes in this way, the first results. -/
def firstResults (writes : Nat → WriteResult) (n : Nat) : List WriteResult :=
  (List.range n).map writes

/-- The write goes through: after some retries there is a write that does not fail. -/
def GoesThrough (writes : Nat → WriteResult) (n : Nat) : Prop :=
  writes n = .written ∧ ∀ m < n, writes m = .retry

/-- A write that asks for another try is not yet the one that goes through. -/
theorem GoesThrough.lt_of_retry {writes : Nat → WriteResult} {m n : Nat}
    (h : GoesThrough writes n) (hle : m ≤ n) (hretry : writes m = .retry) : m < n := by
  refine Nat.lt_of_le_of_ne hle ?_
  rintro rfl
  cases hretry.symm.trans h.1

theorem GoesThrough.not_failed {writes : Nat → WriteResult} {m n : Nat}
    (h : GoesThrough writes n) (hle : m ≤ n) : writes m ≠ .failed := by
  intro hfailed
  rcases Nat.eq_or_lt_of_le hle with rfl | hlt
  · cases hfailed.symm.trans h.1
  · cases hfailed.symm.trans (h.2 m hlt)

theorem firstResults_succ (writes : Nat → WriteResult) (n : Nat) :
    firstResults writes (n + 1) = writes 0 :: firstResults (fun m => writes (m + 1)) n := by
  rw [firstResults, List.range_succ_eq_map, List.map_cons, List.map_map]
  rfl

/-- `send_message` returns within `n` writes when one of them goes through. -/
theorem sendMessage_firstResults_ok_iff (n : Nat) (writes : Nat → WriteResult) :
    sendMessage (firstResults writes n) = some (.ok ()) ↔ ∃ k < n, GoesThrough writes k := by
  induction n generalizing writes with
  | zero =>
      constructor
      · intro h
        cases h
      · rintro ⟨k, hk, -⟩
        exact absurd hk (Nat.not_lt_zero k)
  | succ n ih =>
      rw [firstResults_succ]
      cases hfirst : writes 0 with
      | written =>
          refine ⟨fun _ => ⟨0, Nat.succ_pos n, hfirst, ?_⟩, fun _ => rfl⟩
          exact fun m hm => absurd hm (Nat.not_lt_zero m)
      | failed =>
          constructor
          · intro h
            cases h
          · rintro ⟨k, -, hwritten, hretry⟩
            cases k with
            | zero => cases hfirst.symm.trans hwritten
            | succ k => cases hfirst.symm.trans (hretry 0 (Nat.succ_pos k))
      | retry =>
          rw [sendMessage, ih]
          constructor
          · rintro ⟨k, hk, hwritten, hretry⟩
            refine ⟨k + 1, Nat.succ_lt_succ hk, hwritten, fun m hm => ?_⟩
            cases m with
            | zero => exact hfirst
            | succ m => exact hretry m (Nat.lt_of_succ_lt_succ hm)
          · rintro ⟨k, hk, hwritten, hretry⟩
            cases k with
            | zero => cases hfirst.symm.trans hwritten
            | succ k =>
                exact ⟨k, Nat.lt_of_succ_lt_succ hk, hwritten, fun m hm =>
                  hretry (m + 1) (Nat.succ_lt_succ hm)⟩

end Tavernmx
