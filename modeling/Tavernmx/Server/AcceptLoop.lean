/-
# `Tavernmx.Server.AcceptLoop` — the accept loop and the peers it talks to

Each turn of the loop in `main` may get a connection.  With the pool full, the loop
itself sends the NAK, and so waits for a peer that has not even finished its TLS
handshake: `send_message` tries again as long as the writes ask for it, and throws
when one fails.  Nothing between that and the `catch` clause of `main` handles the
exception.

`acceptLoop` has no result while a `send_message` is still trying after `attempts`
writes, and fails when an exception leaves it.  `acceptLoop_survives_iff` says for
which sequences of turns the loop gets through all of them.
-/
import Tavernmx.Server.Admission

namespace Tavernmx.Server

/-- One turn of the loop: the pool as the loop finds it, and what has arrived. -/
structure Turn where
  pool : ThreadPool ConnId
  arrival : Option Arrival

/-- What a turn leaves behind. -/
inductive TurnResult where
  | nothing
  | rejected (connection : Connection)
  | handedOver (pool : ThreadPool ConnId)

/-- The body of the loop. -/
def Turn.run (attempts : Nat) (turn : Turn) : Option (Exec TurnResult) :=
  match turn.arrival with
  | none => some (pure .nothing)
  | some arrival =>
    if tooManyConnections turn.pool then
      (arrival.connection.sendMessageBlock (firstResults arrival.writes attempts)).map fun sent =>
        sent.map fun _ => .rejected arrival.connection.shutdown
    else some (pure (.handedOver (turn.pool.detachTask arrival.client)))

/-- The loop over the turns that begin, each with `server_shutdown_signal` not
released and the accept socket open. -/
def acceptLoop (attempts : Nat) : List Turn → Option (Exec Unit)
  | [] => some (pure ())
  | turn :: turns =>
    match turn.run attempts with
    | none => none
    | some (.error e) => some (throw e)
    | some (.ok _) => acceptLoop attempts turns

/-- A connection that came to a full pool takes the NAK. -/
def Turn.TakesNak (turn : Turn) : Prop :=
  ∀ arrival, turn.arrival = some arrival → tooManyConnections turn.pool = true →
    arrival.TakesNak

theorem sendMessageBlock_ok_iff (connection : Connection) (results : List WriteResult) :
    connection.sendMessageBlock results = some (.ok ()) ↔
      connection.isConnected = true ∧ sendMessage results = some (.ok ()) := by
  rw [Connection.sendMessageBlock]
  cases connection.isConnected with
  | false =>
      constructor
      · intro h
        cases h
      · rintro ⟨h, -⟩
        cases h
  | true =>
      cases hsend : sendMessage results with
      | none => simp
      | some sent => cases sent <;> simp [Except.mapError]

/-- A turn gets through when enough writes are allowed. -/
theorem Turn.run_ok_iff (turn : Turn) (attempts : Nat) :
    (∃ result, turn.run attempts = some (.ok result)) ↔
      ∀ arrival, turn.arrival = some arrival → tooManyConnections turn.pool = true →
        arrival.connection.isConnected = true ∧ ∃ k < attempts, GoesThrough arrival.writes k := by
  rw [run]
  cases harrival : turn.arrival with
  | none =>
      refine ⟨fun _ arrival h => ?_, fun _ => ⟨_, rfl⟩⟩
      cases h
  | some arrival =>
      simp only [Option.some.injEq, forall_eq']
      cases hmany : tooManyConnections turn.pool with
      | false =>
          refine ⟨fun _ h => ?_, fun _ => ⟨_, rfl⟩⟩
          cases h
      | true =>
          rw [if_pos rfl, ← sendMessage_firstResults_ok_iff, ← sendMessageBlock_ok_iff]
          cases arrival.connection.sendMessageBlock (firstResults arrival.writes attempts) with
          | none => simp
          | some sent =>
              cases sent with
              | error e => simp [Except.map]
              | ok u => simp [Except.map]

theorem acceptLoop_ok_iff (attempts : Nat) (turns : List Turn) :
    acceptLoop attempts turns = some (.ok ()) ↔
      ∀ turn ∈ turns, ∃ result, turn.run attempts = some (.ok result) := by
  induction turns with
  | nil => simp [acceptLoop, pure, Except.pure]
  | cons turn turns ih =>
      rw [acceptLoop, List.forall_mem_cons]
      cases hrun : turn.run attempts with
      | none => simp
      | some result =>
          cases result with
          | error e => simp [throw, throwThe, MonadExceptOf.throw]
          | ok result => simp [ih]

/-- More writes do no harm. -/
theorem Turn.run_ok_mono {turn : Turn} {few many : Nat} (h : few ≤ many)
    (hrun : ∃ result, turn.run few = some (.ok result)) :
    ∃ result, turn.run many = some (.ok result) := by
  rw [Turn.run_ok_iff] at hrun ⊢
  intro arrival harrival hmany
  obtain ⟨hconnected, k, hk, hthrough⟩ := hrun arrival harrival hmany
  exact ⟨hconnected, k, Nat.lt_of_lt_of_le hk h, hthrough⟩

theorem Turn.takesNak_iff (turn : Turn) :
    turn.TakesNak ↔ ∃ attempts result, turn.run attempts = some (.ok result) := by
  simp only [Turn.run_ok_iff]
  constructor
  · intro h
    cases harrival : turn.arrival with
    | none =>
        refine ⟨0, fun arrival heq => ?_⟩
        cases heq
    | some arrival =>
        cases hmany : tooManyConnections turn.pool with
        | false =>
            refine ⟨0, fun _ _ htrue => ?_⟩
            cases htrue
        | true =>
            obtain ⟨hconnected, n, hthrough⟩ := h arrival harrival hmany
            refine ⟨n + 1, fun other heq _ => ?_⟩
            cases heq
            exact ⟨hconnected, n, Nat.lt_succ_self n, hthrough⟩
  · rintro ⟨attempts, h⟩ arrival harrival hmany
    obtain ⟨hconnected, k, -, hthrough⟩ := h arrival harrival hmany
    exact ⟨hconnected, k, hthrough⟩

/-- **The loop gets through all its turns exactly when every connection that came to
a full pool takes the NAK**: it is still connected, and after some retries a write
does not fail. -/
theorem acceptLoop_survives_iff (turns : List Turn) :
    (∃ attempts, acceptLoop attempts turns = some (.ok ())) ↔ ∀ turn ∈ turns, turn.TakesNak := by
  simp only [acceptLoop_ok_iff]
  constructor
  · rintro ⟨attempts, h⟩ turn hturn
    exact turn.takesNak_iff.mpr ⟨attempts, h turn hturn⟩
  · intro h
    induction turns with
    | nil =>
        refine ⟨0, fun turn hturn => ?_⟩
        cases hturn
    | cons turn turns ih =>
        obtain ⟨few, hturns⟩ := ih fun other hother => h other (List.mem_cons_of_mem _ hother)
        obtain ⟨many, hturn⟩ := turn.takesNak_iff.mp (h turn List.mem_cons_self)
        refine ⟨max few many, fun other hother => ?_⟩
        rcases List.mem_cons.mp hother with rfl | hmem
        · exact Turn.run_ok_mono (Nat.le_max_right few many) hturn
        · exact Turn.run_ok_mono (Nat.le_max_left few many) (hturns other hmem)

/-- A pool of one thread that serves a client. -/
def fullPool : ThreadPool ConnId := ⟨1, [], 0, [1], 1⟩

/-- With the pool full, a peer whose writes fail ends the loop through the exception,
and one that never finishes its handshake keeps it for ever. -/
theorem acceptLoop_ends : ∃ failing stalling : Turn,
    (∀ attempts, acceptLoop (attempts + 1) [failing] = some (.error (.thrown .transportError))) ∧
    ∀ attempts, acceptLoop attempts [stalling] = none := by
  have hmany : tooManyConnections fullPool = true := by decide
  have hconnected : Connection.accepted.isConnected = true := rfl
  refine ⟨⟨fullPool, some ⟨2, .accepted, fun _ => .failed⟩⟩, ⟨fullPool, some ⟨2, .accepted,
    fun _ => .retry⟩⟩, ?_, ?_⟩
  · intro attempts
    have hsend : sendMessage (firstResults (fun _ => .failed) (attempts + 1))
        = some (.error .sslError) := by
      rw [firstResults_succ]
      rfl
    simp only [acceptLoop, Turn.run, hmany, if_true, Connection.sendMessageBlock, hconnected, hsend]
    rfl
  · intro attempts
    have hsend : sendMessage (firstResults (fun _ => .retry) attempts) = none := by
      refine sendMessage_eq_none_iff.mpr fun result hresult => ?_
      obtain ⟨n, -, rfl⟩ := List.mem_map.mp hresult
      rfl
    simp only [acceptLoop, Turn.run, hmany, if_true, Connection.sendMessageBlock, hconnected, hsend]
    rfl

end Tavernmx.Server
