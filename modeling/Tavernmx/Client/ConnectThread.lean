/-
# `Tavernmx.Client.ConnectThread` — one attempt to connect

The thread that the connect button starts: it connects, says HELLO and waits for ACK
or NAK.  Everything it is given from outside is in an `Attempt`.

    connect ──▸ HELLO written ──▸ ACK                the connection is left as it is
                                  NAK                its error is kept, shut down
                                  time is up         shut down
    an exception in any of these                     shut down

On every way it releases `connect_thread_signal`, and `connectThread_ended_iff` says
which way is taken.  `Client.Ui` knows of an attempt only how it ends; that this is
enough is `connectThread_refines`.
-/
import Tavernmx.Client.Ui
import Tavernmx.Shared.Transport
import Tavernmx.Shared.Waiting

namespace Tavernmx.Client

open Messaging

/-! ## Connecting -/

/-- What `SSL_get_verify_result` reports. -/
inductive VerifyResult where
  | ok
  | selfSignedCertInChain
  | depthZeroSelfSignedCert
  | otherError
  deriving DecidableEq, Repr

/-- What `verify_certificate` asks of OpenSSL. -/
structure Verification where
  result : VerifyResult
  /-- There is a peer certificate. -/
  presented : Bool
  /-- What `X509_check_host` returns. -/
  checkHost : Int
  deriving DecidableEq, Repr

def verifyCertificate (allowSelfSigned : Bool) (v : Verification) : Except SslError Unit := do
  if v.result = .selfSignedCertInChain ∨ v.result = .depthZeroSelfSignedCert then
    if !allowSelfSigned then throw .sslError
  else if v.result ≠ .ok then throw .sslError
  if !v.presented then throw .sslError
  if v.checkHost ≠ 1 then throw .sslError

/-- Everything an attempt depends on. -/
structure Attempt where
  /-- What `BIO_do_connect_retry` returns. -/
  bioConnect : Int
  /-- The tries of `BIO_do_handshake`; `written` is a try that succeeds. -/
  handshake : List WriteResult
  verification : Verification
  /-- The writes of the HELLO. -/
  helloWrites : List WriteResult
  looks : List Look

/-- The loop around `BIO_do_handshake`, which goes like the one around `BIO_write`. -/
def doHandshake (tries : List WriteResult) : Option (Except SslError Unit) := sendMessage tries

/-- `connect()`, and the connection it leaves behind; `none` while it has not returned. -/
def connect (a : Attempt) (c : Connection) : Option (Connection × Except SslError Unit) :=
  if c.isConnected then some (c, pure ())
  else if a.bioConnect ≠ 1 then some (⟨true, false, false⟩, throw .sslError)
  else (doHandshake a.handshake).map fun
    | .ok _ => (.accepted, verifyCertificate false a.verification)
    | .error e => (.accepted, throw e)

/-! ## The thread -/

/-- What the thread leaves behind. -/
structure ThreadEffect where
  connection : Connection
  /-- What is assigned to `connect_thread_error`. -/
  connectThreadError : Option String
  /-- How often `connect_thread_signal` was released. -/
  released : Nat
  sent : List Message
  deriving Repr

inductive ThreadRun where
  | running
  /-- An operation without a defined result. -/
  | aborted
  | ended (effect : ThreadEffect)

/-- The `catch` clause. -/
def caughtException (c : Connection) (sent : List Message) : ThreadRun :=
  .ended ⟨c.shutdown, none, 1, sent⟩

/-- What follows the wait for ACK or NAK. -/
def answered (c : Connection) (sent : List Message) (acknak : Option Message) : ThreadRun :=
  match acknak with
  | some message =>
    if message.messageType = .nak then
      match messageValueOr String message "error" "" with
      | .ok nakmsg => .ended ⟨c.shutdown, some nakmsg, 1, sent⟩
      | .error (.thrown _) => caughtException c sent
      | .error .assertion => .aborted
    else if message.messageType = .ack then .ended ⟨c, none, 1, sent⟩
    else .ended ⟨c.shutdown, none, 1, sent⟩
  | none => .ended ⟨c.shutdown, none, 1, sent⟩

/-- The wait. -/
def awaitAnswer (codec : MsgPack) (c : Connection) (sent : List Message) (looks : List Look) :
    ThreadRun :=
  match waitForAckOrNak codec sslTimeoutMilliseconds looks with
  | none => .running
  | some (.ok acknak) => answered c sent acknak
  | some (.error (.thrown _)) => caughtException c sent
  | some (.error .assertion) => .aborted

/-- HELLO. -/
def sayHello (codec : MsgPack) (userName : String) (a : Attempt) (c : Connection) : ThreadRun :=
  match c.sendMessageBlock a.helloWrites with
  | none => .running
  | some (.ok _) => awaitAnswer codec c [createHello userName] a.looks
  | some (.error _) => caughtException c []

/-- `connection_thread`, for a connection that was just made. -/
def connectionThread (codec : MsgPack) (userName : String) (a : Attempt) : ThreadRun :=
  match connect a ⟨false, false, false⟩ with
  | none => .running
  | some (c, .ok _) => sayHello codec userName a c
  | some (c, .error _) => caughtException c []

/-! ## How it ends -/

/-- The certificate is one that OpenSSL trusts, and it is the host's. -/
def Verification.Trusted (v : Verification) : Prop :=
  v.result = .ok ∧ v.presented = true ∧ v.checkHost = 1

theorem verifyCertificate_ok_iff {v : Verification} :
    verifyCertificate false v = .ok () ↔ v.Trusted := by
  obtain ⟨result, presented, checkHost⟩ := v
  rw [verifyCertificate, Verification.Trusted]
  cases result <;> cases presented <;>
    simp [bind, Except.bind, pure, throw, throwThe, MonadExceptOf.throw, Except.pure]

/-- The connection is made, to the host whose certificate was seen. -/
def Attempt.Connects (a : Attempt) : Prop :=
  a.bioConnect = 1 ∧ doHandshake a.handshake = some (.ok ()) ∧ a.verification.Trusted

/-- The first ACK or NAK, while there was time. -/
def Attempt.Hears (codec : MsgPack) (a : Attempt) (message : Message) : Prop :=
  ∃ earlier look later, a.looks = earlier ++ look :: later ∧
    (∀ other ∈ earlier, other.InVain codec isAckOrNak sslTimeoutMilliseconds) ∧
    findWanted codec isAckOrNak look.received = .ok (some message)

/-- The connection is made, the HELLO is written, and the answer is heard. -/
def Attempt.Answered (codec : MsgPack) (a : Attempt) (message : Message) : Prop :=
  a.Connects ∧ sendMessage a.helloWrites = some (.ok ()) ∧ a.Hears codec message

theorem hears_iff {codec : MsgPack} {a : Attempt} {message : Message} : a.Hears codec message ↔
    waitForAckOrNak codec sslTimeoutMilliseconds a.looks = some (.ok (some message)) := by
  have hresult : (.ok (some message) : Exec (Option Message)) ≠ .ok none := fun h => by cases h
  exact (waitUntil_eq_found_iff hresult).symm

theorem isAckOrNak_of_hears {codec : MsgPack} {a : Attempt} {message : Message}
    (h : a.Hears codec message) : message.messageType = .ack ∨ message.messageType = .nak := by
  obtain ⟨-, look, -, -, -, hfound⟩ := h
  obtain ⟨block, -, hfound⟩ := Fallible.bind_ok.mp hfound
  cases block with
  | none => cases hfound
  | some block =>
      obtain ⟨messages, -, hfound⟩ := Fallible.bind_ok.mp hfound
      have hwanted := List.find?_some (Except.ok.inj hfound)
      simpa [isAckOrNak] using hwanted

/-- It connects exactly when `connect` returns without an exception. -/
theorem connect_ok_iff {a : Attempt} {c : Connection} :
    connect a ⟨false, false, false⟩ = some (c, .ok ()) ↔ a.Connects ∧ c = .accepted := by
  rw [connect, if_neg (by decide), Attempt.Connects, ← verifyCertificate_ok_iff]
  by_cases hconnect : a.bioConnect = 1
  · rw [if_neg (not_not.mpr hconnect)]
    cases hshake : doHandshake a.handshake with
    | none => simp
    | some result =>
        cases result with
        | ok _ =>
            simp only [Option.map_some, Option.some.injEq, Prod.mk.injEq, hconnect, true_and]
            exact ⟨fun h => ⟨h.2, h.1.symm⟩, fun h => ⟨h.2.symm, h.1⟩⟩
        | error e => simp [throw, throwThe, MonadExceptOf.throw]
  · rw [if_pos hconnect]
    simp [hconnect, throw, throwThe, MonadExceptOf.throw]

/-- The thread ended without an answer that it could use. -/
structure ThreadEffect.Closed (effect : ThreadEffect) : Prop where
  released : effect.released = 1
  disconnected : effect.connection.isConnected = false
  error : effect.connectThreadError = none

theorem closed_caughtException {c : Connection} {sent : List Message} {effect : ThreadEffect}
    (h : caughtException c sent = .ended effect) : effect.Closed := by
  cases h
  exact ⟨rfl, Connection.isConnected_shutdown c, rfl⟩

variable {codec : MsgPack} {userName : String} {a : Attempt} {effect : ThreadEffect}
  {message : Message}

/-- Writing to a connection that was just made. -/
theorem sendMessageBlock_accepted (writes : List WriteResult) :
    Connection.accepted.sendMessageBlock writes
      = (sendMessage writes).map fun result => result.mapError fun _ => .thrown .transportError :=
  if_pos rfl

/-- With an answer the thread goes on as that says. -/
theorem connectionThread_of_answered (h : a.Answered codec message) :
    connectionThread codec userName a
      = answered .accepted [createHello userName] (some message) := by
  obtain ⟨hconnects, hwrites, hhears⟩ := h
  have hsend : Connection.accepted.sendMessageBlock a.helloWrites = some (.ok ()) := by
    rw [sendMessageBlock_accepted, hwrites]
    rfl
  rw [connectionThread, connect_ok_iff.mpr ⟨hconnects, rfl⟩]
  simp only [sayHello, hsend, awaitAnswer, hears_iff.mp hhears]

/-- Without one it ends with nothing, if it ends. -/
theorem closed_of_not_answered (hnone : ∀ message, ¬ a.Answered codec message)
    (hended : connectionThread codec userName a = .ended effect) : effect.Closed := by
  rw [connectionThread] at hended
  cases hconnect : connect a ⟨false, false, false⟩ with
  | none => simp [hconnect] at hended
  | some result =>
      obtain ⟨c, result⟩ := result
      simp only [hconnect] at hended
      cases result with
      | error e => exact closed_caughtException hended
      | ok _ =>
          obtain ⟨hconnects, rfl⟩ := connect_ok_iff.mp hconnect
          simp only [sayHello, sendMessageBlock_accepted] at hended
          cases hwrites : sendMessage a.helloWrites with
          | none => simp [hwrites] at hended
          | some written =>
              cases written with
              | error e =>
                  simp only [hwrites, Option.map_some, Except.mapError] at hended
                  exact closed_caughtException hended
              | ok _ =>
                  simp only [hwrites, Option.map_some, Except.mapError, awaitAnswer] at hended
                  cases hwait : waitForAckOrNak codec sslTimeoutMilliseconds a.looks with
                  | none => simp [hwait] at hended
                  | some result =>
                      match result, hwait with
                      | .ok (some message), hwait =>
                          exact absurd ⟨hconnects, hwrites, hears_iff.mpr hwait⟩ (hnone message)
                      | .ok none, hwait =>
                          simp only [hwait, answered] at hended
                          cases hended
                          exact ⟨rfl, Connection.isConnected_shutdown _, rfl⟩
                      | .error (.thrown e), hwait =>
                          simp only [hwait] at hended
                          exact closed_caughtException hended
                      | .error .assertion, hwait => simp [hwait] at hended

theorem Attempt.Answered.unique {other : Message} (h : a.Answered codec message)
    (h' : a.Answered codec other) : message = other := by
  have hsame := (hears_iff.mp h.2.2).symm.trans (hears_iff.mp h'.2.2)
  exact Option.some.inj (Except.ok.inj (Option.some.inj hsame))

/-- The answer was ACK. -/
def Attempt.Acknowledged (codec : MsgPack) (a : Attempt) : Prop :=
  ∃ message, a.Answered codec message ∧ message.messageType = .ack

/-- The answer was NAK, with this error. -/
def Attempt.DeniedWith (codec : MsgPack) (a : Attempt) (error : String) : Prop :=
  ∃ message, a.Answered codec message ∧ message.messageType = .nak ∧
    messageValueOr String message "error" "" = .ok error

/-- What the UI will see of an attempt that is over. -/
structure ThreadEffect.Reports (codec : MsgPack) (a : Attempt) (effect : ThreadEffect) : Prop where
  released : effect.released = 1
  connected : effect.connection.isConnected = true ↔ a.Acknowledged codec
  error : ∀ error, effect.connectThreadError = some error ↔ a.DeniedWith codec error

/-- Ending closed is the report of an attempt without ACK, and without a NAK that can be read. -/
theorem ThreadEffect.Closed.reports (h : effect.Closed) (hack : ¬ a.Acknowledged codec)
    (hnak : ∀ error, ¬ a.DeniedWith codec error) : effect.Reports codec a where
  released := h.released
  connected := iff_of_false (Bool.eq_false_iff.mp h.disconnected) hack
  error := by
    intro error
    rw [h.error]
    exact iff_of_false (fun hsome => by cases hsome) (hnak error)

/-- **A thread that ends has released its signal once, left the connection connected exactly
for an ACK, and left an error exactly for a NAK.** -/
theorem reports_of_ended (hended : connectionThread codec userName a = .ended effect) :
    effect.Reports codec a := by
  by_cases hanswered : ∃ message, a.Answered codec message
  · obtain ⟨message, hmessage⟩ := hanswered
    rw [connectionThread_of_answered hmessage, answered] at hended
    rcases isAckOrNak_of_hears hmessage.2.2 with hack | hnak
    · rw [if_neg (by rw [hack]; decide), if_pos hack] at hended
      cases hended
      refine ⟨rfl, iff_of_true rfl ⟨message, hmessage, hack⟩, fun error => ?_⟩
      refine iff_of_false (fun hsome => by cases hsome) ?_
      rintro ⟨other, hother, hnak, -⟩
      obtain rfl := hmessage.unique hother
      cases hack.symm.trans hnak
    · rw [if_pos hnak] at hended
      have hnoAck : ¬ a.Acknowledged codec := by
        rintro ⟨other, hother, hack⟩
        obtain rfl := hmessage.unique hother
        cases hack.symm.trans hnak
      cases hread : messageValueOr String message "error" "" with
      | ok nakmsg =>
          simp only [hread] at hended
          cases hended
          refine ⟨rfl, iff_of_false (fun h => by cases h) hnoAck, fun error => ?_⟩
          constructor
          · intro hsome
            obtain rfl := Option.some.inj hsome
            exact ⟨message, hmessage, hnak, hread⟩
          · rintro ⟨other, hother, -, hreads⟩
            obtain rfl := hmessage.unique hother
            obtain rfl := Except.ok.inj (hread.symm.trans hreads)
            rfl
      | error fault =>
          cases fault with
          | assertion => simp [hread] at hended
          | thrown e =>
              simp only [hread] at hended
              refine (closed_caughtException hended).reports hnoAck ?_
              rintro error ⟨other, hother, -, hreads⟩
              obtain rfl := hmessage.unique hother
              cases hread.symm.trans hreads
  · refine (closed_of_not_answered (not_exists.mp hanswered) hended).reports ?_ ?_
    · rintro ⟨message, hmessage, -⟩
      exact hanswered ⟨message, hmessage⟩
    · rintro error ⟨message, hmessage, -⟩
      exact hanswered ⟨message, hmessage⟩

/-! ## The UI's view of it -/

/-- What the variables of the client become when the thread ends. -/
def ClientApp.afterThread (app : ClientApp) (effect : ThreadEffect) : ClientApp :=
  { app with
    connection := some effect.connection.isConnected
    connectThreadError := effect.connectThreadError.getD app.connectThreadError
    connectThreads := app.connectThreads - 1
    connectThreadSignal := (BinarySemaphore.release^[effect.released]) app.connectThreadSignal }

/-- How an attempt ends, as `Client.Ui` has it. -/
def ThreadEffect.outcome (effect : ThreadEffect) : ConnectOutcome :=
  match effect.connectThreadError with
  | some error => .denied error
  | none => if effect.connection.isConnected then .acknowledged else .failed

theorem ThreadEffect.Reports.not_both (h : effect.Reports codec a) {error : String}
    (herror : effect.connectThreadError = some error) : effect.connection.isConnected = false := by
  refine Bool.eq_false_iff.mpr fun hconnected => ?_
  obtain ⟨message, hmessage, hack⟩ := h.connected.mp hconnected
  obtain ⟨other, hother, hnak, -⟩ := (h.error error).mp herror
  obtain rfl := hmessage.unique hother
  cases hack.symm.trans hnak

/-- The transition of the UI's model. -/
theorem ThreadEffect.Reports.afterThread (h : effect.Reports codec a) (app : ClientApp) :
    app.afterThread effect = app.connectThread effect.outcome := by
  rw [ClientApp.afterThread, h.released, ThreadEffect.outcome]
  cases herror : effect.connectThreadError with
  | some error => simp [ClientApp.connectThread, h.not_both herror]
  | none => cases hconnected : effect.connection.isConnected <;> simp [ClientApp.connectThread]

/-- The handshake and the writes come to an end, and one look is at the time-out or after it. -/
def Attempt.ComesToAnEnd (a : Attempt) : Prop :=
  doHandshake a.handshake ≠ none ∧ sendMessage a.helloWrites ≠ none ∧
    ∃ look ∈ a.looks, sslTimeoutMilliseconds ≤ look.elapsed

/-- What follows the wait does not wait. -/
theorem answered_ne_running {c : Connection} {sent : List Message} {acknak : Option Message} :
    answered c sent acknak ≠ .running := by
  intro hrunning
  cases acknak with
  | none => cases hrunning
  | some message =>
      simp only [answered] at hrunning
      split at hrunning
      · split at hrunning <;> cases hrunning
      · split at hrunning <;> cases hrunning

theorem connectionThread_ne_running (h : a.ComesToAnEnd) :
    connectionThread codec userName a ≠ .running := by
  obtain ⟨hshake, hwrites, look, hlook, hlate⟩ := h
  have hwait : waitForAckOrNak codec sslTimeoutMilliseconds a.looks ≠ none := by
    rw [waitForAckOrNak, ne_eq, waitUntil_eq_none_iff]
    exact fun hall => absurd (hall look hlook).2 (Int.not_lt.mpr hlate)
  intro hrunning
  rw [connectionThread] at hrunning
  cases hconnect : connect a ⟨false, false, false⟩ with
  | none =>
      rw [connect, if_neg (by decide)] at hconnect
      split at hconnect
      · cases hconnect
      · exact hshake (Option.map_eq_none_iff.mp hconnect)
  | some result =>
      obtain ⟨c, result⟩ := result
      simp only [hconnect] at hrunning
      cases result with
      | error e => cases hrunning
      | ok _ =>
          obtain ⟨-, rfl⟩ := connect_ok_iff.mp hconnect
          simp only [sayHello, sendMessageBlock_accepted] at hrunning
          cases hsend : sendMessage a.helloWrites with
          | none => exact hwrites hsend
          | some written =>
              cases written with
              | error e =>
                  simp only [hsend, Option.map_some, Except.mapError] at hrunning
                  cases hrunning
              | ok _ =>
                  simp only [hsend, Option.map_some, Except.mapError, awaitAnswer] at hrunning
                  split at hrunning
                  · exact hwait ‹_›
                  · exact answered_ne_running hrunning
                  · cases hrunning
                  · cases hrunning

/-- **An attempt is one transition of the UI's model.**  It comes to an end when the
handshake, the writes and the clock do, and then it is acknowledged or denied exactly as the
first ACK or NAK said, in time and over a connection that was verified. -/
theorem connectionThread_refines (codec : MsgPack) (userName : String) (a : Attempt)
    (app : ClientApp) :
    (a.ComesToAnEnd → connectionThread codec userName a ≠ .running) ∧
    ∀ effect, connectionThread codec userName a = .ended effect → ∃ outcome,
      app.afterThread effect = app.connectThread outcome ∧
      (outcome = .acknowledged ↔ a.Acknowledged codec) ∧
      ∀ error, outcome = .denied error ↔ a.DeniedWith codec error := by
  refine ⟨connectionThread_ne_running, fun effect hended => ?_⟩
  have hreports := reports_of_ended hended
  refine ⟨effect.outcome, hreports.afterThread app, ?_, fun error => ?_⟩
  · rw [← hreports.connected, ThreadEffect.outcome]
    cases herror : effect.connectThreadError with
    | some error => simp [hreports.not_both herror]
    | none => cases effect.connection.isConnected <;> simp
  · rw [← hreports.error, ThreadEffect.outcome]
    cases herror : effect.connectThreadError with
    | some other => simp
    | none => cases effect.connection.isConnected <;> simp

/-- The bytes of an array with the NAK of a server that is full. -/
def nakBytes : Bytes :=
  [0x91, 0x82, 0xac, 0x6d, 0x65, 0x73, 0x73, 0x61, 0x67, 0x65, 0x5f, 0x74, 0x79, 0x70, 0x65,
    0xcd, 0x10, 0x01, 0xa6, 0x76, 0x61, 0x6c, 0x75, 0x65, 0x73, 0x81, 0xa5, 0x65, 0x72, 0x72,
    0x6f, 0x72, 0xb5, 0x54, 0x6f, 0x6f, 0x20, 0x6d, 0x61, 0x6e, 0x79, 0x20, 0x63, 0x6f, 0x6e,
    0x6e, 0x65, 0x63, 0x74, 0x69, 0x6f, 0x6e, 0x73, 0x2e]

/-- A decoder that knows these bytes. -/
def nakCodec : MsgPack where
  toMsgpack _ := nakBytes
  fromMsgpack bytes :=
    if bytes = nakBytes then .ok (.array [messageToJson (createNak "Too many connections.")])
    else .error (.thrown .parseError)

/-- The NAK is there at the second look. -/
def deniedAttempt : Attempt where
  bioConnect := 1
  handshake := [.retry, .written]
  verification := ⟨.ok, true, 1⟩
  helloWrites := [.written]
  looks := [⟨.ok none, 20⟩, ⟨.ok (some (.setPayload nakBytes)), 3000⟩]

/-- ann is told that the server is full. -/
theorem connectionThread_refines_denied :
    connectionThread nakCodec "ann" deniedAttempt ≠ .running ∧
    ∃ outcome, outcome = .denied "Too many connections." ∧
      (ClientApp.start.afterThread ⟨⟨false, true, false⟩, some "Too many connections.", 1,
        [createHello "ann"]⟩) = ClientApp.start.connectThread outcome := by
  have hrefines := connectionThread_refines nakCodec "ann" deniedAttempt .start
  have hended : connectionThread nakCodec "ann" deniedAttempt
      = .ended ⟨⟨false, true, false⟩, some "Too many connections.", 1, [createHello "ann"]⟩ := rfl
  refine ⟨hrefines.1 ⟨?_, ?_, ?_⟩, ?_⟩
  · decide
  · decide
  · exact ⟨_, List.mem_cons_of_mem _ List.mem_cons_self, by decide⟩
  · obtain ⟨outcome, hafter, -, hdenied⟩ := hrefines.2 _ hended
    refine ⟨outcome, (hdenied _).mpr ?_, hafter⟩
    exact ((reports_of_ended hended).error _).mp rfl

end Tavernmx.Client
