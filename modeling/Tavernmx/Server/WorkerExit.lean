/-
# `Tavernmx.Server.WorkerExit` — how a client worker ends, and what it leaves behind

`client_worker` waits for a HELLO, and then reads, answers and writes until the
connection is no longer active.  It is modelled step by step, between one call
into the transport and the next, because the peer's shutdown can be received in
any of these calls, and the manager can shut the connection down between them.

    waiting ──receive──▸ waited ──clock──▸ waiting
       │                                       (time is up: returned)
       └──────HELLO─────▸ greeted ──send──▸ serving ──loopCondition──▸ reading
                                               ▴                          │
                                               └──send── answering ◂──receive

An exception in any of these steps is caught, and the worker returns.

The worker never shuts the connection down.  It returns for want of a HELLO, or
after an exception, and a connection whose peer is still there stays active
(`clientWorker_leaves_connection`): the manager keeps it, and the server goes on
to queue messages for it.  `GivesUp` are the steps by which that happens, and
`clientWorker_disconnected` says that there are no others.
-/
import Tavernmx.Lib.Runs
import Tavernmx.Server.Broadcast
import Tavernmx.Server.ClientWorker
import Tavernmx.Shared.Transport

namespace Tavernmx.Server

open Messaging

/-! ## The worker -/

/-- What one call of `ssl::receive_message` comes to. -/
inductive Reception where
  | nothing
  | block (block : MessageBlock)
  | failed

/-- What ends a connection: the peer's orderly shutdown is received, or the manager
calls `shutdown()`. -/
inductive Closing where
  | byPeer
  | byManager
  deriving DecidableEq

def Closing.close (connection : Connection) : Closing → Connection
  | .byPeer => { connection with receivedShutdown := true }
  | .byManager => connection.shutdown

/-- The connection after a call during which it may have been closed. -/
def afterCall (connection : Connection) (closing : Option Closing) : Connection :=
  closing.elim connection (Closing.close connection)

/-- How `client_worker` returns. -/
inductive WorkerReturn where
  | noHello
  | loopEnded
  | caught (e : CppException)
  deriving DecidableEq

inductive WorkerStage where
  | waiting
  | waited
  | greeted
  | serving
  | reading
  /-- The answers to the block that was read are to be sent. -/
  | answering (sendMessages : List Message)
  | returned (how : WorkerReturn)
  /-- A failed assertion, or a member that is missing. -/
  | aborted

structure ClientWorker where
  stage : WorkerStage
  connection : Connection
  connectedUserName : String
  messagesIn : List Message
  sent : List (List Message)

/-- What happens between the worker and its peer, or at the manager. -/
inductive WorkerStep where
  | receive (reception : Reception) (closing : Option Closing)
  /-- `wait_for` looks at the clock. -/
  | clock (timeUp : Bool)
  | loopCondition
  /-- The messages popped from `messages_out`, and the results of the writes. -/
  | send (messagesOut : List Message) (writes : List WriteResult) (closing : Option Closing)
  | shutdown

/-- What is made of a block while waiting for a HELLO: the user's name, if it is there. -/
def readHello (codec : MsgPack) (block : MessageBlock) : Exec (Option String) := do
  let messages ← unpackMessages codec block
  match messages.find? fun message => message.messageType = .hello with
  | some hello => do
      let userName ← messageValueOr String hello "user_name" ""
      pure (some userName)
  | none => pure none

namespace ClientWorker

/-- The worker for a connection that was just accepted. -/
def start : ClientWorker := ⟨.waiting, .accepted, "", [], []⟩

/-- An exception goes to the `catch` clause; the others end the process. -/
def fault (w : ClientWorker) : Fault → ClientWorker
  | .thrown e => { w with stage := .returned (.caught e) }
  | .assertion => { w with stage := .aborted }

/-- A block is there, while waiting for a HELLO. -/
def hear (codec : MsgPack) (block : MessageBlock) (w : ClientWorker) : ClientWorker :=
  match readHello codec block with
  | .ok (some userName) => { w with stage := .greeted, connectedUserName := userName }
  | .ok none => { w with stage := .waited }
  | .error e => w.fault e

/-- A block is there, in the loop. -/
def dispatch (codec : MsgPack) (block : MessageBlock) (w : ClientWorker) : ClientWorker :=
  match receiveBlock codec block with
  | .ok received =>
    { w with
      stage := .answering received.sendMessages
      messagesIn := w.messagesIn ++ received.messagesIn }
  | .error e => w.fault e

/-- `receive_message`, and what follows; `silent` is the stage when nothing came. -/
def receive (silent : WorkerStage) (onBlock : MessageBlock → ClientWorker → ClientWorker)
    (reception : Reception) (closing : Option Closing) (w : ClientWorker) : ClientWorker :=
  if w.connection.isConnected then
    let w := { w with connection := afterCall w.connection closing }
    match reception with
    | .nothing => { w with stage := silent }
    | .block block => onBlock block w
    | .failed => w.fault (.thrown .transportError)
  else w.fault (.thrown .transportError)

/-- `send_message` or `send_messages`; no result while the write is retried. -/
def send (messages : List Message) (writes : List WriteResult) (closing : Option Closing)
    (w : ClientWorker) : Option ClientWorker :=
  if messages = [] then some { w with stage := .serving }
  else
    (w.connection.sendMessageBlock writes).map fun
      | .ok _ =>
        { w with
          stage := .serving
          connection := afterCall w.connection closing
          sent := w.sent ++ [messages] }
      | .error e =>
        { w with connection := if w.connection.isConnected then afterCall w.connection closing
            else w.connection }.fault e

def exec (codec : MsgPack) (w : ClientWorker) : WorkerStep → Option ClientWorker
  | .receive reception closing =>
    match w.stage with
    | .waiting => some (w.receive .waited (hear codec) reception closing)
    | .reading => some (w.receive (.answering []) (dispatch codec) reception closing)
    | _ => none
  | .clock timeUp =>
    match w.stage with
    | .waited => some { w with stage := if timeUp then .returned .noHello else .waiting }
    | _ => none
  | .loopCondition =>
    match w.stage with
    | .serving =>
      some { w with stage := if w.connection.isConnected then .reading else .returned .loopEnded }
    | _ => none
  | .send messagesOut writes closing =>
    match w.stage with
    | .greeted => w.send [createAck] writes closing
    | .answering sendMessages => w.send (sendMessages ++ messagesOut) writes closing
    | _ => none
  | .shutdown => some { w with connection := w.connection.shutdown }

def isReturned (w : ClientWorker) : Bool :=
  match w.stage with
  | .returned _ => true
  | _ => false

end ClientWorker

/-- A worker, whatever its peer and the manager do. -/
def clientWorker (codec : MsgPack) : LabelledSystem ClientWorker WorkerStep where
  init w := w = .start
  step w l w' := w.exec codec l = some w'

/-- `cleanup_connections`. -/
def cleanupConnections (activeConnections : List (ConnId × Connection)) :
    List (ConnId × Connection) :=
  activeConnections.filter fun client => client.2.isConnected

/-! ## The steps by which a worker gives its connection up -/

def Throws {α : Type} (result : Exec α) : Prop := ∃ e, result = .error (.thrown e)

/-- What came ends in an exception, given what the worker makes of a block. -/
def Reception.Fails (throws : MessageBlock → Prop) : Reception → Prop
  | .nothing => False
  | .block received => throws received
  | .failed => True

/-- The worker would not get past this block. -/
def WorkerStage.Unreadable (codec : MsgPack) : WorkerStage → MessageBlock → Prop
  | .waiting, block => Throws (readHello codec block)
  | .reading, block => Throws (receiveBlock codec block)
  | _, _ => False

def WorkerStage.toSend (messagesOut : List Message) : WorkerStage → List Message
  | .greeted => [createAck]
  | .answering sendMessages => sendMessages ++ messagesOut
  | _ => []

/-- The worker is about to return from a connection that nobody has closed: no HELLO
came in time, or what came cannot be read, or what it writes cannot be sent. -/
def ClientWorker.GivesUp (codec : MsgPack) (w : ClientWorker) : WorkerStep → Prop
  | .receive reception closing =>
    w.connection.isConnected = true ∧ closing = none ∧ reception.Fails (w.stage.Unreadable codec)
  | .clock timeUp => w.connection.isConnected = true ∧ timeUp = true
  | .send messagesOut writes closing =>
    w.connection.isConnected = true ∧ closing = none ∧ w.stage.toSend messagesOut ≠ [] ∧
      ∃ e, sendMessage writes = some (.error e)
  | _ => False

@[simp] theorem isConnected_afterCall (connection : Connection) (closing : Option Closing) :
    (afterCall connection closing).isConnected = (connection.isConnected && closing.isNone) := by
  cases closing with
  | none => exact (Bool.and_true _).symm
  | some closing =>
      rw [Option.isNone_some, Bool.and_false]
      cases closing with
      | byPeer => simp [afterCall, Closing.close, Connection.isConnected]
      | byManager => rfl

namespace ClientWorker

@[simp] theorem connection_fault (w : ClientWorker) (f : Fault) :
    (w.fault f).connection = w.connection := by
  cases f <;> rfl

theorem isReturned_fault {α : Type} (w : ClientWorker) (f : Fault) :
    (w.fault f).isReturned = true ↔ Throws (.error f : Exec α) := by
  cases f with
  | thrown e => exact ⟨fun _ => ⟨e, rfl⟩, fun _ => rfl⟩
  | assertion => simp [fault, isReturned, Throws]

/-- A block that ends the worker is one that throws. -/
theorem isReturned_hear (codec : MsgPack) (block : MessageBlock) (w : ClientWorker) :
    (w.hear codec block).connection = w.connection ∧
      ((w.hear codec block).isReturned = true ↔ WorkerStage.waiting.Unreadable codec block) := by
  rw [hear, WorkerStage.Unreadable]
  cases hhello : readHello codec block with
  | ok userName =>
      cases userName with
      | none => simp [isReturned, Throws]
      | some userName => simp [isReturned, Throws]
  | error e => exact ⟨connection_fault w e, isReturned_fault w e⟩

theorem isReturned_dispatch (codec : MsgPack) (block : MessageBlock) (w : ClientWorker) :
    (w.dispatch codec block).connection = w.connection ∧
      ((w.dispatch codec block).isReturned = true ↔
        WorkerStage.reading.Unreadable codec block) := by
  rw [dispatch, WorkerStage.Unreadable]
  cases hreceived : receiveBlock codec block with
  | ok received => simp [isReturned, Throws]
  | error e => exact ⟨connection_fault w e, isReturned_fault w e⟩

/-- A worker that returns from `receive` leaves the connection active exactly when it was
active, stayed so, and what came could not be read. -/
theorem isConnected_receive {w : ClientWorker} {silent : WorkerStage}
    {onBlock : MessageBlock → ClientWorker → ClientWorker} {throws : MessageBlock → Prop}
    (hblock : ∀ block w, (onBlock block w).connection = w.connection ∧
      ((onBlock block w).isReturned = true ↔ throws block))
    (hsilent : ∀ how, silent ≠ .returned how) {reception : Reception} {closing : Option Closing}
    (hreturned : (w.receive silent onBlock reception closing).isReturned = true) :
    (w.receive silent onBlock reception closing).connection.isConnected = true ↔
      w.connection.isConnected = true ∧ closing = none ∧ reception.Fails throws := by
  rw [receive] at hreturned ⊢
  cases hconnected : w.connection.isConnected with
  | false => simp [hconnected]
  | true =>
      rw [hconnected, if_pos rfl] at hreturned
      rw [if_pos rfl]
      cases reception with
      | nothing =>
          cases silent with
          | returned how => exact absurd rfl (hsilent how)
          | _ => cases hreturned
      | block block =>
          obtain ⟨hsame, hthrows⟩ := hblock block { w with
            connection := afterCall w.connection closing }
          simp only at hreturned ⊢
          rw [hsame, isConnected_afterCall, hconnected, Bool.true_and, Option.isNone_iff_eq_none]
          exact ⟨fun h => ⟨trivial, h, hthrows.mp hreturned⟩, fun h => h.2.1⟩
      | failed =>
          simp only [connection_fault, isConnected_afterCall, hconnected, Bool.true_and,
            Option.isNone_iff_eq_none, Reception.Fails, and_true, true_and]

theorem isConnected_send {w w' : ClientWorker} {messages : List Message}
    {writes : List WriteResult} {closing : Option Closing}
    (hsend : w.send messages writes closing = some w') (hreturned : w'.isReturned = true) :
    w'.connection.isConnected = true ↔
      w.connection.isConnected = true ∧ closing = none ∧ messages ≠ [] ∧
        ∃ e, sendMessage writes = some (.error e) := by
  rw [send] at hsend
  by_cases hmessages : messages = []
  · rw [if_pos hmessages] at hsend
    cases hsend
    cases hreturned
  rw [if_neg hmessages] at hsend
  obtain ⟨result, hresult, hw'⟩ := Option.map_eq_some_iff.mp hsend
  rw [Connection.sendMessageBlock] at hresult
  cases hconnected : w.connection.isConnected with
  | false =>
      rw [hconnected] at hresult
      cases hresult
      cases hw'
      simp [hconnected, throw, throwThe, MonadExceptOf.throw]
  | true =>
      rw [hconnected, if_pos rfl] at hresult
      obtain ⟨sent, hwrites, rfl⟩ := Option.map_eq_some_iff.mp hresult
      cases sent with
      | ok _ =>
          cases hw'
          cases hreturned
      | error e =>
          cases hw'
          have hfails : ∃ e', sendMessage writes = some (.error e') := ⟨e, hwrites⟩
          simp [hconnected, hfails, hmessages, Except.mapError]

/-- **Exactly the steps that give up end the worker with its connection active.** -/
theorem isConnected_exec {codec : MsgPack} {w w' : ClientWorker} {l : WorkerStep}
    (hexec : w.exec codec l = some w') (hrunning : w.isReturned = false)
    (hreturned : w'.isReturned = true) :
    w'.connection.isConnected = true ↔ w.GivesUp codec l := by
  obtain ⟨stage, connection, userName, messagesIn, sent⟩ := w
  cases l with
  | receive reception closing =>
      cases stage with
      | waiting =>
          have hidle : ∀ how, WorkerStage.waited ≠ .returned how := by
            intro how h
            cases h
          rw [exec] at hexec
          obtain rfl := Option.some.inj hexec
          rw [isConnected_receive (isReturned_hear codec) hidle hreturned, GivesUp]
      | reading =>
          have hidle : ∀ how, WorkerStage.answering [] ≠ .returned how := by
            intro how h
            cases h
          rw [exec] at hexec
          obtain rfl := Option.some.inj hexec
          rw [isConnected_receive (isReturned_dispatch codec) hidle hreturned, GivesUp]
      | _ => cases hexec
  | clock timeUp =>
      cases stage with
      | waited =>
          cases hexec
          cases timeUp with
          | true => exact (and_iff_left rfl).symm
          | false => cases hreturned
      | _ => cases hexec
  | loopCondition =>
      cases stage with
      | serving =>
          cases hexec
          cases hconnected : connection.isConnected with
          | true => simp [isReturned, hconnected] at hreturned
          | false => simp [GivesUp]
      | _ => cases hexec
  | send messagesOut writes closing =>
      cases stage with
      | greeted => exact isConnected_send hexec hreturned
      | answering sendMessages => exact isConnected_send hexec hreturned
      | _ => cases hexec
  | shutdown =>
      cases hexec
      exact absurd (hrunning.symm.trans hreturned) Bool.false_ne_true

/-- A worker that has returned stays returned, and its connection closed. -/
theorem exec_of_returned {codec : MsgPack} {w w' : ClientWorker} {l : WorkerStep}
    (hexec : w.exec codec l = some w') (hreturned : w.isReturned = true)
    (hclosed : w.connection.isConnected = false) : w'.connection.isConnected = false := by
  obtain ⟨stage, connection, userName, messagesIn, sent⟩ := w
  cases stage with
  | returned how =>
      cases l with
      | shutdown =>
          cases hexec
          exact Connection.isConnected_shutdown connection
      | _ => cases hexec
  | _ => cases hreturned

end ClientWorker

variable {codec : MsgPack} {w : ClientWorker}

theorem not_mem_cleanupConnections {connection : Connection}
    (hclosed : connection.isConnected = false) (client : ConnId)
    (activeConnections : List (ConnId × Connection)) :
    (client, connection) ∉ cleanupConnections activeConnections := by
  intro hmem
  have hconnected := (List.mem_filter.mp hmem).2
  exact Bool.false_ne_true (hclosed.symm.trans hconnected)

/-- **A worker that has returned leaves a connection that is no longer active**, in every run
in which it does not give up.  The next `cleanup_connections` takes it out; then nobody holds
it, and a tick of the server queues nothing to it. -/
theorem clientWorker_disconnected
    (h : (clientWorker codec).Reachable (fun w l => ¬ w.GivesUp codec l) w)
    (hreturned : w.isReturned = true) :
    w.connection.isConnected = false ∧ ∀ client activeConnections,
      (client, w.connection) ∉ cleanupConnections activeConnections ∧
      ∀ initialRooms server lives t server', Reachable initialRooms server lives →
        (∀ connection, (client, connection) ∈ activeConnections → connection = w.connection) →
        t.clients = (cleanupConnections activeConnections).map Prod.fst →
        t.expired client = true → server.tick t = .ok server' →
        server'.messagesOut client = server.messagesOut client := by
  have hclosed : w.isReturned = true → w.connection.isConnected = false := by
    refine h.invariant ?_ ?_
    · rintro w rfl hreturned
      cases hreturned
    · rintro w l w' - hw hkeeps hexec hreturned
      cases hrunning : w.isReturned with
      | true => exact ClientWorker.exec_of_returned hexec hrunning (hw hrunning)
      | false =>
          rw [← Bool.not_eq_true, ClientWorker.isConnected_exec hexec hrunning hreturned]
          exact hkeeps
  refine ⟨hclosed hreturned, fun client activeConnections => ?_⟩
  have hout := not_mem_cleanupConnections (hclosed hreturned) client activeConnections
  refine ⟨hout, fun initialRooms server lives t server' hserver hone hclients hexpired hok => ?_⟩
  refine tick_messagesOut_of_gone hserver.tracks (fun hmem => hout ?_) hexpired hok
  -- the only entry of this client was taken out
  rw [hclients] at hmem
  obtain ⟨⟨_, connection⟩, hkept, rfl⟩ := List.mem_map.mp hmem
  obtain rfl := hone connection (List.mem_filter.mp hkept).1
  exact hkept

instance {α : Type} : (result : Exec α) → Decidable (Throws result)
  | .ok _ => .isFalse (by rintro ⟨e, ⟨⟩⟩)
  | .error (.thrown e) => .isTrue ⟨e, rfl⟩
  | .error .assertion => .isFalse (by rintro ⟨e, ⟨⟩⟩)

instance (throws : MessageBlock → Prop) [DecidablePred throws] :
    (reception : Reception) → Decidable (reception.Fails throws)
  | .nothing => .isFalse id
  | .block received => inferInstanceAs (Decidable (throws received))
  | .failed => .isTrue trivial

instance (codec : MsgPack) (block : MessageBlock) :
    (stage : WorkerStage) → Decidable (stage.Unreadable codec block)
  | .waiting => inferInstanceAs (Decidable (Throws _))
  | .reading => inferInstanceAs (Decidable (Throws _))
  | .waited | .greeted | .serving | .answering _ | .returned _ | .aborted => .isFalse id

instance : (result : Option (Except SslError Unit)) → Decidable (∃ e, result = some (.error e))
  | some (.error e) => .isTrue ⟨e, rfl⟩
  | some (.ok _) => .isFalse (by rintro ⟨e, ⟨⟩⟩)
  | none => .isFalse (by rintro ⟨e, ⟨⟩⟩)

instance (codec : MsgPack) (w : ClientWorker) :
    (l : WorkerStep) → Decidable (w.GivesUp codec l)
  | .receive _ _ => inferInstanceAs (Decidable (_ ∧ _ ∧ Reception.Fails _ _))
  | .clock _ => inferInstanceAs (Decidable (_ ∧ _))
  | .send _ _ _ => inferInstanceAs (Decidable (_ ∧ _ ∧ _ ≠ _ ∧ ∃ _, _))
  | .loopCondition => .isFalse id
  | .shutdown => .isFalse id

/-- The bytes of an array with the HELLO of ann. -/
def helloBytes : Bytes :=
  [0x91, 0x82, 0xac, 0x6d, 0x65, 0x73, 0x73, 0x61, 0x67, 0x65, 0x5f, 0x74, 0x79, 0x70, 0x65,
    0xcd, 0x20, 0x00, 0xa6, 0x76, 0x61, 0x6c, 0x75, 0x65, 0x73, 0x81, 0xa9, 0x75, 0x73, 0x65,
    0x72, 0x5f, 0x6e, 0x61, 0x6d, 0x65, 0xa3, 0x61, 0x6e, 0x6e]

def helloCodec : MsgPack :=
  tableCodec [(helloBytes, .array [.object [("message_type", .integer 0x2000),
    ("values", .object [("user_name", .string "ann")])]])]

/-- ann says HELLO, gets her ACK, and hangs up. -/
theorem clientWorker_disconnected_ann : ∃ w : ClientWorker,
    w.connectedUserName = "ann" ∧ w.isReturned = true ∧ w.connection.isConnected = false := by
  obtain ⟨w, hw, htest⟩ := (clientWorker helloCodec).exists_of_execute
    (fun w l => ¬ w.GivesUp helloCodec l) (fun _ _ _ h => h) rfl
    [.receive (.block (.setPayload helloBytes)) none, .send [] [.retry, .written] none,
      .loopCondition, .receive .nothing (some .byPeer), .send [] [] none, .loopCondition]
    (fun w => w.connectedUserName = "ann" ∧ w.isReturned = true) (by decide +kernel)
  obtain ⟨hname, hreturned⟩ := of_decide_eq_true htest
  exact ⟨w, hname, hreturned, (clientWorker_disconnected hw hreturned).1⟩

/-- Nobody says HELLO, and nobody hangs up: the connection stays. -/
theorem clientWorker_leaves_connection : ∃ w : ClientWorker,
    (clientWorker helloCodec).Reachable LabelledSystem.anyStep w ∧
      w.stage = .returned .noHello ∧ w.connection.isConnected = true ∧
      cleanupConnections [(1, w.connection)] = [(1, w.connection)] := by
  refine ⟨{ ClientWorker.start with stage := .returned .noHello }, ?_, rfl, rfl, rfl⟩
  refine .step (.clock true) (.step (.receive .nothing none) (.init rfl) trivial rfl) trivial ?_
  rfl

end Tavernmx.Server
