/-
# `Tavernmx.Session.Delivery` — from one side's queue to the other side's

A connection after the handshake: on either side a worker that loops, between
them the blocks in flight in either direction.  One iteration of a loop is not
one step here, since the queues are filled by other threads meanwhile:

    receiving   takes the next block, if one has arrived, and dispatches it
    checking    the client looks at the clock
    draining    pops message after message from `messages_out`
    sending     packs the batch into one block, if it is not empty

`lane codec s side` is everything on its way from `side` to the other end, behind
what has arrived there: what entered the other `messages_in`, then the blocks in
flight, then the batch of the iteration, then the queue.  Every step but a push
leaves it as it is, the types that are not queued aside; that is `delivery`.

The transport delivers whole blocks, in order.  It carries what `BIO_write` can
be given, less than 2^31 bytes.
-/
import Tavernmx.Client.MessageWorker
import Tavernmx.Lib.Runs
import Tavernmx.Session.SampleCodec

namespace Tavernmx.Session

open Messaging Client

/-! ## The two ends and the wire -/

inductive Side where
  | server
  | client
  deriving DecidableEq, Repr

def Side.other : Side → Side
  | server => client
  | client => server

@[simp] theorem Side.other_other (side : Side) : side.other.other = side := by cases side <;> rfl

@[simp] theorem Side.other_ne (side : Side) : side.other ≠ side := by cases side <;> decide

@[simp] theorem Side.ne_other (side : Side) : side ≠ side.other := by cases side <;> decide

/-- Where a worker is in its loop. -/
inductive Phase where
  | receiving
  | checking
  | draining
  | sending
  | stopped
  deriving DecidableEq, Repr

/-- One side's worker and its queues. -/
structure Endpoint where
  messagesOut : List Message
  /-- `send_messages` of the iteration. -/
  batch : List Message
  phase : Phase
  /-- The client's clock variables. -/
  timer : Option QuietTimer
  /-- Everything that was put into `messages_in`. -/
  entered : List Message
  /-- Everything this side was given to send. -/
  pushed : List Message
  /-- Everything that was popped from `messages_out`. -/
  popped : List Message
  /-- Everything that was handed to the transport. -/
  sent : List Message
  /-- How many HEARTBEATs were received. -/
  heartbeats : Nat

namespace Endpoint

/-- A push into `messages_out`, by another thread. -/
def push (message : Message) (e : Endpoint) : Endpoint :=
  { e with messagesOut := e.messagesOut ++ [message], pushed := e.pushed ++ [message] }

/-- Step 1 with a block, of which `messages` were unpacked. -/
def receive (messages : List Message) (received : Received) (now : Int) (e : Endpoint) : Endpoint :=
  { e with
    batch := received.sendMessages
    phase := .checking
    timer := e.timer.map fun _ => .heard now
    entered := e.entered ++ received.messagesIn
    heartbeats := e.heartbeats + messages.countP (·.messageType = .heartbeat) }

/-- Step 1 without a block. -/
def receiveNothing (e : Endpoint) : Endpoint := { e with batch := [], phase := .checking }

/-- The client's step 2; the server has none. -/
def check (now now' : Int) (e : Endpoint) : Endpoint :=
  match e.timer with
  | none => { e with phase := .draining }
  | some timer =>
    match timer.check now now' with
    | some (timer, messages) =>
        { e with timer := some timer, batch := e.batch ++ messages, phase := .draining }
    | none => { e with phase := .stopped }

/-- One `messages_out.pop()` that returns `message`. -/
def pop (message : Message) (rest : List Message) (e : Endpoint) : Endpoint :=
  { e with
    messagesOut := rest
    batch := e.batch ++ [message]
    popped := e.popped ++ [message] }

/-- The batch is handed over, and the next iteration begins. -/
def sendBatch (e : Endpoint) : Endpoint :=
  { e with batch := [], phase := .receiving, sent := e.sent ++ e.batch }

end Endpoint

/-- The two ends of a connection, and what is between them. -/
structure Link where
  endpoint : Side → Endpoint
  /-- The blocks that a side sent and the other has not received. -/
  wire : Side → List MessageBlock

/-- A side changes, the wire does not. -/
def Link.setEndpoint (s : Link) (side : Side) (e : Endpoint) : Link :=
  { s with endpoint := Function.update s.endpoint side e }

/-- The steps of the worker on `side`, and of the threads that fill its queue. -/
inductive Step (codec : MsgPack) : Link → Side → Link → Prop where
  | push {s : Link} {side : Side} (message : Message) :
      Step codec s side (s.setEndpoint side ((s.endpoint side).push message))
  | receive {s : Link} {side : Side} {block : MessageBlock} {rest : List MessageBlock}
      {messages : List Message} {received : Received} (now : Int)
      (hphase : (s.endpoint side).phase = .receiving) (hwire : s.wire side.other = block :: rest)
      (hunpack : unpackMessages codec block = .ok messages)
      (hdispatch : messages.foldlM dispatchMessage ⟨[], []⟩ = .ok received) :
      Step codec s side
        ⟨Function.update s.endpoint side ((s.endpoint side).receive messages received now),
          Function.update s.wire side.other rest⟩
  | receiveNothing {s : Link} {side : Side} (hphase : (s.endpoint side).phase = .receiving) :
      Step codec s side (s.setEndpoint side (s.endpoint side).receiveNothing)
  | check {s : Link} {side : Side} (now now' : Int)
      (hphase : (s.endpoint side).phase = .checking) :
      Step codec s side (s.setEndpoint side ((s.endpoint side).check now now'))
  | pop {s : Link} {side : Side} {message : Message} {rest : List Message}
      (hphase : (s.endpoint side).phase = .draining)
      (hqueue : (s.endpoint side).messagesOut = message :: rest) :
      Step codec s side (s.setEndpoint side ((s.endpoint side).pop message rest))
  | popNothing {s : Link} {side : Side} (hphase : (s.endpoint side).phase = .draining)
      (hqueue : (s.endpoint side).messagesOut = []) :
      Step codec s side (s.setEndpoint side { s.endpoint side with phase := .sending })
  | sendNothing {s : Link} {side : Side} (hphase : (s.endpoint side).phase = .sending)
      (hbatch : (s.endpoint side).batch = []) :
      Step codec s side (s.setEndpoint side (s.endpoint side).sendBatch)
  | send {s : Link} {side : Side} (hphase : (s.endpoint side).phase = .sending)
      (hbatch : (s.endpoint side).batch ≠ [])
      (hlen : (packBlock (packMessages codec (s.endpoint side).batch)).length < 2 ^ 31) :
      Step codec s side
        ⟨Function.update s.endpoint side (s.endpoint side).sendBatch,
          Function.update s.wire side
            (s.wire side ++ [packMessages codec (s.endpoint side).batch])⟩

/-- A worker at the start of its loop, with `messagesOut` in its queue. -/
def Endpoint.start (messagesOut : List Message) (timer : Option QuietTimer)
    (opening : List Message) :
    Endpoint :=
  { messagesOut, timer, batch := [], phase := .receiving, entered := [],
    pushed := opening ++ messagesOut, popped := [], sent := opening, heartbeats := 0 }

/-- After the handshake.  The client has sent its request for the rooms; it is the
first of the messages this side was given to send. -/
def Link.Starts (codec : MsgPack) (s : Link) : Prop :=
  ∃ (serverOut clientOut : List Message) (now : Int),
    s.endpoint .server = .start serverOut none [] ∧
    s.endpoint .client = .start clientOut (some (.heard now)) [createRoomListRequest] ∧
    s.wire .server = [] ∧ s.wire .client = [packMessages codec [createRoomListRequest]] ∧
    (packBlock (packMessages codec [createRoomListRequest])).length < 2 ^ 31

/-- The two workers over their connection. -/
def connection (codec : MsgPack) : LabelledSystem Link Side where
  init := Link.Starts codec
  step := Step codec

/-! ## What is on its way -/

/-- The messages in a block. -/
def contents (codec : MsgPack) (block : MessageBlock) : List Message :=
  match unpackMessages codec block with
  | .ok messages => messages
  | .error _ => []

/-- The messages that the other side will queue. -/
def queued (messages : List Message) : List Message := messages.filter (·.messageType.isQueued)

@[simp] theorem queued_append (ms ms' : List Message) :
    queued (ms ++ ms') = queued ms ++ queued ms' :=
  List.filter_append ..

/-- What is not at the other end yet: in flight, in the batch, in the queue. -/
def onTheWay (codec : MsgPack) (s : Link) (side : Side) : List Message :=
  (s.wire side).flatMap (contents codec) ++ (s.endpoint side).batch ++ (s.endpoint side).messagesOut

/-- What has arrived from `side`, and what follows. -/
def lane (codec : MsgPack) (s : Link) (side : Side) : List Message :=
  (s.endpoint side.other).entered ++ queued (onTheWay codec s side)

def acks (messages : List Message) : Nat := messages.countP (·.messageType = .ack)

@[simp] theorem acks_append (ms ms' : List Message) : acks (ms ++ ms') = acks ms + acks ms' :=
  List.countP_append ..

/-- What holds of the messages from `side` in every state. -/
structure Delivers (codec : MsgPack) (s : Link) (side : Side) : Prop where
  conserved : lane codec s side = queued (s.endpoint side).pushed
  packed : ∀ block ∈ s.wire side, ∃ messages, block = packMessages codec messages ∧
    (packBlock block).length < 2 ^ 31
  idle : (s.endpoint side).phase = .receiving → (s.endpoint side).batch = []
  answered : acks ((s.endpoint side).sent ++ (s.endpoint side).batch)
    = acks (s.endpoint side).popped + (s.endpoint side).heartbeats
  entered : ∀ message ∈ (s.endpoint side).entered, message.messageType.isQueued

/-! ## Steps that stay on one side -/

/-- What such a step has to keep. -/
structure LocalStep (e e' : Endpoint) : Prop where
  entered : e'.entered = e.entered
  conserved : ∃ new, queued e'.pushed = queued e.pushed ++ new ∧
    queued (e'.batch ++ e'.messagesOut) = queued (e.batch ++ e.messagesOut) ++ new
  idle : e'.phase = .receiving → e'.batch = []
  answered : acks (e.sent ++ e.batch) = acks e.popped + e.heartbeats →
    acks (e'.sent ++ e'.batch) = acks e'.popped + e'.heartbeats

variable {codec : MsgPack} {s s' : Link} {side actor : Side}

theorem Delivers.setEndpoint (h : Delivers codec s side) {e' : Endpoint}
    (hstep : LocalStep (s.endpoint actor) e') : Delivers codec (s.setEndpoint actor e') side := by
  by_cases hside : side = actor
  · subst hside
    have hself : (s.setEndpoint side e').endpoint side = e' := Function.update_self ..
    have hother : (s.setEndpoint side e').endpoint side.other = s.endpoint side.other :=
      Function.update_of_ne (Side.other_ne side) ..
    obtain ⟨new, hpushed, hlane⟩ := hstep.conserved
    refine ⟨?_, h.packed, by rw [hself]; exact hstep.idle,
      by rw [hself]; exact hstep.answered h.answered, ?_⟩
    · have hbefore := h.conserved
      rw [lane, onTheWay, List.append_assoc, queued_append] at hbefore ⊢
      rw [hself, hother, hlane, hpushed, ← hbefore]
      simp only [List.append_assoc]
      rfl
    · rw [hself, hstep.entered]
      exact h.entered
  · have hself : (s.setEndpoint actor e').endpoint side = s.endpoint side :=
      Function.update_of_ne hside ..
    have hother : side.other = actor := by
      cases side <;> cases actor <;> first | rfl | exact absurd rfl hside
    refine ⟨?_, h.packed, by rw [hself]; exact h.idle, by rw [hself]; exact h.answered,
      by rw [hself]; exact h.entered⟩
    have hentered : ((s.setEndpoint actor e').endpoint side.other).entered
        = (s.endpoint side.other).entered := by
      rw [hother]
      exact (congrArg Endpoint.entered (Function.update_self ..)).trans hstep.entered
    have hbefore := h.conserved
    rw [lane, onTheWay] at hbefore ⊢
    rw [hself, hentered]
    exact hbefore

theorem localStep_push {e : Endpoint} (hidle : e.phase = .receiving → e.batch = [])
    (message : Message) : LocalStep e (e.push message) :=
  ⟨rfl, ⟨queued [message], queued_append .., by
    show queued (e.batch ++ (e.messagesOut ++ [message])) = _
    rw [← List.append_assoc, queued_append]⟩, hidle, id⟩

theorem localStep_receiveNothing {e : Endpoint} (hbatch : e.batch = []) :
    LocalStep e e.receiveNothing :=
  ⟨rfl, ⟨[], by simp [Endpoint.receiveNothing], by simp [Endpoint.receiveNothing, hbatch]⟩,
    (fun h => by cases h), fun h => by simpa [Endpoint.receiveNothing, hbatch] using h⟩

theorem localStep_check {e : Endpoint} (now now' : Int) : LocalStep e (e.check now now') := by
  unfold Endpoint.check
  split
  · exact ⟨rfl, ⟨[], by simp, by simp⟩, (fun h => by cases h), id⟩
  · split
    next timer messages hcheck =>
      obtain ⟨hqueued, hacks⟩ := QuietTimer.check_sends hcheck
      refine ⟨rfl, ⟨[], by simp, ?_⟩, (fun h => by cases h), fun h => ?_⟩
      · show queued (e.batch ++ messages ++ e.messagesOut) = _
        rw [queued_append, queued_append, show queued messages = [] from hqueued]
        simp
      · show acks (e.sent ++ (e.batch ++ messages)) = _
        rw [← List.append_assoc, acks_append, show acks messages = 0 from hacks]
        exact h
    next => exact ⟨rfl, ⟨[], by simp, by simp⟩, (fun h => by cases h), id⟩

theorem localStep_pop {e : Endpoint} {message : Message} {rest : List Message}
    (hphase : e.phase = .draining) (hqueue : e.messagesOut = message :: rest) :
    LocalStep e (e.pop message rest) := by
  refine ⟨rfl, ⟨[], by simp [Endpoint.pop], ?_⟩, fun h => ?_, fun h => ?_⟩
  · show queued (e.batch ++ [message] ++ rest) = _
    rw [hqueue]
    simp
  · cases hphase.symm.trans h
  · show acks (e.sent ++ (e.batch ++ [message])) = acks (e.popped ++ [message]) + e.heartbeats
    rw [← List.append_assoc, acks_append, h, acks_append]
    omega

theorem localStep_popNothing {e : Endpoint} : LocalStep e { e with phase := .sending } :=
  ⟨rfl, ⟨[], by simp, by simp⟩, (fun h => by cases h), id⟩

theorem localStep_sendNothing {e : Endpoint} (hbatch : e.batch = []) : LocalStep e e.sendBatch :=
  ⟨rfl, ⟨[], by simp [Endpoint.sendBatch], by simp [Endpoint.sendBatch, hbatch]⟩, fun _ => rfl,
    fun h => by simpa [Endpoint.sendBatch, hbatch] using h⟩

/-! ## Steps over the wire -/

theorem contents_packMessages (hcodec : codec.Lossless) {messages : List Message}
    (hlen : (packBlock (packMessages codec messages)).length < 2 ^ 31) :
    contents codec (packMessages codec messages) = messages := by
  rw [contents, unpackMessages_packMessages hcodec hlen]

/-- Sending moves the batch to the wire. -/
theorem Delivers.send (hcodec : codec.Lossless) (h : Delivers codec s side)
    (hlen : (packBlock (packMessages codec (s.endpoint actor).batch)).length < 2 ^ 31) :
    Delivers codec ⟨Function.update s.endpoint actor (s.endpoint actor).sendBatch,
      Function.update s.wire actor (s.wire actor ++ [packMessages codec (s.endpoint actor).batch])⟩
      side := by
  by_cases hside : side = actor
  · subst hside
    refine ⟨?_, ?_, ?_, ?_, ?_⟩
    · have hbefore := h.conserved
      rw [lane, onTheWay] at hbefore ⊢
      simp only [Function.update_self, Function.update_of_ne (Side.other_ne side)]
      rw [List.flatMap_append, List.flatMap_singleton, contents_packMessages hcodec hlen]
      show _ ++ queued (_ ++ [] ++ (s.endpoint side).messagesOut) = queued (s.endpoint side).pushed
      rw [List.append_nil]
      exact hbefore
    · simp only [Function.update_self, List.mem_append, List.mem_singleton]
      rintro block (hblock | rfl)
      · exact h.packed block hblock
      · exact ⟨_, rfl, hlen⟩
    · simp only [Function.update_self]
      exact fun _ => rfl
    · simp only [Function.update_self]
      show acks (_ ++ _ ++ []) = _
      rw [List.append_nil]
      exact h.answered
    · simp only [Function.update_self]
      exact h.entered
  · have hother : side.other = actor := by
      cases side <;> cases actor <;> first | rfl | exact absurd rfl hside
    refine ⟨?_, ?_, ?_, ?_, ?_⟩
    · have hbefore := h.conserved
      rw [lane, onTheWay] at hbefore ⊢
      simp only [Function.update_of_ne hside, hother, Function.update_self]
      rw [hother] at hbefore
      exact hbefore
    all_goals simp only [Function.update_of_ne hside]
    · exact h.packed
    · exact h.idle
    · exact h.answered
    · exact h.entered

/-- What the dispatch of a batch leaves, when it does not fail. -/
theorem received_eq {messages : List Message} {received : Received}
    (h : messages.foldlM dispatchMessage ⟨[], []⟩ = .ok received) :
    received = ⟨queued messages,
      List.replicate (messages.countP (·.messageType = .heartbeat)) createAck⟩ := by
  by_cases hinvalid : ∃ message ∈ messages, message.messageType = .invalid
  · rw [dispatchMessages_invalid messages _ hinvalid] at h
    cases h
  · rw [dispatchMessages_ok messages _ fun m hm ht => hinvalid ⟨m, hm, ht⟩] at h
    exact (Except.ok.inj h).symm

theorem queued_replicate_ack (n : Nat) : queued (List.replicate n createAck) = [] := by
  rw [queued, List.filter_eq_nil_iff]
  intro message hmessage
  rw [List.eq_of_mem_replicate hmessage]
  decide

theorem acks_replicate_ack (n : Nat) : acks (List.replicate n createAck) = n := by
  rw [acks, List.countP_eq_length.mpr, List.length_replicate]
  intro message hmessage
  rw [List.eq_of_mem_replicate hmessage]
  decide

/-- Receiving moves a block from the wire into `messages_in`, and answers. -/
theorem Delivers.receive (h : Delivers codec s side) {block : MessageBlock}
    {rest : List MessageBlock}
    {messages : List Message} {received : Received} (now : Int)
    (hbatch : (s.endpoint actor).batch = []) (hwire : s.wire actor.other = block :: rest)
    (hunpack : unpackMessages codec block = .ok messages)
    (hdispatch : messages.foldlM dispatchMessage ⟨[], []⟩ = .ok received) :
    Delivers codec ⟨Function.update s.endpoint actor
      ((s.endpoint actor).receive messages received now),
      Function.update s.wire actor.other rest⟩ side := by
  obtain rfl := received_eq hdispatch
  by_cases hside : side = actor
  · subst hside
    refine ⟨?_, ?_, ?_, ?_, ?_⟩
    · have hbefore := h.conserved
      rw [lane, onTheWay, hbatch, List.append_nil] at hbefore
      rw [lane, onTheWay]
      simp only [Function.update_self, Function.update_of_ne (Side.other_ne side),
        Function.update_of_ne (Side.ne_other side)]
      show _ ++ queued (_ ++ List.replicate _ createAck ++ (s.endpoint side).messagesOut)
        = queued (s.endpoint side).pushed
      rw [← hbefore, queued_append, queued_append, queued_replicate_ack, List.append_nil,
        queued_append]
    · simp only [Function.update_of_ne (Side.ne_other side)]
      exact h.packed
    · simp only [Function.update_self]
      exact (fun h => by cases h)
    · have hanswered := h.answered
      rw [hbatch, List.append_nil] at hanswered
      simp only [Function.update_self]
      show acks ((s.endpoint side).sent ++ List.replicate _ createAck)
        = acks (s.endpoint side).popped + ((s.endpoint side).heartbeats + _)
      rw [acks_append, hanswered, acks_replicate_ack]
      omega
    · simp only [Function.update_self]
      intro message hmessage
      rcases List.mem_append.mp hmessage with hold | hnew
      · exact h.entered message hold
      · exact (List.mem_filter.mp hnew).2
  · have hother : side = actor.other := by
      cases side <;> cases actor <;> first | rfl | exact absurd rfl hside
    subst hother
    refine ⟨?_, ?_, ?_, ?_, ?_⟩
    · have hbefore := h.conserved
      have hcontents : contents codec block = messages := by rw [contents, hunpack]
      rw [lane, onTheWay, hwire, List.flatMap_cons, hcontents, Side.other_other] at hbefore
      rw [lane, onTheWay]
      simp only [Side.other_other, Function.update_self,
        Function.update_of_ne (Side.other_ne actor)]
      show (s.endpoint actor).entered ++ queued messages ++ _ = _
      rw [← hbefore]
      simp only [queued_append, List.append_assoc]
    · simp only [Function.update_self]
      exact fun b hb => h.packed b (hwire ▸ List.mem_cons_of_mem _ hb)
    all_goals simp only [Function.update_of_ne (Side.other_ne actor)]
    · exact h.idle
    · exact h.answered
    · exact h.entered

/-! ## Runs -/

theorem delivers_step (hcodec : codec.Lossless) (h : ∀ side, Delivers codec s side)
    (hstep : Step codec s actor s') : ∀ side, Delivers codec s' side := by
  intro side
  cases hstep with
  | push message => exact (h side).setEndpoint (localStep_push (h actor).idle message)
  | receive now hphase hwire hunpack hdispatch =>
      exact (h side).receive now ((h actor).idle hphase) hwire hunpack hdispatch
  | receiveNothing hphase =>
      exact (h side).setEndpoint (localStep_receiveNothing ((h actor).idle hphase))
  | check now now' _ => exact (h side).setEndpoint (localStep_check now now')
  | pop hphase hqueue => exact (h side).setEndpoint (localStep_pop hphase hqueue)
  | popNothing _ _ => exact (h side).setEndpoint localStep_popNothing
  | sendNothing _ hbatch => exact (h side).setEndpoint (localStep_sendNothing hbatch)
  | send _ _ hlen => exact (h side).send hcodec hlen

theorem delivers_start (hcodec : codec.Lossless) (h : s.Starts codec) (side : Side) :
    Delivers codec s side := by
  obtain ⟨serverOut, clientOut, now, hserver, hclient, hwireServer, hwireClient, hlen⟩ := h
  cases side with
  | server =>
      refine ⟨?_, by simp [hwireServer], by simp [hserver, Endpoint.start],
        by simp [hserver, Endpoint.start, acks], by simp [hserver, Endpoint.start]⟩
      rw [lane, onTheWay, hserver, hwireServer, show Side.server.other = .client from rfl, hclient]
      rfl
  | client =>
      refine ⟨?_, ?_, by simp [hclient, Endpoint.start], ?_, by simp [hclient, Endpoint.start]⟩
      · rw [lane, onTheWay, hclient, hwireClient,
          show Side.client.other = .server from rfl, hserver,
          List.flatMap_singleton, contents_packMessages hcodec hlen]
        rfl
      · intro block hblock
        rw [hwireClient, List.mem_singleton] at hblock
        exact ⟨_, hblock, hblock ▸ hlen⟩
      · rw [hclient]
        rfl

theorem delivers_reachable (hcodec : codec.Lossless)
    (h : (connection codec).Reachable LabelledSystem.anyStep s) :
    ∀ side, Delivers codec s side := by
  refine h.invariant ?_ ?_
  · intro t hstart
    exact delivers_start hcodec hstart
  · intro t actor t' _ ih _ hstep
    exact delivers_step hcodec ih hstep

/-- **What a side was given to send is what has entered the other side's
`messages_in`, followed by what is in flight, in the batch and in the queue**; one
ACK is sent for every HEARTBEAT received; and neither an ACK nor a NAK enters
`messages_in`. -/
theorem delivery (hcodec : codec.Lossless)
    (h : (connection codec).Reachable LabelledSystem.anyStep s) (side : Side) :
    (s.endpoint side.other).entered ++ queued (onTheWay codec s side)
      = queued (s.endpoint side).pushed ∧
    acks ((s.endpoint side).sent ++ (s.endpoint side).batch)
      = acks (s.endpoint side).popped + (s.endpoint side).heartbeats ∧
    ∀ message ∈ (s.endpoint side).entered,
      message.messageType ≠ .ack ∧ message.messageType ≠ .nak := by
  have hside := delivers_reachable hcodec h side
  refine ⟨hside.conserved, hside.answered, fun message hmessage => ?_⟩
  have hqueued := hside.entered message hmessage
  constructor
  · intro hack
    rw [hack] at hqueued
    cases hqueued
  · intro hnak
    rw [hnak] at hqueued
    cases hqueued

/-- After the handshake, with empty queues. -/
noncomputable def openedLink : Link where
  endpoint
    | .server => .start [] none []
    | .client => .start [] (some (.heard 0)) [createRoomListRequest]
  wire
    | .server => []
    | .client => [packMessages sampleCodec [createRoomListRequest]]

theorem openedLink_length :
    (packBlock (packMessages sampleCodec [createRoomListRequest])).length < 2 ^ 31 := by
  rw [length_packBlock]
  show 8 + (sampleBytes roomListArray).length < 2 ^ 31
  rw [sampleBytes_roomListArray]
  decide

theorem openedLink_starts : openedLink.Starts sampleCodec :=
  ⟨[], [], 0, rfl, rfl, rfl, rfl, openedLink_length⟩

/-- The server receives the request for the rooms. -/
theorem delivery_opening : ∃ s, (connection sampleCodec).Reachable LabelledSystem.anyStep s ∧
    (s.endpoint .server).entered = [createRoomListRequest] ∧
    (s.endpoint .server).entered ++ queued (onTheWay sampleCodec s .client)
      = queued (s.endpoint .client).pushed := by
  have hunpack := unpackMessages_packMessages sampleCodec_lossless openedLink_length
  have hdispatch : [createRoomListRequest].foldlM dispatchMessage ⟨[], []⟩
      = .ok ⟨[createRoomListRequest], []⟩ := rfl
  have hstart : (connection sampleCodec).Reachable LabelledSystem.anyStep openedLink :=
    .init openedLink_starts
  have hreach := hstart.step Side.server trivial (Step.receive 0 rfl rfl hunpack hdispatch)
  exact ⟨_, hreach, rfl, (delivery sampleCodec_lossless hreach .client).1⟩

end Tavernmx.Session
