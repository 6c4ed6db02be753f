/-
# `Tavernmx.Shared.Packing` — messages in blocks, and out of them again

A block carries the MessagePack of a JSON array with one object for each message.
`unpackMessages` reads the array back with the const `operator[]`, which has no
defined result when a member is missing; `readOutcome` says for one element of
the array what that comes to.

`dispatchMessage` is the `switch` that the workers on both sides of a connection
apply to every message they unpack.
-/
import Tavernmx.Shared.Block
import Tavernmx.Shared.Messaging

namespace Tavernmx.Messaging

open MessageBlock

/-! ## Packing and unpacking -/

section Codec
variable (codec : MsgPack)

/-- `pack_messages(begin, end)`. -/
def packMessages (messages : List Message) : MessageBlock :=
  setPayload (codec.toMsgpack (.array (messages.map messageToJson)))

/-- `unpack_messages`. -/
def unpackMessages (block : MessageBlock) : Exec (List Message) :=
  if block.payloadSize < 1 then pure []
  else do
    let groupJson ← codec.fromMsgpack block.payload
    match groupJson with
    | .array items => items.mapM messageOfJson
    | _ => pure []

end Codec

theorem mapM_messageOfJson : ∀ messages : List Message,
    (messages.map messageToJson).mapM messageOfJson = .ok messages
  | [] => rfl
  | message :: messages => by
      rw [List.map_cons, List.mapM_cons, messageOfJson_messageToJson, mapM_messageOfJson messages]
      rfl

/-- **Unpacking undoes packing**, unless the length of the payload is 0 in the size field
and there was something to unpack. -/
theorem unpackMessages_packMessages_iff {codec : MsgPack} (hcodec : codec.Lossless)
    (messages : List Message) :
    unpackMessages codec (packMessages codec messages) = .ok messages ↔
      messages = [] ∨
        ¬ 2 ^ 32 ∣ (codec.toMsgpack (.array (messages.map messageToJson))).length := by
  have hpayload : (packMessages codec messages).payload
      = codec.toMsgpack (.array (messages.map messageToJson)) := rfl
  have hsize : (packMessages codec messages).payloadSize < 1 ↔
      2 ^ 32 ∣ (codec.toMsgpack (.array (messages.map messageToJson))).length := by
    rw [UInt32.lt_iff_toNat_lt]
    show (UInt32.ofNat (codec.toMsgpack _).length).toNat < 1 ↔ _
    rw [UInt32.toNat_ofNat', Nat.lt_one_iff]
    exact (Nat.dvd_iff_mod_eq_zero ..).symm
  rw [unpackMessages]
  by_cases hzero : 2 ^ 32 ∣ (codec.toMsgpack (.array (messages.map messageToJson))).length
  · rw [if_pos (hsize.mpr hzero)]
    have hlost : (pure [] : Exec (List Message)) = .ok messages ↔ messages = [] := by
      simp [pure, Except.pure, eq_comm]
    rw [hlost]
    exact ⟨Or.inl, fun h => h.resolve_right (not_not.mpr hzero)⟩
  · rw [if_neg (fun hlt => hzero (hsize.mp hlt)), hpayload, hcodec.from_to]
    exact iff_of_true (mapM_messageOfJson messages) (Or.inr hzero)

/-- In particular, for a block that can be sent. -/
theorem unpackMessages_packMessages {codec : MsgPack} (hcodec : codec.Lossless)
    {messages : List Message} (hlen : (packBlock (packMessages codec messages)).length < 2 ^ 31) :
    unpackMessages codec (packMessages codec messages) = .ok messages := by
  rw [length_packBlock] at hlen
  have hpos := List.length_pos_iff.mpr (hcodec.to_ne_nil (.array (messages.map messageToJson)))
  have hshort : (codec.toMsgpack (.array (messages.map messageToJson))).length + 8 < 2 ^ 31 := by
    rw [Nat.add_comm]
    exact hlen
  refine (unpackMessages_packMessages_iff hcodec messages).mpr (Or.inr fun hdvd => ?_)
  have := Nat.le_of_dvd hpos hdvd
  omega

/-! ## Elements of an array that a peer chose -/

/-- How reading one element of the array ends. -/
inductive ReadOutcome where
  | message (code : Int32)
  | throws
  | undefined
  deriving DecidableEq, Repr

def ReadOutcome.isMessage : ReadOutcome → Bool
  | .message _ => true
  | _ => false

/-- The outcome, from the shape of the element: what is not an object throws, a
missing key is undefined, a type that is no number throws, and one that is a double
outside `int32_t` is undefined. -/
def readOutcome (element : Json) : ReadOutcome :=
  match element with
  | .object members =>
    match members.lookup "message_type", members.lookup "values" with
    | none, _ => .undefined
    | some (.integer n), some _ => .message (.ofInt n)
    | some (.float bits), some _ =>
      if Json.fitsInt32 bits then .message (.ofInt (Json.truncDouble bits)) else .undefined
    | some (.integer _), none | some (.float _), none => .undefined
    | some _, _ => .throws
  | _ => .throws

theorem messageOfJson_outcome (element : Json) :
    match readOutcome element with
    | .message code => ∃ values, messageOfJson element = .ok ⟨.ofCode code, values⟩
    | .throws => messageOfJson element = .error (.thrown .typeError)
    | .undefined => messageOfJson element = .error .assertion := by
  cases element with
  | object members =>
      cases htype : members.lookup "message_type" with
      | none => simp [readOutcome, messageOfJson, Json.subscript, htype, bind, Except.bind,
          throw, throwThe, MonadExceptOf.throw]
      | some type =>
          cases hvalues : members.lookup "values" with
          | none =>
              cases type with
              | float bits =>
                  cases hfits : Json.fitsInt32 bits <;>
                    simp [readOutcome, messageOfJson, Json.subscript, Json.getEnum,
                      Json.castDouble, hfits, htype, hvalues, bind, Except.bind, pure,
                      Except.pure, throw, throwThe, MonadExceptOf.throw]
              | _ =>
                  simp [readOutcome, messageOfJson, Json.subscript, Json.getEnum, htype,
                    hvalues, bind,
                    Except.bind, pure, Except.pure, throw, throwThe, MonadExceptOf.throw]
          | some values =>
              cases type with
              | float bits =>
                  cases hfits : Json.fitsInt32 bits <;>
                    simp [readOutcome, messageOfJson, Json.subscript, Json.getEnum,
                      Json.castDouble, hfits, htype, hvalues, bind, Except.bind, pure,
                      Except.pure, throw, throwThe, MonadExceptOf.throw]
              | _ =>
                  simp [readOutcome, messageOfJson, Json.subscript, Json.getEnum, htype,
                    hvalues, bind,
                    Except.bind, pure, Except.pure, throw, throwThe, MonadExceptOf.throw]
  | _ => rfl

/-! ## Dispatching -/

/-- The types that a worker queues for its consumer. -/
def MessageType.isQueued : MessageType → Bool
  | .heartbeat | .ack | .nak | .invalid => false
  | _ => true

/-- What became of the messages of a block. -/
structure Received where
  messagesIn : List Message
  sendMessages : List Message

/-- The `switch` on one unpacked message. -/
def dispatchMessage (received : Received) (message : Message) : Exec Received :=
  match message.messageType with
  | .heartbeat => pure { received with sendMessages := received.sendMessages ++ [createAck] }
  | .ack | .nak => pure received
  | .invalid => throw .assertion
  | _ => pure { received with messagesIn := received.messagesIn ++ [message] }

theorem dispatchMessage_queued {received : Received} {message : Message}
    (h : message.messageType.isQueued) : dispatchMessage received message
      = .ok { received with messagesIn := received.messagesIn ++ [message] } := by
  unfold dispatchMessage
  revert h
  cases message.messageType <;> intro h <;> first | rfl | cases h

/-- A batch without an invalid message: what is queued, and one ACK for each HEARTBEAT. -/
theorem dispatchMessages_ok : ∀ (messages : List Message) (received : Received),
    (∀ message ∈ messages, message.messageType ≠ .invalid) →
    messages.foldlM dispatchMessage received = .ok
      ⟨received.messagesIn ++ messages.filter (·.messageType.isQueued),
        received.sendMessages ++
          List.replicate (messages.countP (·.messageType = .heartbeat)) createAck⟩
  | [], received, _ => by simp [pure, Except.pure]
  | message :: messages, received, h => by
      have hmessage := h message List.mem_cons_self
      have ih := fun received => dispatchMessages_ok messages received
        fun m hm => h m (List.mem_cons_of_mem _ hm)
      rw [List.foldlM_cons]
      by_cases hqueued : message.messageType.isQueued = true
      · have hheart : message.messageType ≠ .heartbeat :=
          fun ht => by rw [ht] at hqueued; cases hqueued
        rw [dispatchMessage_queued hqueued]
        simp only [bind, Except.bind, ih, List.filter_cons, hqueued, if_true, List.countP_cons,
          hheart, decide_false, Bool.false_eq_true, if_false, Nat.add_zero, List.append_assoc,
          List.singleton_append]
      · cases ht : message.messageType with
        | invalid => exact absurd ht hmessage
        | heartbeat =>
            simp only [dispatchMessage, ht, pure, Except.pure, bind, Except.bind, ih,
              List.filter_cons,
              List.countP_cons, MessageType.isQueued, decide_true, if_true,
              Bool.false_eq_true, if_false]
            rw [List.append_assoc, Nat.add_comm, List.replicate_add]
            rfl
        | ack | nak =>
            simp [dispatchMessage, ht, pure, Except.pure, bind, Except.bind, ih,
              MessageType.isQueued]
        | _ => simp [ht, MessageType.isQueued] at hqueued

/-- An invalid message in a batch ends the dispatch at the assertion. -/
theorem dispatchMessages_invalid : ∀ (messages : List Message) (received : Received),
    (∃ message ∈ messages, message.messageType = .invalid) →
    messages.foldlM dispatchMessage received = .error .assertion
  | [], _, h => by simp at h
  | message :: messages, received, h => by
      rw [List.foldlM_cons]
      cases hstep : dispatchMessage received message with
      | error e =>
          have : e = .assertion := by
            unfold dispatchMessage at hstep
            split at hstep <;> cases hstep
            rfl
          rw [this]
          rfl
      | ok next =>
          have hvalid : message.messageType ≠ .invalid := fun ht => by
            simp [dispatchMessage, ht, throw, throwThe, MonadExceptOf.throw] at hstep
          obtain ⟨other, hother, ht⟩ := h
          rcases List.mem_cons.mp hother with rfl | hmem
          · exact absurd ht hvalid
          · exact dispatchMessages_invalid messages next ⟨other, hmem, ht⟩

/-- Reading a block: it is unpacked, and its messages are dispatched. -/
def receiveBlock (codec : MsgPack) (block : MessageBlock) : Exec Received := do
  let messages ← unpackMessages codec block
  messages.foldlM dispatchMessage ⟨[], []⟩

end Tavernmx.Messaging
