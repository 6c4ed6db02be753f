/-
# `Tavernmx.Server.ClientWorker` — what a peer's bytes can do to a worker

`client_worker` unpacks every block it receives and dispatches the messages; an
exception ends the worker through its `catch` clause.  Three places are outside
that protection: the const `operator[]` on an object without the key, the cast of a
number that does not fit the type of a message, and the `assert(false)` on an invalid
message type.  The bytes of a block are the peer's, so the question is which payloads
stay clear of all three.

Of the MessagePack decoder it is assumed that it returns a value or throws.
-/
import Tavernmx.Shared.Packing

namespace Tavernmx.Server

open Messaging

/-- An element that is not read as a message. -/
def failsToRead (item : Json) : Bool := !(readOutcome item).isMessage

/-- The elements up to the first that is no message are read; what decides is
how that one fails or, if there is none, whether a type is 0. -/
def SafeElements (items : List Json) : Prop :=
  match items.find? failsToRead with
  | some item => readOutcome item = .throws
  | none => ∀ item ∈ items, readOutcome item ≠ .message 0

/-- The blocks that a worker survives, or leaves through an exception. -/
def SafeBlock (codec : MsgPack) (block : MessageBlock) : Prop :=
  block.payloadSize = 0 ∨
    ∀ items, codec.fromMsgpack block.payload = .ok (.array items) → SafeElements items

theorem readOutcome_of_not_fails {item : Json} (h : ¬ failsToRead item) :
    ∃ code, readOutcome item = .message code := by
  unfold failsToRead ReadOutcome.isMessage at h
  cases hread : readOutcome item with
  | message code => exact ⟨code, rfl⟩
  | throws => rw [hread] at h; simp at h
  | undefined => rw [hread] at h; simp at h

/-- Reading the array stops at the first element that fails. -/
theorem mapM_messageOfJson_fails {bad : Json} : ∀ {items : List Json},
    items.find? failsToRead = some bad →
    items.mapM messageOfJson
      = .error (if readOutcome bad = .throws then .thrown .typeError else .assertion)
  | [], h => by cases h
  | item :: items, h => by
      have hitem := messageOfJson_outcome item
      rw [List.mapM_cons]
      by_cases hfails : failsToRead item = true
      · rw [List.find?_cons_of_pos hfails] at h
        obtain rfl := Option.some.inj h
        cases hread : readOutcome item with
        | message code => simp [failsToRead, hread, ReadOutcome.isMessage] at hfails
        | throws =>
            rw [hread] at hitem
            simp [hitem, bind, Except.bind]
        | undefined =>
            rw [hread] at hitem
            simp [hitem, bind, Except.bind]
      · rw [List.find?_cons_of_neg hfails] at h
        obtain ⟨code, hread⟩ := readOutcome_of_not_fails hfails
        rw [hread] at hitem
        obtain ⟨values, hok⟩ := hitem
        rw [hok, mapM_messageOfJson_fails h]
        rfl

/-- If no element fails, the messages are invalid where a type is 0. -/
theorem mapM_messageOfJson_succeeds : ∀ {items : List Json}, items.find? failsToRead = none →
    ∃ messages, items.mapM messageOfJson = .ok messages ∧
      ((∃ message ∈ messages, message.messageType = .invalid) ↔
        ∃ item ∈ items, readOutcome item = .message 0)
  | [], _ => ⟨[], rfl, by simp⟩
  | item :: items, h => by
      have hitem := messageOfJson_outcome item
      have hnot : ¬ failsToRead item = true := by
        have := List.find?_eq_none.mp h item List.mem_cons_self
        exact this
      rw [List.find?_cons_of_neg hnot] at h
      obtain ⟨code, hread⟩ := readOutcome_of_not_fails hnot
      obtain ⟨messages, hmessages, hiff⟩ := mapM_messageOfJson_succeeds h
      rw [hread] at hitem
      obtain ⟨values, hok⟩ := hitem
      refine ⟨⟨.ofCode code, values⟩ :: messages, ?_, ?_⟩
      · rw [List.mapM_cons, hok, hmessages]
        rfl
      · simp only [List.mem_cons, exists_eq_or_imp, hiff, hread, ReadOutcome.message.injEq,
          MessageType.ofCode_eq_invalid_iff]

/-- **A block is unpacked and dispatched without touching an assertion or a missing
key exactly when its elements are safe.** -/
theorem receiveBlock_defined_iff {codec : MsgPack}
    (hcodec : ∀ bytes, codec.fromMsgpack bytes ≠ .error .assertion) (block : MessageBlock) :
    receiveBlock codec block ≠ .error .assertion ↔ SafeBlock codec block := by
  rw [SafeBlock, receiveBlock, unpackMessages]
  by_cases hsize : block.payloadSize < 1
  · have hzero : block.payloadSize = 0 := by
      rw [UInt32.lt_iff_toNat_lt] at hsize
      exact UInt32.toNat_inj.mp (Nat.lt_one_iff.mp hsize)
    simp [hzero, bind, Except.bind, pure, Except.pure]
  have hzero : block.payloadSize ≠ 0 := fun h => hsize (by rw [h]; decide)
  rw [if_neg hsize]
  simp only [hzero, false_or]
  cases hjson : codec.fromMsgpack block.payload with
  | error e =>
      have he : e ≠ .assertion := fun h => hcodec _ (h ▸ hjson)
      simpa [bind, Except.bind] using he
  | ok json =>
      simp only [bind, Except.bind]
      cases json with
      | array items =>
          simp only [Except.ok.injEq, Json.array.injEq, forall_eq', SafeElements]
          cases hfind : items.find? failsToRead with
          | some bad =>
              simp only [mapM_messageOfJson_fails hfind]
              by_cases hthrows : readOutcome bad = .throws <;> simp [hthrows]
          | none =>
              obtain ⟨messages, hmessages, hiff⟩ := mapM_messageOfJson_succeeds hfind
              simp only [hmessages]
              by_cases hinvalid : ∃ message ∈ messages, message.messageType = .invalid
              · rw [dispatchMessages_invalid messages _ hinvalid]
                obtain ⟨item, hitem, hcode⟩ := hiff.mp hinvalid
                simp only [ne_eq, not_true_eq_false, false_iff]
                exact fun h => h item hitem hcode
              · rw [dispatchMessages_ok messages _ fun m hm ht => hinvalid ⟨m, hm, ht⟩]
                simp only [ne_eq, reduceCtorEq, not_false_eq_true, true_iff]
                exact fun item hitem hcode => hinvalid (hiff.mpr ⟨item, hitem, hcode⟩)
      | _ => simp [pure, Except.pure]

/-- A decoder that knows the given encodings. -/
def tableCodec (table : List (Bytes × Json)) : MsgPack where
  toMsgpack _ := []
  fromMsgpack bytes := match table.lookup bytes with
    | some v => .ok v
    | none => .error (.thrown .parseError)

theorem tableCodec_defined (table : List (Bytes × Json)) (bytes : Bytes) :
    (tableCodec table).fromMsgpack bytes ≠ .error .assertion := by
  simp only [tableCodec]
  split <;> simp

/-- The bytes of an array with one HEARTBEAT. -/
def heartbeatBytes : Bytes :=
  [0x91, 0x82, 0xac, 0x6d, 0x65, 0x73, 0x73, 0x61, 0x67, 0x65, 0x5f,
    0x74, 0x79, 0x70, 0x65, 0xcd, 0x20, 0x01, 0xa6, 0x76, 0x61, 0x6c, 0x75, 0x65, 0x73, 0xc0]

theorem receiveBlock_heartbeat :
    receiveBlock (tableCodec [(heartbeatBytes, .array [messageToJson createHeartbeat])])
      (.setPayload heartbeatBytes) ≠ .error .assertion := by
  refine (receiveBlock_defined_iff (tableCodec_defined _) _).mpr (Or.inr fun items hitems => ?_)
  obtain rfl : items = [messageToJson createHeartbeat] := by
    have hlookup : (tableCodec [(heartbeatBytes,
      .array [messageToJson createHeartbeat])]).fromMsgpack
        (MessageBlock.setPayload heartbeatBytes).payload
        = .ok (.array [messageToJson createHeartbeat]) := rfl
    rw [hlookup] at hitems
    simpa using hitems.symm
  have hread : readOutcome (messageToJson createHeartbeat) = .message 0x2001 := by
    rw [messageToJson_eq]
    rfl
  simp [SafeElements, failsToRead, hread, ReadOutcome.isMessage]

/-- An array that holds one object without any member. -/
theorem receiveBlock_emptyObject :
    receiveBlock (tableCodec [([0x91, 0x80], .array [.object []])]) (.setPayload [0x91, 0x80])
      = .error .assertion := rfl

/-- A message whose type is not a number. -/
example : readOutcome (.object [("message_type", .float 0x7ff8000000000000), ("values", .null)])
    = .undefined := by decide +kernel

end Tavernmx.Server
