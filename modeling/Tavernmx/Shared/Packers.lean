/-
# `Tavernmx.Shared.Packers` — three ways to pack messages

Besides `pack_messages(begin, end)` there are `pack_message` for one message and
`pack_messages` for a vector.  They all make the same JSON array and hand it to
`set_payload`, so `unpack_messages` cannot tell them apart.

`set_payload` casts the length of the payload to 32 bits.  A payload of 2^32 bytes,
or a multiple of that, has size 0, and `unpack_messages` takes it for an empty block:
that is the one way in which messages are lost (`packersAgree_iff`).
-/
import Tavernmx.Session.SampleCodec

namespace Tavernmx.Messaging

open MessageBlock

section Codec
variable (codec : MsgPack)

/-- `pack_message`. -/
def packMessage (message : Message) : MessageBlock :=
  setPayload (codec.toMsgpack (.array [messageToJson message]))

/-- `group_json.push_back(message_to_json(message))`. -/
def pushJson (groupJson : List Json) (message : Message) : List Json :=
  groupJson ++ [messageToJson message]

/-- `pack_messages` of a vector. -/
def packMessagesVector (messages : List Message) : List MessageBlock :=
  if messages.isEmpty then []
  else [setPayload (codec.toMsgpack (.array (messages.foldl pushJson [])))]

/-- The packers agree on these messages, and they come back. -/
structure PackersAgree (messages : List Message) : Prop where
  roundTrip : unpackMessages codec (packMessages codec messages) = .ok messages
  single : ∀ message, packMessage codec message = packMessages codec [message]
  vector : messages ≠ [] → packMessagesVector codec messages = [packMessages codec messages]

end Codec

theorem foldl_pushJson (messages : List Message) (groupJson : List Json) :
    messages.foldl pushJson groupJson = groupJson ++ messages.map messageToJson := by
  induction messages generalizing groupJson with
  | nil => exact (List.append_nil _).symm
  | cons message messages ih =>
      rw [List.foldl_cons, ih, pushJson, List.append_assoc, List.map_cons, List.singleton_append]

theorem packMessagesVector_eq (codec : MsgPack) {messages : List Message} (h : messages ≠ []) :
    packMessagesVector codec messages = [packMessages codec messages] := by
  rw [packMessagesVector, if_neg (by rwa [List.isEmpty_iff]), foldl_pushJson, List.nil_append]
  rfl

/-- **Packing, in whichever way, and unpacking** gives the messages back exactly when the
length of the payload is not 0 in 32 bits, or there are no messages. -/
theorem packersAgree_iff {codec : MsgPack} (hcodec : codec.Lossless) (messages : List Message) :
    PackersAgree codec messages ↔ messages = [] ∨
      ¬ 2 ^ 32 ∣ (codec.toMsgpack (.array (messages.map messageToJson))).length := by
  rw [← unpackMessages_packMessages_iff hcodec]
  constructor
  · intro h
    exact h.roundTrip
  · intro h
    exact ⟨h, fun _ => rfl, packMessagesVector_eq codec⟩

/-- The request for the rooms. -/
theorem packersAgree_roomList :
    unpackMessages Session.sampleCodec
      (packMessages Session.sampleCodec [createRoomListRequest]) = .ok [createRoomListRequest] := by
  refine ((packersAgree_iff Session.sampleCodec_lossless _).mpr (Or.inr ?_)).roundTrip
  show ¬ 2 ^ 32 ∣ (Session.sampleBytes Session.roomListArray).length
  rw [Session.sampleBytes_roomListArray]
  decide

/-! ## A payload of 2^32 bytes -/

/-- A message whose values are `n` letters. -/
def longMessage (n : Nat) : Message := ⟨.chatSend, .string (String.ofList (List.replicate n 'a'))⟩

/-- MessagePack for the array with this message, of so many letters that it takes 2^32
bytes: thirty bytes, the last four of them the length of the text, and the text. -/
def longBytes : List UInt8 :=
  [0x91, 0x82, 0xac, 0x6d, 0x65, 0x73, 0x73, 0x61, 0x67, 0x65, 0x5f, 0x74, 0x79, 0x70, 0x65,
    0xcd, 0x40, 0x00, 0xa6, 0x76, 0x61, 0x6c, 0x75, 0x65, 0x73, 0xdb, 0xff, 0xff, 0xff, 0xe2] ++
    List.replicate (2 ^ 32 - 30) 0x61

theorem length_longBytes : longBytes.length = 2 ^ 32 := by
  rw [longBytes, List.length_append, List.length_replicate]
  rfl

noncomputable def longCodec : MsgPack :=
  Session.patchedCodec (.array [messageToJson (longMessage (2 ^ 32 - 30))]) longBytes

/-- The size of the block is 0, and the message is lost. -/
theorem packMessages_loses : longCodec.Lossless ∧
    unpackMessages longCodec (packMessages longCodec [longMessage (2 ^ 32 - 30)]) = .ok [] := by
  have hne : longBytes ≠ [] := by
    intro hnil
    have hlen := length_longBytes
    rw [hnil] at hlen
    cases hlen
  have hbytes : longCodec.toMsgpack (.array [messageToJson (longMessage (2 ^ 32 - 30))])
      = longBytes := Session.patchedBytes_self _ _
  refine ⟨Session.patchedCodec_lossless hne (by rw [longBytes]; decide), ?_⟩
  have hzero : (packMessages longCodec [longMessage (2 ^ 32 - 30)]).payloadSize = 0 := by
    show UInt32.ofNat (longCodec.toMsgpack _).length = 0
    rw [List.map_singleton, hbytes, length_longBytes]
    rfl
  rw [unpackMessages, hzero]
  rfl

end Tavernmx.Messaging
