/-
# `Tavernmx.Shared.Messaging` — messages, and how their fields are read

A `Message` is a type from `enum class MessageType : int32_t` and one JSON value.
The enumeration has a fixed underlying type, so a peer can put every 32-bit
code into it: `MessageType.unlisted` holds the codes that have no name, with
the proof that they have none, and `ofCode`/`code` are inverse to one another.

The constructors `create…` build every message the two programs send; the
reading side is `messageValueOr`, whose guard lets every primitive type
through to `get<T>()`.

The MessagePack codec is the JSON library's.  It enters as a parameter
(`MsgPack`), and where a result relies on it, as `MsgPack.Lossless`.
-/
import Tavernmx.Lib.Fallible
import Tavernmx.Shared.Json

namespace Tavernmx.Messaging

/-! ## Message types -/

/-- The codes of `MessageType` that have a name. -/
def listedCodes : List Int32 :=
  [0, 0x1000, 0x1001, 0x2000, 0x2001, 0x3000, 0x3001, 0x3002, 0x3003, 0x3004, 0x4000, 0x4001]

inductive MessageType where
  | invalid
  | ack
  | nak
  | hello
  | heartbeat
  | roomList
  | roomCreate
  | roomJoin
  | roomDestroy
  | roomHistory
  | chatSend
  | chatEcho
  | unlisted (code : Int32) (h : code ∉ listedCodes)
  deriving DecidableEq, Repr

namespace MessageType

def code : MessageType → Int32
  | invalid => 0
  | ack => 0x1000
  | nak => 0x1001
  | hello => 0x2000
  | heartbeat => 0x2001
  | roomList => 0x3000
  | roomCreate => 0x3001
  | roomJoin => 0x3002
  | roomDestroy => 0x3003
  | roomHistory => 0x3004
  | chatSend => 0x4000
  | chatEcho => 0x4001
  | unlisted c _ => c

/-- The named types, in the order of `listedCodes`. -/
def named : List MessageType :=
  [invalid, ack, nak, hello, heartbeat, roomList, roomCreate, roomJoin, roomDestroy,
    roomHistory, chatSend, chatEcho]

/-- `static_cast<MessageType>` of a 32-bit code. -/
def ofCode (c : Int32) : MessageType :=
  if h : c ∈ listedCodes then (named.find? (fun t => t.code = c)).getD invalid
  else unlisted c h

theorem code_ofCode (c : Int32) : (ofCode c).code = c := by
  unfold ofCode
  split
  case isTrue h =>
    simp only [listedCodes, List.mem_cons, List.not_mem_nil, or_false] at h
    rcases h with h | h | h | h | h | h | h | h | h | h | h | h <;> subst h <;> rfl
  case isFalse h => rfl

theorem ofCode_code : ∀ t : MessageType, ofCode t.code = t
  | unlisted c h => by simp [ofCode, code, h]
  | invalid | ack | nak | hello | heartbeat | roomList | roomCreate | roomJoin
  | roomDestroy | roomHistory | chatSend | chatEcho => rfl

theorem ofCode_eq_invalid_iff (c : Int32) : ofCode c = invalid ↔ c = 0 := by
  constructor
  · intro h
    rw [← code_ofCode c, h]
    rfl
  · rintro rfl
    rfl

end MessageType

/-- The most entries one ROOM_HISTORY message may carry. -/
def roomHistoryMaxEntries : Int32 := 100

structure Message where
  messageType : MessageType
  values : Json
  deriving Repr

/-! ## Reading a field -/

/-- The types `get<T>()` is used at. -/
class JsonGet (T : Type) where
  get : Json → Exec T

instance : JsonGet String := ⟨Json.getString⟩
instance : JsonGet Int32 := ⟨Json.getInt32⟩

/-- `message_value_or<T>(message, key, default_value)`. -/
def messageValueOr (T : Type) [JsonGet T] (message : Message) (key : String)
    (defaultValue : T) : Exec T :=
  match message.values.find? key with
  | some v => if v.isPrimitive && !v.isNull then JsonGet.get v else pure defaultValue
  | none => pure defaultValue

/-- The string a reader of the field gets when the field can be read. -/
def Message.text (message : Message) (key : String) : String :=
  match messageValueOr String message key "" with
  | .ok s => s
  | .error _ => ""

/-- The field can be read as a `T`: absent, not primitive, null, or convertible. -/
def Message.readable (T : Type) [JsonGet T] [Inhabited T] (message : Message) (key : String) :
    Prop :=
  (messageValueOr T message key default).isOk

instance (T : Type) [JsonGet T] [Inhabited T] (message : Message) (key : String) :
    Decidable (message.readable T key) :=
  inferInstanceAs (Decidable (_ = true))

section Readable
variable {T : Type} [JsonGet T] [Inhabited T] {message : Message} {key : String}

theorem readable_iff :
    message.readable T key ↔ ∃ value, messageValueOr T message key default = .ok value :=
  Fallible.isOk_iff

theorem readable_of_ok {value : T} (h : messageValueOr T message key default = .ok value) :
    message.readable T key := readable_iff.mpr ⟨value, h⟩

theorem not_readable_of_error {fault : Fault}
    (h : messageValueOr T message key default = .error fault) : ¬ message.readable T key := by
  rw [readable_iff, h]
  rintro ⟨value, hvalue⟩
  cases hvalue

end Readable

theorem messageValueOr_string {message : Message} {key s : String}
    (h : messageValueOr String message key "" = .ok s) : s = message.text key := by
  simp [Message.text, h]

theorem readable_string_iff (message : Message) (key : String) :
    message.readable String key ↔
      messageValueOr String message key "" = .ok (message.text key) := by
  rw [readable_iff]
  constructor
  · rintro ⟨s, hs⟩
    obtain rfl := messageValueOr_string hs
    exact hs
  · exact fun h => ⟨message.text key, h⟩

/-! ## Building messages -/

def createAck : Message := ⟨.ack, .null⟩

def createNak (error : String) : Message := ⟨.nak, .ofPairs [("error", .string error)]⟩

def createHello (userName : String) : Message :=
  ⟨.hello, .ofPairs [("user_name", .string userName)]⟩

def createHeartbeat : Message := ⟨.heartbeat, .null⟩

/-- `create_room_list()`: the request. -/
def createRoomListRequest : Message := ⟨.roomList, .null⟩

/-- `create_room_list(rooms_begin, rooms_end)`: the reply, each name under its
position written in decimal. -/
def createRoomList (rooms : List String) : Message :=
  ⟨.roomList, rooms.zipIdx.foldl (fun v e => v.set (toString e.2) (.string e.1)) .null⟩

/-- The common shape of the messages that only name a room. -/
def roomMessage (t : MessageType) (roomName : String) : Message :=
  ⟨t, .ofPairs [("room_name", .string roomName)]⟩

def createRoomCreate (roomName : String) : Message := roomMessage .roomCreate roomName

def createRoomJoin (roomName : String) : Message := roomMessage .roomJoin roomName

def createRoomDestroy (roomName : String) : Message := roomMessage .roomDestroy roomName

def createRoomHistory (roomName : String) (eventCount : Int32) : Exec Message := do
  assertThat (decide (0 ≤ eventCount ∧ eventCount ≤ roomHistoryMaxEntries))
  pure ⟨.roomHistory, .ofPairs [("room_name", .string roomName),
    ("event_count", .integer eventCount.toInt)]⟩

def createChatSend (roomName text : String) : Message :=
  ⟨.chatSend, .ofPairs [("room_name", .string roomName), ("text", .string text)]⟩

def createChatEcho (roomName text userName : String) (timestamp : Int32) : Message :=
  ⟨.chatEcho, .ofPairs [("room_name", .string roomName), ("text", .string text),
    ("user_name", .string userName), ("timestamp", .integer timestamp.toInt)]⟩

/-- The JSON of one event of a ROOM_HISTORY message. -/
def eventJson (timestamp : Int32) (originUserName text : String) : Json :=
  (((Json.object []).set "timestamp" (.integer timestamp.toInt)).set "user_name"
    (.string originUserName)).set "text" (.string text)

/-- `add_room_history_event`: the message with one event more, and how many it has. -/
def addRoomHistoryEvent (message : Message) (timestamp : Int32)
    (originUserName text : String) : Exec (Message × Int32) := do
  assertThat (message.messageType = .roomHistory)
  let values := if message.values.contains "events" then message.values
    else message.values.set "events" (.array [])
  match values.find? "events" with
  | some (.array events) =>
    let values := values.set "events" (.array (events ++ [eventJson timestamp originUserName text]))
    let eventCount ← values.valueOr Json.getInt32 "event_count" 0
    let eventCount := eventCount + 1
    assertThat (decide (eventCount ≤ roomHistoryMaxEntries))
    pure (⟨message.messageType, values.set "event_count" (.integer eventCount.toInt)⟩, eventCount)
  | _ => throw .assertion

/-! ### What the fields of a built message read as -/

theorem messageValueOr_of_find? {message : Message} {key s : String}
    (h : message.values.find? key = some (.string s)) (d : String) :
    messageValueOr String message key d = .ok s := by
  simp [messageValueOr, h, Json.isPrimitive, Json.isNull, JsonGet.get, Json.getString, pure,
    Except.pure]

theorem text_of_find? {message : Message} {key s : String}
    (h : message.values.find? key = some (.string s)) : message.text key = s := by
  rw [Message.text, messageValueOr_of_find? h]

theorem find?_roomMessage (t : MessageType) (roomName : String) :
    (roomMessage t roomName).values.find? "room_name" = some (.string roomName) := by
  simp [roomMessage, Json.ofPairs]

theorem userName_createHello (userName d : String) :
    messageValueOr String (createHello userName) "user_name" d = .ok userName :=
  messageValueOr_of_find? (by simp [createHello, Json.ofPairs]) d

theorem error_createNak (error d : String) :
    messageValueOr String (createNak error) "error" d = .ok error :=
  messageValueOr_of_find? (by simp [createNak, Json.ofPairs]) d

theorem find?_createChatEcho (roomName text userName : String) (timestamp : Int32) :
    (createChatEcho roomName text userName timestamp).values.find? "room_name"
      = some (.string roomName) := by
  simp [createChatEcho, Json.ofPairs]

@[simp] theorem text_roomMessage (t : MessageType) (roomName : String) :
    (roomMessage t roomName).text "room_name" = roomName :=
  text_of_find? (find?_roomMessage t roomName)

@[simp] theorem roomName_createChatEcho (roomName text userName : String) (timestamp : Int32) :
    (createChatEcho roomName text userName timestamp).text "room_name" = roomName :=
  text_of_find? (find?_createChatEcho roomName text userName timestamp)

/-! ### What a history message holds

`createRoomHistory` with count 0, followed by `addRoomHistoryEvent`, only ever
builds messages of this form: the count is the number of events, and there is
no "events" member before the first event. -/

def historyMessage (roomName : String) (events : List Json) : Message :=
  ⟨.roomHistory, .object (("event_count", .integer events.length) ::
    ((if events = [] then [] else [("events", .array events)]) ++
      [("room_name", .string roomName)]))⟩

theorem find?_historyMessage (roomName : String) (events : List Json) :
    (historyMessage roomName events).values.find? "room_name" = some (.string roomName) := by
  by_cases hnil : events = [] <;> simp [historyMessage, Json.lookup_cons, hnil]

theorem createRoomHistory_zero (roomName : String) :
    createRoomHistory roomName 0 = .ok (historyMessage roomName []) := by
  have hvalues : Json.ofPairs [("room_name", .string roomName), ("event_count", .integer 0)]
      = .object [("event_count", .integer 0), ("room_name", .string roomName)] := by
    rw [Json.ofPairs, List.foldl_cons, List.foldl_cons, List.foldl_nil, Json.set_object,
      Json.insertMember_nil, Json.set_object,
      Json.insertMember_before (show "event_count" < "room_name" by decide)]
  have hassert : assertThat (decide ((0 : Int32) ≤ 0 ∧ (0 : Int32) ≤ roomHistoryMaxEntries))
      = .ok () := rfl
  rw [createRoomHistory, hassert]
  show Except.ok (Message.mk .roomHistory _) = _
  rw [show ((0 : Int32).toInt) = 0 from rfl, hvalues]
  rfl

theorem Int32.toInt_ofInt_small {n : Nat} (h : n ≤ 101) : (Int32.ofInt n).toInt = n :=
  Int32.toInt_ofInt_of_le (by omega) (by omega)

theorem Int32.ofInt_le_max {n : Nat} (h : n ≤ 101) :
    (Int32.ofInt n ≤ roomHistoryMaxEntries) ↔ n ≤ 100 := by
  have hmax : roomHistoryMaxEntries.toInt = 100 := rfl
  rw [Int32.le_iff_toInt_le, Int32.toInt_ofInt_small h, hmax]
  omega

/-- One event more, while the message has room; the assertion when it has not. -/
theorem addRoomHistoryEvent_historyMessage {roomName : String} {events : List Json}
    (hlen : events.length ≤ 100) (timestamp : Int32) (user text : String) :
    addRoomHistoryEvent (historyMessage roomName events) timestamp user text =
      if events.length < 100 then
        .ok (historyMessage roomName (events ++ [eventJson timestamp user text]),
          Int32.ofInt (events.length + 1 : Nat))
      else .error .assertion := by
  -- the members before and after the event is stored
  have hstored : ∃ values, (if (historyMessage roomName events).values.contains "events" then
        (historyMessage roomName events).values
      else (historyMessage roomName events).values.set "events" (.array [])) = values ∧
      values = .object [("event_count", .integer events.length), ("events", .array events),
        ("room_name", .string roomName)] := by
    refine ⟨_, rfl, ?_⟩
    by_cases hnil : events = []
    · subst hnil
      have hno : (historyMessage roomName []).values.contains "events" = false := by
        simp [historyMessage, Json.contains, Json.lookup_cons]
      rw [hno, if_neg (by simp)]
      show Json.set (.object [("event_count", .integer 0), ("room_name", .string roomName)]) _ _ = _
      rw [Json.set_object, Json.insertMember_after (by decide),
        Json.insertMember_before (by decide)]
      rfl
    · have hyes : (historyMessage roomName events).values.contains "events" = true := by
        simp [historyMessage, Json.contains, Json.lookup_cons, hnil]
      rw [hyes, if_pos rfl]
      simp [historyMessage, hnil]
  obtain ⟨values, hvalues, heq⟩ := hstored
  have hfind : values.find? "events" = some (.array events) := by
    rw [heq]
    simp [Json.lookup_cons]
  have hset : ∀ new, values.set "events" new = .object [("event_count", .integer events.length),
      ("events", new), ("room_name", .string roomName)] := by
    intro new
    rw [heq, Json.set_object, Json.insertMember_after (by decide), Json.insertMember_same]
  have hcount : ∀ new, (values.set "events" new).valueOr Json.getInt32 "event_count" 0
      = .ok (Int32.ofInt events.length) := by
    intro new
    rw [hset]
    rfl
  have hsucc : Int32.ofInt events.length + 1 = Int32.ofInt (events.length + 1 : Nat) := by
    rw [Int.natCast_add, Int32.ofInt_add]
    rfl
  have htype : assertThat (decide ((historyMessage roomName events).messageType = .roomHistory))
      = .ok () := rfl
  simp only [addRoomHistoryEvent, htype, bind, Except.bind, hvalues, hfind, hcount, hsucc]
  by_cases hroom : events.length < 100
  · have hle : decide (Int32.ofInt (events.length + 1 : Nat) ≤ roomHistoryMaxEntries) = true :=
      decide_eq_true ((Int32.ofInt_le_max (by omega)).mpr (by omega))
    rw [hle, if_pos hroom, hset, Json.set_object, Json.insertMember_same,
      Int32.toInt_ofInt_small (by omega)]
    simp [assertThat, historyMessage, pure, Except.pure]
  · have hle : decide (Int32.ofInt (events.length + 1 : Nat) ≤ roomHistoryMaxEntries) = false :=
      decide_eq_false (fun h => hroom (by have := (Int32.ofInt_le_max (by omega)).mp h; omega))
    rw [hle, if_neg hroom]
    rfl

/-! ## Packing -/

/-- The MessagePack half of the JSON library. -/
structure MsgPack where
  toMsgpack : Json → List UInt8
  fromMsgpack : List UInt8 → Exec Json

/-- What the program relies on: decoding undoes encoding, and no value is
encoded by zero bytes. -/
structure MsgPack.Lossless (codec : MsgPack) : Prop where
  from_to : ∀ v : Json, codec.fromMsgpack (codec.toMsgpack v) = .ok v
  to_ne_nil : ∀ v : Json, codec.toMsgpack v ≠ []

def messageToJson (message : Message) : Json :=
  ((Json.object []).set "message_type" (.integer message.messageType.code.toInt)).set "values"
    message.values

/-- One element of the array in a block. -/
def messageOfJson (messageJson : Json) : Exec Message := do
  let code ← (← messageJson.subscript "message_type").getEnum
  let values ← messageJson.subscript "values"
  pure ⟨.ofCode code, values⟩

theorem messageToJson_eq (message : Message) :
    messageToJson message = .object
      [("message_type", .integer message.messageType.code.toInt), ("values", message.values)] := by
  rw [messageToJson, Json.set_object, Json.insertMember_nil, Json.set_object,
    Json.insertMember_after (by decide), Json.insertMember_nil]

theorem messageOfJson_messageToJson (message : Message) :
    messageOfJson (messageToJson message) = .ok message := by
  have hcode := MessageType.ofCode_code message.messageType
  rw [messageToJson_eq]
  simp [messageOfJson, Json.subscript, Json.getEnum, Json.lookup_cons, pure, Except.pure,
    bind, Except.bind,
    hcode]

end Tavernmx.Messaging
