/-
# `Tavernmx.Client.ChatWindow` — the chat window and its message handlers

The window keeps two things: `client_rooms`, a `RoomManager` whose rooms remember
whether a join was issued for them, and the screen, with the names it lists, the
selection, and a ring buffer of events for each room.

`handleMessage` is the body of the loop in the MSG_UPDATE handler: one message
from the server, and what is pushed to `messages_out` for it.  The other handler
that matters to the server is MSG_ROOM_CHANGED.

`is_joined` is set when the join is issued; there is no acknowledgement.

At the end: what a window has of one room (`knows`, `joined`, `Shows`), and what
the operations do to that.
-/
import Tavernmx.Shared.Messaging
import Tavernmx.Shared.RingBuffer
import Tavernmx.Shared.Room

namespace Tavernmx.Client

open Messaging Rooms

/-! ## Rooms -/

structure ClientRoom extends Room where
  /-- Have we already requested to join this room? -/
  isJoined : Bool
  deriving Repr

instance : IsRoom ClientRoom where
  base room := room.toRoom
  make name := ⟨⟨name, false⟩, false⟩
  requestDestroy room := { room with destroyRequested := true }
  base_make _ := rfl
  base_requestDestroy _ := rfl

def ClientRoom.markJoined (room : ClientRoom) : ClientRoom := { room with isJoined := true }

/-- `issue_room_join_if_needed`: the rooms, and what is pushed. -/
def issueRoomJoinIfNeeded (roomName : String) (clientRooms : RoomManager ClientRoom) :
    Exec (RoomManager ClientRoom × List Message) :=
  if roomName = "" then pure (clientRooms, [])
  else match clientRooms.find? roomName with
    | some selectedRoom =>
        if selectedRoom.isJoined then pure (clientRooms, [])
        else do
          let history ← createRoomHistory selectedRoom.roomName roomHistoryMaxEntries
          pure (clientRooms.modify roomName ClientRoom.markJoined,
            [createRoomJoin selectedRoom.roomName, history])
    | none => pure (clientRooms, [])

/-! ## Events -/

/-- `event_json_to_room_event`, without the displayable form of the time. -/
def eventJsonToRoomEvent (event : Json) : Exec RoomEvent := do
  assertThat (event.contains "timestamp" && event.contains "user_name")
  let timestamp ← event.valueOr Json.getInt32 "timestamp" 0
  let originUserName ← event.valueOr Json.getString "user_name" ""
  let eventText ← event.valueOr Json.getString "text" ""
  pure ⟨timestamp.toInt64, originUserName, eventText⟩

/-- `room_history_message_to_events`.  The count only serves a warning, but it is read. -/
def roomHistoryMessageToEvents (message : Message) : Exec (List RoomEvent) := do
  let _ ← messageValueOr Int32 message "event_count" 0
  match message.values.find? "events" with
  | some events => events.items.mapM fun item => eventJsonToRoomEvent item.2
  | none => pure []

/-! ## The screen -/

def chatRoomHistorySize : Nat := 1000

instance : NeZero chatRoomHistorySize := ⟨by decide⟩

abbrev ChatHistory := RingBuffer RoomEvent chatRoomHistorySize

structure ChatWindowScreen where
  roomNames : List String
  currentRoomIndex : Nat
  currentRoomName : String
  chatRoomHistory : String → Option ChatHistory

namespace ChatWindowScreen

def new : ChatWindowScreen := ⟨[], 0, "", fun _ => none⟩

def selectRoomByName (roomName : String) (screen : ChatWindowScreen) : ChatWindowScreen :=
  match screen.roomNames.findIdx? fun name => name = roomName with
  | some i => { screen with currentRoomIndex := i, currentRoomName := roomName }
  | none => screen

/-- `update_rooms` where the arrays of the list box have room for the names; what becomes of
the arrays is in `Tavernmx.Client.RoomBuffers`. -/
def updateRooms (roomNameList : List String) (screen : ChatWindowScreen) : ChatWindowScreen where
  roomNames := roomNameList
  currentRoomIndex := 0
  currentRoomName := roomNameList.head?.getD ""
  chatRoomHistory roomName :=
    if roomName ∈ roomNameList then screen.chatRoomHistory roomName else none

def insertChatHistoryEvent (roomName : String) (event : RoomEvent) (screen : ChatWindowScreen) :
    ChatWindowScreen :=
  let history := (screen.chatRoomHistory roomName).getD .new
  { screen with
    chatRoomHistory := Function.update screen.chatRoomHistory roomName
      (some (history.insert event)) }

def rewriteChatHistory (roomName : String) (events : List RoomEvent) (screen : ChatWindowScreen) :
    ChatWindowScreen :=
  let history : ChatHistory :=
    if (screen.chatRoomHistory roomName).isSome then .new else RingBuffer.new.reset
  { screen with
    chatRoomHistory :=
      Function.update screen.chatRoomHistory roomName
        (some (events.foldl RingBuffer.insert history)) }

/-- The list box: the user picks an entry. -/
def pickRoom (index : Nat) (screen : ChatWindowScreen) : ChatWindowScreen :=
  { screen with
    currentRoomIndex := index
    currentRoomName := (screen.roomNames[index]?).getD "" }

end ChatWindowScreen

/-! ## The handlers -/

structure ChatWindow where
  clientRooms : RoomManager ClientRoom
  screen : ChatWindowScreen

namespace ChatWindow

/-- `issue_room_join_if_needed` for the room that is selected; also the handler
of MSG_ROOM_CHANGED. -/
def joinCurrentRoom (chat : ChatWindow) : Exec (ChatWindow × List Message) := do
  let (clientRooms, pushed) ← issueRoomJoinIfNeeded chat.screen.currentRoomName chat.clientRooms
  pure ({ chat with clientRooms }, pushed)

/-- One round of the loop over a ROOM_LIST. -/
def createListedRoom (clientRooms : RoomManager ClientRoom) (item : String × Json) :
    Exec (RoomManager ClientRoom) := do
  let roomName ← item.2.getString
  pure ((clientRooms.createRoom roomName).getD clientRooms)

/-- The rooms changed: list them, select what was selected before if it is still
there, and join what is selected now. -/
def showRooms (clientRooms : RoomManager ClientRoom) (chat : ChatWindow) :
    Exec (ChatWindow × List Message) :=
  joinCurrentRoom
    ⟨clientRooms, (chat.screen.updateRooms clientRooms.roomNames).selectRoomByName
      chat.screen.currentRoomName⟩

def handleMessage (chat : ChatWindow) (msg : Message) : Exec (ChatWindow × List Message) :=
  match msg.messageType with
  | .roomList => do
      let clientRooms ← msg.values.items.foldlM createListedRoom .new
      chat.showRooms clientRooms
  | .roomCreate => do
      let roomName ← messageValueOr String msg "room_name" ""
      match chat.clientRooms.createRoom roomName with
      | some clientRooms => chat.showRooms clientRooms
      | none => pure (chat, [])
  | .roomDestroy => do
      let roomName ← messageValueOr String msg "room_name" ""
      match chat.clientRooms.find? roomName with
      | some _ =>
          let clientRooms :=
            (chat.clientRooms.modify roomName IsRoom.requestDestroy).removeDestroyedRooms
          let screen := chat.screen.updateRooms clientRooms.roomNames
          if chat.screen.currentRoomName = roomName then joinCurrentRoom ⟨clientRooms, screen⟩
          else pure (⟨clientRooms, screen.selectRoomByName chat.screen.currentRoomName⟩, [])
      | none => pure (chat, [])
  | .roomHistory => do
      let roomName ← messageValueOr String msg "room_name" ""
      match chat.clientRooms.find? roomName with
      | some room => do
          let events ← roomHistoryMessageToEvents msg
          pure ({ chat with screen := chat.screen.rewriteChatHistory room.roomName events }, [])
      | none => pure (chat, [])
  | .chatEcho => do
      let roomName ← messageValueOr String msg "room_name" ""
      let event ← eventJsonToRoomEvent msg.values
      pure ({ chat with screen := chat.screen.insertChatHistoryEvent roomName event }, [])
  | _ => pure (chat, [])

/-- The MSG_UPDATE handler on the messages that are waiting. -/
def handleMessages : List Message → ChatWindow → Exec (ChatWindow × List Message)
  | [], chat => pure (chat, [])
  | msg :: msgs, chat => do
      let (chat, pushed) ← chat.handleMessage msg
      let (chat, more) ← handleMessages msgs chat
      pure (chat, pushed ++ more)

/-- The user picks a room, and MSG_ROOM_CHANGED is handled. -/
def changeRoom (index : Nat) (chat : ChatWindow) : Exec (ChatWindow × List Message) :=
  joinCurrentRoom { chat with screen := chat.screen.pickRoom index }

/-! ## What a window has of one room -/

/-- The room is in `client_rooms`. -/
def knows (chat : ChatWindow) (r : String) : Bool := (chat.clientRooms.find? r).isSome

/-- The room is in `client_rooms`, and a join was issued for it. -/
def joined (chat : ChatWindow) (r : String) : Bool := (chat.clientRooms.find? r).any (·.isJoined)

end ChatWindow

/-- The two messages with which a client joins a room. -/
def historyRequest (r : String) : Message :=
  ⟨.roomHistory, .ofPairs [("room_name", .string r), ("event_count", .integer 100)]⟩

def joinRequests (r : String) : List Message := [createRoomJoin r, historyRequest r]

/-- A buffer shows the end of what was put into it; without a buffer nothing was. -/
def Shows : Option ChatHistory → Option (List RoomEvent) → Prop
  | none, shown => shown = none
  | some history, shown => ∃ events, shown = some events ∧
      history.Holds (events.rtake (chatRoomHistorySize - 1))

structure ChatWindow.WF (chat : ChatWindow) : Prop where
  rooms : chat.clientRooms.WF
  unmarked : ∀ r room, chat.clientRooms.find? r = some room → isDestroyRequested room = false
  histories : ∀ r, ∃ shown, Shows (chat.screen.chatRoomHistory r) shown

theorem Shows.insert {stored : Option ChatHistory} {shown : Option (List RoomEvent)}
    (h : Shows stored shown) (event : RoomEvent) :
    Shows (some ((stored.getD .new).insert event)) (some (shown.getD [] ++ [event])) := by
  cases stored with
  | none =>
      obtain rfl : shown = none := h
      exact ⟨_, rfl, RingBuffer.holds_new.insert event⟩
  | some history =>
      obtain ⟨events, rfl, hholds⟩ := h
      have hinsert := hholds.insert event
      rw [BoundedLog.rtake_rtake_append] at hinsert
      exact ⟨_, rfl, hinsert⟩

theorem shows_rewrite {history : ChatHistory} (h : history.Holds []) (events : List RoomEvent) :
    Shows (some (events.foldl RingBuffer.insert history)) (some events) :=
  ⟨events, rfl, h.foldl_insert events (by decide)⟩

theorem nameOf_markJoined (room : ClientRoom) : nameOf room.markJoined = nameOf room := rfl

theorem createRoomHistory_max (r : String) :
    createRoomHistory r roomHistoryMaxEntries = .ok (historyRequest r) := rfl

/-- Either nothing happens, or the room is marked and the two requests are pushed. -/
theorem issueRoomJoinIfNeeded_spec (roomName : String) (clientRooms : RoomManager ClientRoom) :
    issueRoomJoinIfNeeded roomName clientRooms = .ok (clientRooms, []) ∨
      issueRoomJoinIfNeeded roomName clientRooms =
        .ok (clientRooms.modify roomName ClientRoom.markJoined, joinRequests roomName) := by
  unfold issueRoomJoinIfNeeded
  split
  · exact Or.inl rfl
  · cases hfind : clientRooms.find? roomName with
    | none => exact Or.inl rfl
    | some room =>
        have hname : room.roomName = roomName := RoomManager.find?_eq_some_name hfind
        cases hjoined : room.isJoined with
        | true => exact Or.inl (by simp [hjoined, pure, Except.pure])
        | false =>
            refine Or.inr ?_
            simp only [hjoined, Bool.false_eq_true, if_false, hname, createRoomHistory_max, bind,
              Except.bind, pure, Except.pure]
            rfl

/-- Issuing the join never fails. -/
theorem ChatWindow.joinCurrentRoom_ok (chat : ChatWindow) :
    ∃ result, chat.joinCurrentRoom = .ok result := by
  rw [ChatWindow.joinCurrentRoom]
  rcases issueRoomJoinIfNeeded_spec chat.screen.currentRoomName chat.clientRooms with hok | hok
  · rw [hok]
    exact ⟨_, rfl⟩
  · rw [hok]
    exact ⟨_, rfl⟩

/-- What joining leaves behind: at most one room more is marked, with its requests pushed. -/
structure Joins (chat chat' : ChatWindow) (pushed : List Message) : Prop where
  rooms : chat'.clientRooms.WF
  unmarked : ∀ r room, chat'.clientRooms.find? r = some room → isDestroyRequested room = false
  screen : chat'.screen = chat.screen
  knows : ∀ r, chat'.knows r = chat.knows r
  joined : ∀ r, chat'.joined r = true → chat.joined r = true ∨ pushed = joinRequests r
  requests : pushed = [] ∨ ∃ name, pushed = joinRequests name

/-- The window has new rooms, and its screen shows them. -/
structure Displays (chat : ChatWindow) (clientRooms : RoomManager ClientRoom) (chat' : ChatWindow)
    (pushed : List Message) : Prop where
  rooms : chat'.clientRooms.WF
  unmarked : ∀ r room, chat'.clientRooms.find? r = some room → isDestroyRequested room = false
  knows : ∀ r, chat'.knows r = (clientRooms.find? r).isSome
  joined : ∀ r, chat'.joined r = true →
    (clientRooms.find? r).any (·.isJoined) = true ∨ pushed = joinRequests r
  history : ∀ r, chat'.screen.chatRoomHistory r =
    if r ∈ clientRooms.roomNames then chat.screen.chatRoomHistory r else none
  requests : pushed = [] ∨ ∃ name, pushed = joinRequests name

variable {chat : ChatWindow} {clientRooms : RoomManager ClientRoom}

theorem joinCurrentRoom_spec (hrooms : chat.clientRooms.WF)
    (hunmarked : ∀ r room, chat.clientRooms.find? r = some room → isDestroyRequested room = false) :
    ∃ chat' pushed, chat.joinCurrentRoom = .ok (chat', pushed) ∧ Joins chat chat' pushed := by
  unfold ChatWindow.joinCurrentRoom
  rcases issueRoomJoinIfNeeded_spec chat.screen.currentRoomName chat.clientRooms with hok | hok
  · rw [hok]
    exact ⟨_, _, rfl, hrooms, hunmarked, rfl, fun _ => rfl, fun _ h => Or.inl h, Or.inl rfl⟩
  · rw [hok]
    have hfind := RoomManager.find?_modify (m := chat.clientRooms) chat.screen.currentRoomName
      nameOf_markJoined
    refine ⟨_, _, rfl, hrooms.modify _ nameOf_markJoined, ?_, rfl, ?_, ?_, Or.inr ⟨_, rfl⟩⟩
    · intro r room hroom
      rw [hfind] at hroom
      split at hroom
      · obtain ⟨old, hold, rfl⟩ := Option.map_eq_some_iff.mp hroom
        exact hunmarked r old hold
      · exact hunmarked r room hroom
    · intro r
      show ((chat.clientRooms.modify _ _).find? r).isSome = (chat.clientRooms.find? r).isSome
      rw [hfind]
      split
      · exact Option.isSome_map
      · rfl
    · intro r hr
      by_cases hname : r = chat.screen.currentRoomName
      · subst hname
        exact Or.inr rfl
      · refine Or.inl ?_
        simpa [ChatWindow.joined, hfind, hname] using hr

theorem changeRoom_spec (hchat : chat.WF) (index : Nat) :
    ∃ chat' pushed, chat.changeRoom index = .ok (chat', pushed) ∧
      Joins { chat with screen := chat.screen.pickRoom index } chat' pushed :=
  joinCurrentRoom_spec hchat.rooms hchat.unmarked

theorem chatRoomHistory_selectRoomByName (roomName : String) (screen : ChatWindowScreen) :
    (screen.selectRoomByName roomName).chatRoomHistory = screen.chatRoomHistory := by
  unfold ChatWindowScreen.selectRoomByName
  split <;> rfl

/-- Nothing but the screen changes: no join. -/
theorem displays_of_screen (hrooms : clientRooms.WF)
    (hunmarked : ∀ r room, clientRooms.find? r = some room → isDestroyRequested room = false)
    {screen : ChatWindowScreen} (hscreen : screen.chatRoomHistory
      = (chat.screen.updateRooms clientRooms.roomNames).chatRoomHistory) :
    Displays chat clientRooms ⟨clientRooms, screen⟩ [] :=
  ⟨hrooms, hunmarked, fun _ => rfl, fun _ h => Or.inl h, fun _ => by rw [hscreen]; rfl, Or.inl rfl⟩

/-- New rooms on the screen, and then a join. -/
theorem Displays.joinCurrentRoom {chat' : ChatWindow} (h : Displays chat clientRooms chat' []) :
    ∃ chat'' pushed, chat'.joinCurrentRoom = .ok (chat'', pushed) ∧
      Displays chat clientRooms chat'' pushed := by
  obtain ⟨chat'', pushed, hok, hjoins⟩ := joinCurrentRoom_spec h.rooms h.unmarked
  refine ⟨chat'', pushed, hok, hjoins.rooms, hjoins.unmarked, ?_, ?_, ?_, hjoins.requests⟩
  · intro r
    rw [hjoins.knows, h.knows]
  · intro r hr
    rcases hjoins.joined r hr with hold | hpushed
    · rcases h.joined r hold with hjoined | hnil
      · exact Or.inl hjoined
      · cases hnil
    · exact Or.inr hpushed
  · intro r
    rw [hjoins.screen, h.history]

/-- Listing new rooms, selecting one and joining it. -/
theorem showRooms_spec (chat : ChatWindow) (hrooms : clientRooms.WF)
    (hunmarked : ∀ r room, clientRooms.find? r = some room → isDestroyRequested room = false) :
    ∃ chat' pushed, chat.showRooms clientRooms = .ok (chat', pushed) ∧
      Displays chat clientRooms chat' pushed :=
  (displays_of_screen hrooms hunmarked (chatRoomHistory_selectRoomByName _ _)).joinCurrentRoom

end Tavernmx.Client
