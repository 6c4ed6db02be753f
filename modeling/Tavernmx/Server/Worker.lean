/-
# `Tavernmx.Server.Worker` — the loop of `server_worker`

One iteration of the loop, a *tick*, has three steps that compute something:

    step 1    pop every waiting message of every client and act on it
    step 2a   announce the rooms created and destroyed, to every client
    step 2b   send each room's events to the clients joined to it
    step 3    forget the destroyed rooms and their history

`Worker` is everything these steps read and write: the rooms, their stored
history, the two lists of names that are local to the tick (empty between
ticks), and the outbound queue of every connection.  Clients are connection
identities; a weak pointer in `joined_clients` is the identity it points to, and
whether it has expired is asked of the environment.

Step 1 is a fold over the messages in the order they are popped.  Every message
comes with the clock reading its event would carry.
-/
import Tavernmx.Lib.Mailbox
import Tavernmx.Shared.Messaging
import Tavernmx.Shared.RingBuffer
import Tavernmx.Shared.Room

namespace Tavernmx.Server

open Messaging Rooms

/-- The identity of a client connection. -/
abbrev ConnId := Nat

/-! ## Rooms and history -/

structure ServerRoom extends Room where
  /-- Events that wait for step 2b. -/
  events : List RoomEvent
  joinedClients : List ConnId
  deriving Repr

instance : IsRoom ServerRoom where
  base room := room.toRoom
  make name := ⟨⟨name, false⟩, [], []⟩
  requestDestroy room := { room with destroyRequested := true }
  base_make _ := rfl
  base_requestDestroy _ := rfl

/-- `join`, which looks for the connection first. -/
def ServerRoom.join (client : ConnId) (room : ServerRoom) : ServerRoom :=
  if client ∈ room.joinedClients then room
  else { room with joinedClients := room.joinedClients ++ [client] }

/-- `joined_clients.emplace_back(client)`, which does not. -/
def ServerRoom.emplaceClient (client : ConnId) (room : ServerRoom) : ServerRoom :=
  { room with joinedClients := room.joinedClients ++ [client] }

def ServerRoom.pushEvent (event : RoomEvent) (room : ServerRoom) : ServerRoom :=
  { room with events := room.events ++ [event] }

def ServerRoom.cleanExpiredClients (expired : ConnId → Bool) (room : ServerRoom) : ServerRoom :=
  { room with joinedClients := room.joinedClients.filter fun client => !expired client }

def chatRoomHistorySize : Nat := 1000

instance : NeZero chatRoomHistorySize := ⟨by decide⟩

/-- The map from room names to stored history. -/
abbrev RoomHistory := String → Option (RingBuffer RoomEvent chatRoomHistorySize)

def insertEventIntoRoomHistory (roomHistory : RoomHistory) (roomName : String)
    (event : RoomEvent) : RoomHistory :=
  let roomHistory :=
    if (roomHistory roomName).isSome then roomHistory
    else Function.update roomHistory roomName (some RingBuffer.new)
  Function.update roomHistory roomName ((roomHistory roomName).map (·.insert event))

/-- The loop of `get_room_history` over the iterator positions still to visit. -/
def fillRoomHistory (buffer : RingBuffer RoomEvent chatRoomHistorySize) (maxEventCount : Nat) :
    List (Fin chatRoomHistorySize) → Message → Exec Message
  | [], message => pure message
  | pos :: rest, message => do
      let event ← buffer.deref pos
      let (message, count) ←
        addRoomHistoryEvent message event.timestamp.toInt32 event.originUserName event.eventText
      if count.toInt = maxEventCount then pure message
      else fillRoomHistory buffer maxEventCount rest message

def getRoomHistory (roomHistory : RoomHistory) (roomName : String) (maxEventCount : Nat) :
    Exec Message := do
  let message ← createRoomHistory roomName 0
  match roomHistory roomName with
  | some buffer => fillRoomHistory buffer maxEventCount buffer.positions message
  | none => pure message

/-- `room_events_to_messages`. -/
def roomEventsToMessages (room : ServerRoom) : List Message :=
  room.events.map fun event =>
    createChatEcho room.roomName event.eventText event.originUserName event.timestamp.toInt32

/-! ## Step 1 -/

structure Worker where
  rooms : RoomManager ServerRoom
  roomHistory : RoomHistory
  newRooms : List String
  destroyedRooms : List String
  messagesOut : ConnId → List Message

/-- One message as step 1 pops it: from whom, and at what time. -/
structure Incoming where
  client : ConnId
  message : Message
  now : Int64

/-- The `switch` of step 1.  `userName` is each connection's `connected_user_name`. -/
def Worker.handleMessage (userName : ConnId → String) (w : Worker) (m : Incoming) : Exec Worker :=
  match m.message.messageType with
  | .roomList =>
      pure { w with
        messagesOut := Mailbox.push w.messagesOut m.client [createRoomList w.rooms.roomNames] }
  | .roomCreate => do
      let roomName ← messageValueOr String m.message "room_name" ""
      if roomName = "" then pure w
      else match w.rooms.createRoom roomName with
        | some rooms => pure { w with
            rooms := rooms.modify roomName (ServerRoom.emplaceClient m.client)
            newRooms := w.newRooms ++ [roomName] }
        | none => pure w
  | .roomJoin => do
      let roomName ← messageValueOr String m.message "room_name" ""
      match w.rooms.find? roomName with
      | some _ => pure { w with rooms := w.rooms.modify roomName (ServerRoom.join m.client) }
      | none => pure w
  | .roomDestroy => do
      let roomName ← messageValueOr String m.message "room_name" ""
      match w.rooms.find? roomName with
      | some _ => pure { w with
          rooms := w.rooms.modify roomName IsRoom.requestDestroy
          destroyedRooms := w.destroyedRooms ++ [roomName] }
      | none => pure w
  | .roomHistory => do
      let roomName ← messageValueOr String m.message "room_name" ""
      let eventCount ← messageValueOr Int32 m.message "event_count" 0
      match w.rooms.find? roomName with
      | some room =>
          if 0 ≤ eventCount ∧ eventCount ≤ roomHistoryMaxEntries then do
            let reply ← getRoomHistory w.roomHistory room.roomName eventCount.toInt.toNat
            pure { w with messagesOut := Mailbox.push w.messagesOut m.client [reply] }
          else pure w
      | none => pure w
  | .chatSend => do
      let roomName ← messageValueOr String m.message "room_name" ""
      match w.rooms.find? roomName with
      | some room => do
          let text ← messageValueOr String m.message "text" ""
          let event : RoomEvent := ⟨m.now, userName m.client, text⟩
          pure { w with
            roomHistory := insertEventIntoRoomHistory w.roomHistory room.roomName event
            rooms := w.rooms.modify roomName (ServerRoom.pushEvent event) }
      | none => pure w
  | _ => pure w

/-- What a tick is given from outside. -/
structure TickInput where
  /-- The snapshot `get_active_connections()` returned. -/
  clients : List ConnId
  clients_nodup : clients.Nodup
  userName : ConnId → String
  /-- The messages popped from each client's `messages_in`, with clock readings. -/
  inbox : ConnId → List (Message × Int64)
  /-- The connections that have expired by step 2b. -/
  expired : ConnId → Bool

/-- The two nested loops of step 1. -/
def Worker.gatherMessages (t : TickInput) (w : Worker) : Exec Worker :=
  t.clients.foldlM (fun w client =>
    (t.inbox client).foldlM (fun w m => w.handleMessage t.userName ⟨client, m.1, m.2⟩) w) w

/-- The messages of the tick in the order step 1 handles them. -/
def TickInput.batch (t : TickInput) : List Incoming :=
  t.clients.flatMap fun client => (t.inbox client).map fun m => ⟨client, m.1, m.2⟩

/-! ## Steps 2 and 3 -/

/-- Step 2a. -/
def Worker.announceRooms (clients : List ConnId) (w : Worker) : Worker :=
  let messagesOut := Mailbox.broadcast w.messagesOut clients (w.newRooms.map createRoomCreate)
  { w with
    messagesOut := Mailbox.broadcast messagesOut clients (w.destroyedRooms.map createRoomDestroy) }

/-- What step 2b pushes for one room. -/
def distributeRoom (expired : ConnId → Bool) (messagesOut : ConnId → List Message)
    (room : ServerRoom) : ConnId → List Message :=
  let room := room.cleanExpiredClients expired
  Mailbox.pushEach messagesOut (room.joinedClients.filter fun client => !expired client)
    (roomEventsToMessages room)

/-- What step 2b leaves of one room: live members, and no event. -/
def settleRoom (expired : ConnId → Bool) (room : ServerRoom) : ServerRoom :=
  { room.cleanExpiredClients expired with events := [] }

/-- Step 2b. -/
def Worker.distributeEvents (expired : ConnId → Bool) (w : Worker) : Worker :=
  { w with
    rooms := { w.rooms with activeRooms := w.rooms.activeRooms.map (settleRoom expired) }
    messagesOut := w.rooms.activeRooms.foldl (distributeRoom expired) w.messagesOut }

/-- Step 3.  The two lists of the tick end with it. -/
def Worker.cleanUp (w : Worker) : Worker :=
  { w with
    rooms := w.rooms.removeDestroyedRooms
    roomHistory := w.destroyedRooms.foldl (fun h name => Function.update h name none) w.roomHistory
    newRooms := []
    destroyedRooms := [] }

/-- Steps 2 and 3. -/
def Worker.finishTick (clients : List ConnId) (expired : ConnId → Bool) (w : Worker) : Worker :=
  ((w.announceRooms clients).distributeEvents expired).cleanUp

/-- One iteration of the loop. -/
def Worker.tick (t : TickInput) (w : Worker) : Exec Worker := do
  let w ← w.gatherMessages t
  pure (w.finishTick t.clients t.expired)

/-- The state in which the loop starts, with the rooms of the configuration. -/
def Worker.start (initialRooms : List String) : Worker :=
  { rooms := initialRooms.foldl (fun rooms name => (rooms.createRoom name).getD rooms) .new
    roomHistory := fun _ => none
    newRooms := []
    destroyedRooms := []
    messagesOut := fun _ => [] }

end Tavernmx.Server
