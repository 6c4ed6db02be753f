/-
# `Tavernmx.Server.RoomLife` — what a room is, and how the worker tracks it

The server's rooms do not interfere: what becomes of the room named `r` depends
on the messages that name `r` and on nothing else.  `RoomLife` is one room seen
so, from its creation to its removal:

    told     the events distributed in earlier ticks
    pending  the events accepted in this tick
    members  who has joined
    doomed   a ROOM_DESTROY was accepted in this tick
    fresh    the room was created in this tick

`RoomLife.receive` is the life of a room under the messages of step 1, and
`RoomLife.endTick` its life under steps 2 and 3.  This is the specification: it
has no manager with two vectors, no lists of names, and no bounded buffer.

`Tracks w lives` says that the worker's state is that of the rooms `lives`.
`handleMessage_spec` and `Tracks.finishTick` are the simulation: a message that
is handled, and the end of a tick, keep it.  The first also says when a message
is handled at all (`SafeMessage`) and what its sender is answered (`Replies`).
-/
import Tavernmx.Lib.Fallible
import Tavernmx.Server.History

namespace Tavernmx.Server

open Messaging Rooms

/-! ## One room -/

/-- The room a message names. -/
def Incoming.roomName (m : Incoming) : String := m.message.text "room_name"

/-- The event a CHAT_SEND makes.  The name is that of the connection it came through. -/
def Incoming.event (userName : ConnId → String) (m : Incoming) : RoomEvent :=
  ⟨m.now, userName m.client, m.message.text "text"⟩

/-- How many entries a ROOM_HISTORY asks for. -/
def Incoming.eventCount (m : Incoming) : Int32 :=
  match messageValueOr Int32 m.message "event_count" 0 with
  | .ok n => n
  | .error _ => 0

structure RoomLife where
  told : List RoomEvent
  pending : List RoomEvent
  members : List ConnId
  members_nodup : members.Nodup
  doomed : Bool
  fresh : Bool

namespace RoomLife

/-- Everything chatted in the room since it was created. -/
def log (life : RoomLife) : List RoomEvent := life.told ++ life.pending

def born (client : ConnId) : RoomLife :=
  ⟨[], [], [client], List.nodup_singleton client, false, true⟩

def join (client : ConnId) (life : RoomLife) : RoomLife :=
  if h : client ∈ life.members then life
  else { life with
    members := life.members ++ [client]
    members_nodup := life.members_nodup.append (List.nodup_singleton client)
      (List.disjoint_singleton.mpr h) }

def doom (life : RoomLife) : RoomLife := { life with doomed := true }

def hear (event : RoomEvent) (life : RoomLife) : RoomLife :=
  { life with pending := life.pending ++ [event] }

/-- The room after its events were distributed, without the members that are gone. -/
def settle (expired : ConnId → Bool) (life : RoomLife) : RoomLife :=
  { life with
    told := life.told ++ life.pending
    pending := []
    members := life.members.filter fun client => !expired client
    members_nodup := life.members_nodup.filter _
    fresh := false }

/-- The life of the room `r` under one message. -/
def receive (userName : ConnId → String) (r : String) (life : Option RoomLife) (m : Incoming) :
    Option RoomLife :=
  if m.roomName = r then
    match m.message.messageType with
    | .roomCreate => if life.isNone && isValidRoomName r then some (born m.client) else life
    | .roomJoin => life.map (join m.client)
    | .roomDestroy => life.map doom
    | .chatSend => life.map (hear (m.event userName))
    | _ => life
  else life

/-- The life of a room at the end of a tick. -/
def endTick (expired : ConnId → Bool) (life : Option RoomLife) : Option RoomLife :=
  (life.filter fun life => !life.doomed).map (settle expired)

@[simp] theorem doomed_join (client : ConnId) (life : RoomLife) :
    (life.join client).doomed = life.doomed := by
  unfold join
  split <;> rfl

@[simp] theorem fresh_join (client : ConnId) (life : RoomLife) :
    (life.join client).fresh = life.fresh := by
  unfold join
  split <;> rfl

@[simp] theorem log_join (client : ConnId) (life : RoomLife) :
    (life.join client).log = life.log := by
  unfold join
  split <;> rfl

@[simp] theorem log_hear (event : RoomEvent) (life : RoomLife) :
    (life.hear event).log = life.log ++ [event] :=
  (List.append_assoc ..).symm

@[simp] theorem log_settle (expired : ConnId → Bool) (life : RoomLife) :
    (life.settle expired).log = life.log :=
  List.append_nil _

theorem receive_of_ne {userName : ConnId → String} {r : String} {m : Incoming}
    (h : m.roomName ≠ r) (life : Option RoomLife) : receive userName r life m = life :=
  if_neg h

end RoomLife

/-- The rooms of a server. -/
abbrev Lives := String → Option RoomLife

def Lives.receive (userName : ConnId → String) (lives : Lives) (m : Incoming) : Lives :=
  fun r => RoomLife.receive userName r (lives r) m

def Lives.endTick (expired : ConnId → Bool) (lives : Lives) : Lives :=
  fun r => RoomLife.endTick expired (lives r)

/-- The rooms of the configuration. -/
def Lives.start (initialRooms : List String) : Lives := fun r =>
  if r ∈ initialRooms ∧ isValidRoomName r = true then
    some ⟨[], [], [], List.nodup_nil, false, false⟩
  else none

/-- The log of a room that may not exist. -/
def logOf (life : Option RoomLife) : List RoomEvent := (life.map RoomLife.log).getD []

/-! ## The worker's state of these rooms -/

/-- The room object in which the worker keeps a life. -/
def RoomLife.toRoom (r : String) (life : RoomLife) : ServerRoom :=
  ⟨⟨r, life.doomed⟩, life.pending, life.members⟩

@[simp] theorem RoomLife.roomName_toRoom (r : String) (life : RoomLife) :
    (life.toRoom r).roomName = r := rfl

/-- The worker's state of the one name `r`. -/
structure TracksAt (w : Worker) (r : String) (life : Option RoomLife) : Prop where
  room : w.rooms.find? r = life.map (RoomLife.toRoom r)
  stored : StoredFor (logOf life) (w.roomHistory r)
  newRooms : r ∈ w.newRooms ↔ life.any (·.fresh)
  destroyedRooms : r ∈ w.destroyedRooms ↔ life.any (·.doomed)

structure Tracks (w : Worker) (lives : Lives) : Prop where
  wf : w.rooms.WF
  named : ∀ r, TracksAt w r (lives r)

/-- A message whose fields can be read where step 1 reads them, and whose
answer fits into one message. -/
def SafeMessage (lives : Lives) (m : Incoming) : Prop :=
  match m.message.messageType with
  | .roomCreate | .roomJoin | .roomDestroy => m.message.readable String "room_name"
  | .roomHistory =>
      m.message.readable String "room_name" ∧ m.message.readable Int32 "event_count" ∧
        (m.eventCount = 0 → (logOf (lives m.roomName)).length ≤ 100)
  | .chatSend =>
      m.message.readable String "room_name" ∧
        ((lives m.roomName).isSome → m.message.readable String "text")
  | _ => True

/-- The answer to a ROOM_HISTORY. -/
def historyReply (lives : Lives) (m : Incoming) : List Message :=
  match lives m.roomName with
  | some life =>
      if 0 ≤ m.eventCount ∧ m.eventCount ≤ roomHistoryMaxEntries then
        [historyMessage m.roomName ((shownLog life.log m.eventCount.toInt.toNat).map historyJson)]
      else []
  | none => []

/-- What the sender of a message is answered at once. -/
def Replies (lives : Lives) (m : Incoming) (replies : List Message) : Prop :=
  match m.message.messageType with
  | .roomList => ∃ names : List String,
      names.Nodup ∧ (∀ r, r ∈ names ↔ (lives r).isSome) ∧ replies = [createRoomList names]
  | .roomHistory => replies = historyReply lives m
  | _ => replies = []

/-- What handling a message leaves behind. -/
structure Handled (userName : ConnId → String) (w : Worker) (lives : Lives) (m : Incoming)
    (w' : Worker) : Prop where
  tracks : Tracks w' (lives.receive userName m)
  replies : ∃ replies, Replies lives m replies ∧
    w'.messagesOut = Mailbox.push w.messagesOut m.client replies

/-- The two ways in which handling a message can end. -/
def HandleSpec (userName : ConnId → String) (w : Worker) (lives : Lives) (m : Incoming) :
    Exec Worker → Prop
  | .ok w' => SafeMessage lives m ∧ Handled userName w lives m w'
  | .error _ => ¬ SafeMessage lives m

end Tavernmx.Server
