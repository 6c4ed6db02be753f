/-
# `Tavernmx.Server.FinishTick` — the end of a tick, room by room

Steps 2 and 3 loop over clients, over rooms and over members.  Here each loop is
told apart: what the rooms become (`Tracks.finishTick`), and what one fixed
client is sent (`finishTick_messagesOut`): the creations, then the destructions,
then the events of each room, if the client has joined it.
-/
import Tavernmx.Server.Simulation

namespace Tavernmx.Server

open Messaging Rooms

variable {w : Worker} {lives : Lives}

/-! ## What the rooms become -/

theorem settleRoom_toRoom (expired : ConnId → Bool) (r : String) (life : RoomLife) :
    settleRoom expired (life.toRoom r) = (life.settle expired).toRoom r := rfl

theorem isDestroyRequested_toRoom (r : String) (life : RoomLife) :
    isDestroyRequested (life.toRoom r) = life.doomed := rfl

theorem wf_distributeEvents (expired : ConnId → Bool) (h : w.rooms.WF) :
    (w.distributeEvents expired).rooms.WF := by
  refine ⟨?_, h.nodup, h.valid⟩
  show w.rooms.roomNames = (w.rooms.activeRooms.map (settleRoom expired)).map nameOf
  rw [List.map_map, h.names]
  rfl

theorem find?_distributeEvents (expired : ConnId → Bool) (r : String) :
    (w.distributeEvents expired).rooms.find? r = (w.rooms.find? r).map (settleRoom expired) := by
  show (w.rooms.activeRooms.map (settleRoom expired)).find? _ = _
  rw [List.find?_map]
  rfl

/-- Step 3 forgets the history of the destroyed rooms, and no other. -/
theorem eraseHistory_apply (r : String) : ∀ (names : List String) (roomHistory : RoomHistory),
    names.foldl (fun h name => Function.update h name none) roomHistory r =
      if r ∈ names then none else roomHistory r
  | [], roomHistory => rfl
  | name :: names, roomHistory => by
      rw [List.foldl_cons, eraseHistory_apply r names]
      by_cases hr : r = name
      · simp [hr]
      · simp [hr]

theorem TracksAt.finishTick {r : String} {life : Option RoomLife} (hwf : w.rooms.WF)
    (h : TracksAt w r life) (clients : List ConnId) (expired : ConnId → Bool) :
    TracksAt (w.finishTick clients expired) r (RoomLife.endTick expired life) := by
  have hroom : (w.finishTick clients expired).rooms.find? r
      = ((w.rooms.find? r).map (settleRoom expired)).filter fun room =>
        !isDestroyRequested room := by
    rw [← find?_distributeEvents expired]
    exact RoomManager.find?_removeDestroyedRooms (wf_distributeEvents expired hwf) r
  have hstored : (w.finishTick clients expired).roomHistory r
      = if r ∈ w.destroyedRooms then none else w.roomHistory r := eraseHistory_apply r _ _
  have hdestroyed := h.destroyedRooms
  rw [h.room] at hroom
  cases life with
  | none =>
      refine ⟨hroom, ?_, by simp [RoomLife.endTick, Worker.finishTick, Worker.cleanUp],
        by simp [RoomLife.endTick, Worker.finishTick, Worker.cleanUp]⟩
      rw [hstored, if_neg (by simp [hdestroyed])]
      exact h.stored
  | some life =>
      cases hdoomed : life.doomed with
      | true =>
          -- the room is removed, and so is its history
          have hend : RoomLife.endTick expired (some life) = none := by
            simp [RoomLife.endTick, hdoomed]
          rw [hend]
          refine ⟨?_, ?_, by simp [Worker.finishTick, Worker.cleanUp],
            by simp [Worker.finishTick, Worker.cleanUp]⟩
          · have hsettled : (life.settle expired).doomed = true := hdoomed
            rw [hroom, Option.map_some, Option.map_some, settleRoom_toRoom]
            simp [isDestroyRequested_toRoom, hsettled]
          · rw [hstored, if_pos (by simp [hdestroyed, hdoomed])]
            rfl
      | false =>
          have hend : RoomLife.endTick expired (some life) = some (life.settle expired) := by
            simp [RoomLife.endTick, hdoomed]
          rw [hend]
          refine ⟨?_, ?_, ?_, ?_⟩
          · have hsettled : (life.settle expired).doomed = false := hdoomed
            rw [hroom, Option.map_some, Option.map_some, settleRoom_toRoom]
            simp [isDestroyRequested_toRoom, hsettled]
          · rw [hstored, if_neg (by simp [hdestroyed, hdoomed])]
            have hlog : logOf (some (life.settle expired)) = logOf (some life) := by simp [logOf]
            rw [hlog]
            exact h.stored
          · simp [RoomLife.settle, Worker.finishTick, Worker.cleanUp]
          · simp [RoomLife.settle, hdoomed, Worker.finishTick, Worker.cleanUp]

/-- **The end of a tick keeps the worker in step with its rooms.** -/
theorem Tracks.finishTick (h : Tracks w lives) (clients : List ConnId) (expired : ConnId → Bool) :
    Tracks (w.finishTick clients expired) (lives.endTick expired) :=
  ⟨(wf_distributeEvents expired h.wf).removeDestroyedRooms,
    fun r => (h.named r).finishTick h.wf clients expired⟩

/-! ## What one client is sent -/

/-- The notifications of step 2a. -/
def notices (w : Worker) (clients : List ConnId) (c : ConnId) : List Message :=
  if c ∈ clients then w.newRooms.map createRoomCreate ++ w.destroyedRooms.map createRoomDestroy
  else []

/-- One event as the members of its room receive it. -/
def echoOf (r : String) (event : RoomEvent) : Message :=
  createChatEcho r event.eventText event.originUserName event.timestamp.toInt32

/-- The events of the room `r` for the client `c`. -/
def echoes (lives : Lives) (expired : ConnId → Bool) (c : ConnId) (r : String) : List Message :=
  match lives r with
  | some life => if c ∈ life.members ∧ expired c = false then life.pending.map (echoOf r) else []
  | none => []

theorem announceRooms_messagesOut {clients : List ConnId} (hclients : clients.Nodup) (c : ConnId) :
    (w.announceRooms clients).messagesOut c = w.messagesOut c ++ notices w clients c := by
  show Mailbox.broadcast _ clients _ c = _
  rw [Mailbox.broadcast_of_nodup hclients, Mailbox.broadcast_of_nodup hclients, notices]
  split <;> simp

theorem distributeRoom_apply {expired : ConnId → Bool} {room : ServerRoom}
    (hnodup : room.joinedClients.Nodup) (messagesOut : ConnId → List Message) (c : ConnId) :
    distributeRoom expired messagesOut room c = messagesOut c ++
      (if c ∈ room.joinedClients ∧ expired c = false then room.events.map (echoOf room.roomName)
        else []) := by
  have hmembers : ((room.cleanExpiredClients expired).joinedClients.filter
      fun client => !expired client).Nodup := (hnodup.filter _).filter _
  have hmem : c ∈ (room.cleanExpiredClients expired).joinedClients.filter
      (fun client => !expired client) ↔ c ∈ room.joinedClients ∧ expired c = false := by
    simp only [ServerRoom.cleanExpiredClients, List.mem_filter, Bool.not_eq_true']
    tauto
  rw [distributeRoom, Mailbox.pushEach_of_nodup hmembers, if_congr hmem rfl rfl]
  rfl

/-- Step 2b, for one client: room after room. -/
theorem distributeRooms_apply {expired : ConnId → Bool} (c : ConnId) :
    ∀ (rooms : List ServerRoom) (messagesOut : ConnId → List Message),
      (∀ room ∈ rooms, room.joinedClients.Nodup) →
      rooms.foldl (distributeRoom expired) messagesOut c = messagesOut c ++
        rooms.flatMap fun room => if c ∈ room.joinedClients ∧ expired c = false then
          room.events.map (echoOf room.roomName) else []
  | [], messagesOut, _ => by simp
  | room :: rooms, messagesOut, hnodup => by
      rw [List.foldl_cons, distributeRooms_apply c rooms _ fun r hr =>
        hnodup r (List.mem_cons_of_mem _ hr),
        distributeRoom_apply (hnodup room List.mem_cons_self), List.flatMap_cons, List.append_assoc]

/-- Every room object of the worker is the object of a life. -/
theorem Tracks.exists_life (h : Tracks w lives) {room : ServerRoom}
    (hroom : room ∈ w.rooms.activeRooms) :
    ∃ life, lives room.roomName = some life ∧ room = life.toRoom room.roomName := by
  have hfind := (h.wf.find?_eq_some_iff room.roomName room).mpr ⟨hroom, rfl⟩
  rw [(h.named room.roomName).room] at hfind
  obtain ⟨life, hlife, heq⟩ := Option.map_eq_some_iff.mp hfind
  exact ⟨life, hlife, heq.symm⟩

/-- **What a client is sent at the end of a tick.** -/
theorem finishTick_messagesOut (h : Tracks w lives) {clients : List ConnId}
    (hclients : clients.Nodup) (expired : ConnId → Bool) (c : ConnId) :
    (w.finishTick clients expired).messagesOut c =
      w.messagesOut c ++ (notices w clients c ++
        w.rooms.roomNames.flatMap (echoes lives expired c)) := by
  have hnodup : ∀ room ∈ w.rooms.activeRooms, room.joinedClients.Nodup := by
    intro room hroom
    obtain ⟨life, -, heq⟩ := h.exists_life hroom
    rw [heq]
    exact life.members_nodup
  show w.rooms.activeRooms.foldl (distributeRoom expired)
    (w.announceRooms clients).messagesOut c = _
  rw [distributeRooms_apply c _ _ hnodup, announceRooms_messagesOut hclients, List.append_assoc,
    h.wf.names, List.flatMap_map]
  congr 2
  refine List.flatMap_congr fun room hroom => ?_
  obtain ⟨life, hlife, heq⟩ := h.exists_life hroom
  show _ = echoes lives expired c room.roomName
  rw [echoes, hlife]
  show _ = if c ∈ life.members ∧ expired c = false then
    life.pending.map (echoOf room.roomName) else []
  rw [heq]
  rfl

end Tavernmx.Server
