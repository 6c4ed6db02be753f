/-
# `Tavernmx.Server.Simulation` — the worker tracks the lives of its rooms

One lemma for each message type that step 1 acts on, one for each of steps 2 and
3, and `handleMessage_spec`, which collects the first group.  The later modules
use these two interfaces, `Handled` and `finishTick_*`, and do not look into
`handleMessage` again; only `Notifications` does, which counts how often a name is
in the lists of the tick.
-/
import Tavernmx.Server.RoomLife

namespace Tavernmx.Server

open Messaging Rooms

variable {userName : ConnId → String} {w w' : Worker} {lives : Lives} {m : Incoming}

/-! ## Reading the fields of a message -/

theorem roomName_of_ok {name : String}
    (h : messageValueOr String m.message "room_name" "" = .ok name) : name = m.roomName :=
  messageValueOr_string h

theorem eventCount_of_ok {n : Int32}
    (h : messageValueOr Int32 m.message "event_count" 0 = .ok n) :
    n = m.eventCount ∧ m.message.readable Int32 "event_count" := by
  constructor
  · rw [Incoming.eventCount, h]
  · exact readable_of_ok h

/-! ## Rooms that change under a message -/

theorem nameOf_join (client : ConnId) (room : ServerRoom) :
    nameOf (room.join client) = nameOf room := by
  unfold ServerRoom.join
  split <;> rfl

theorem nameOf_emplaceClient (client : ConnId) (room : ServerRoom) :
    nameOf (room.emplaceClient client) = nameOf room := rfl

theorem nameOf_pushEvent (event : RoomEvent) (room : ServerRoom) :
    nameOf (room.pushEvent event) = nameOf room := rfl

theorem toRoom_join (r : String) (client : ConnId) (life : RoomLife) :
    (life.toRoom r).join client = (life.join client).toRoom r := by
  unfold ServerRoom.join RoomLife.join
  by_cases h : client ∈ life.members
  · rw [dif_pos h, if_pos (show client ∈ (life.toRoom r).joinedClients from h)]
  · rw [dif_neg h, if_neg (show client ∉ (life.toRoom r).joinedClients from h)]
    rfl

/-- The worker has the same state of the name `r` before and after. -/
structure SameAt (w w' : Worker) (r : String) : Prop where
  room : w'.rooms.find? r = w.rooms.find? r
  stored : w'.roomHistory r = w.roomHistory r
  newRooms : r ∈ w'.newRooms ↔ r ∈ w.newRooms
  destroyedRooms : r ∈ w'.destroyedRooms ↔ r ∈ w.destroyedRooms

theorem TracksAt.of_same {r : String} {life : Option RoomLife} (h : TracksAt w r life)
    (hsame : SameAt w w' r) : TracksAt w' r life :=
  ⟨hsame.room ▸ h.room, hsame.stored ▸ h.stored, hsame.newRooms.trans h.newRooms,
    hsame.destroyedRooms.trans h.destroyedRooms⟩

/-- It is enough to look at the room a message names. -/
theorem Tracks.receive (h : Tracks w lives) (hwf : w'.rooms.WF)
    (hsame : ∀ r, r ≠ m.roomName → SameAt w w' r)
    (hnamed : TracksAt w' m.roomName (RoomLife.receive userName m.roomName (lives m.roomName) m)) :
    Tracks w' (lives.receive userName m) := by
  refine ⟨hwf, fun r => ?_⟩
  by_cases hr : r = m.roomName
  · subst hr
    exact hnamed
  · rw [Lives.receive, RoomLife.receive_of_ne (Ne.symm hr)]
    exact (h.named r).of_same (hsame r hr)

theorem Tracks.mem_roomNames_iff (h : Tracks w lives) (r : String) :
    r ∈ w.rooms.roomNames ↔ (lives r).isSome := by
  rw [h.wf.mem_roomNames_iff, (h.named r).room, Option.isSome_map]

/-- A handled message without an answer. -/
theorem Handled.silent (h : Tracks w' (lives.receive userName m))
    (hout : w'.messagesOut = w.messagesOut) (hsilent : Replies lives m []) :
    Handled userName w lives m w' :=
  ⟨h, [], hsilent, by rw [hout, Mailbox.push_nil]⟩

/-- A message that does nothing to the room it names. -/
theorem Tracks.ignore (h : Tracks w lives)
    (hnamed : RoomLife.receive userName m.roomName (lives m.roomName) m = lives m.roomName) :
    Tracks w (lives.receive userName m) :=
  h.receive h.wf (fun _ _ => ⟨rfl, rfl, Iff.rfl, Iff.rfl⟩) (hnamed.symm ▸ h.named m.roomName)

/-- A write to the room a message names, seen from that room. -/
theorem TracksAt.find?_modify {r : String} {life : RoomLife} (h : TracksAt w r (some life))
    {f : ServerRoom → ServerRoom} (hname : ∀ room, nameOf (f room) = nameOf room) :
    (w.rooms.modify r f).find? r = some (f (life.toRoom r)) := by
  rw [RoomManager.find?_modify r hname, if_pos rfl, h.room]
  rfl

/-- A write to one room, seen from another. -/
theorem find?_modify_of_ne {rooms : RoomManager ServerRoom} {f : ServerRoom → ServerRoom}
    (hname : ∀ room, nameOf (f room) = nameOf room) {r s : String} (h : r ≠ s) :
    (rooms.modify s f).find? r = rooms.find? r := by
  rw [RoomManager.find?_modify s hname, if_neg h]

/-! ## One message type at a time -/

/-- Every handler but that of ROOM_LIST begins with the name of a room. -/
theorem HandleSpec.ofName {handle : String → Exec Worker}
    (hsafe : SafeMessage lives m → m.message.readable String "room_name")
    (hhandle : m.message.readable String "room_name" →
      HandleSpec userName w lives m (handle m.roomName)) :
    HandleSpec userName w lives m
      (messageValueOr String m.message "room_name" "" >>= handle) := by
  cases hname : messageValueOr String m.message "room_name" "" with
  | error e => exact fun h => not_readable_of_error hname (hsafe h)
  | ok name =>
      obtain rfl := roomName_of_ok hname
      exact hhandle (readable_of_ok hname)

theorem handle_roomList (ht : m.message.messageType = .roomList) (h : Tracks w lives) :
    HandleSpec userName w lives m (w.handleMessage userName m) := by
  have hignored : Tracks w (lives.receive userName m) := h.ignore (by simp [RoomLife.receive, ht])
  simp only [Worker.handleMessage, ht]
  refine ⟨by simp [SafeMessage, ht], ⟨hignored.wf, fun r => ?_⟩, _, ?_, rfl⟩
  · exact (hignored.named r).of_same ⟨rfl, rfl, Iff.rfl, Iff.rfl⟩
  · simp only [Replies, ht]
    exact ⟨w.rooms.roomNames, h.wf.nodup, h.mem_roomNames_iff, rfl⟩

theorem handle_roomCreate (ht : m.message.messageType = .roomCreate) (h : Tracks w lives) :
    HandleSpec userName w lives m (w.handleMessage userName m) := by
  have hsilent : Replies lives m [] := by simp [Replies, ht]
  simp only [Worker.handleMessage, ht]
  refine .ofName (by simp [SafeMessage, ht]) fun hread => ?_
  have hsafe : SafeMessage lives m := by simpa [SafeMessage, ht] using hread
  by_cases hempty : m.roomName = ""
  · have hinvalid : isValidRoomName m.roomName = false := by rw [hempty]; rfl
    rw [if_pos hempty]
    exact ⟨hsafe, .silent (h.ignore (by simp [RoomLife.receive, ht, hinvalid])) rfl hsilent⟩
  rw [if_neg hempty]
  cases hcreate : w.rooms.createRoom m.roomName with
  | none =>
      -- the name is refused: not valid, or taken
      rw [RoomManager.createRoom_eq_none_iff, h.mem_roomNames_iff] at hcreate
      refine ⟨hsafe, .silent (h.ignore ?_) rfl hsilent⟩
      rcases hcreate with hinvalid | hsome
      · simp [RoomLife.receive, ht, hinvalid]
      · obtain ⟨life, hlife⟩ := Option.isSome_iff_exists.mp hsome
        simp [RoomLife.receive, ht, hlife]
  | some rooms =>
      obtain ⟨hvalid, hfresh, -⟩ := RoomManager.createRoom_eq_some hcreate
      have hnone : lives m.roomName = none := by
        rw [h.mem_roomNames_iff] at hfresh
        simpa using hfresh
      have hfind := RoomManager.find?_createRoom h.wf hcreate
      have hbefore := hnone ▸ h.named m.roomName
      refine ⟨hsafe, .silent (h.receive ((h.wf.createRoom hcreate).modify _
        (nameOf_emplaceClient _))
        (fun r hr => ⟨?_, rfl, ?_, Iff.rfl⟩) ?_) rfl hsilent⟩
      · show (rooms.modify m.roomName _).find? r = _
        rw [find?_modify_of_ne (nameOf_emplaceClient _) hr, hfind, if_neg hr]
      · simp [hr]
      · have hborn : RoomLife.receive userName m.roomName (lives m.roomName) m
            = some (RoomLife.born m.client) := by simp [RoomLife.receive, ht, hnone, hvalid]
        rw [hborn]
        refine ⟨?_, hbefore.stored, by simp [RoomLife.born], ?_⟩
        · show (rooms.modify m.roomName (ServerRoom.emplaceClient m.client)).find? _ = _
          rw [RoomManager.find?_modify m.roomName (nameOf_emplaceClient _), hfind,
            if_pos rfl, if_pos rfl]
          rfl
        · exact hbefore.destroyedRooms.trans (by simp [RoomLife.born])

theorem handle_roomJoin (ht : m.message.messageType = .roomJoin) (h : Tracks w lives) :
    HandleSpec userName w lives m (w.handleMessage userName m) := by
  have hsilent : Replies lives m [] := by simp [Replies, ht]
  simp only [Worker.handleMessage, ht]
  refine .ofName (by simp [SafeMessage, ht]) fun hread => ?_
  have hsafe : SafeMessage lives m := by simpa [SafeMessage, ht] using hread
  have hnamed := h.named m.roomName
  simp only [hnamed.room]
  cases hlife : lives m.roomName with
  | none =>
      exact ⟨hsafe, .silent (h.ignore (by simp [RoomLife.receive, ht, hlife])) rfl hsilent⟩
  | some life =>
      rw [hlife] at hnamed
      refine ⟨hsafe, .silent (h.receive (h.wf.modify _ (nameOf_join _))
        (fun r hr => ⟨find?_modify_of_ne (nameOf_join _) hr, rfl, Iff.rfl, Iff.rfl⟩) ?_)
        rfl hsilent⟩
      have hjoin : RoomLife.receive userName m.roomName (lives m.roomName) m
          = some (life.join m.client) := by simp [RoomLife.receive, ht, hlife]
      rw [hjoin]
      refine ⟨?_, ?_, ?_, ?_⟩
      · exact (hnamed.find?_modify (nameOf_join _)).trans (by rw [toRoom_join]; rfl)
      · simpa [logOf] using hnamed.stored
      · simpa using hnamed.newRooms
      · simpa using hnamed.destroyedRooms

theorem handle_roomDestroy (ht : m.message.messageType = .roomDestroy) (h : Tracks w lives) :
    HandleSpec userName w lives m (w.handleMessage userName m) := by
  have hsilent : Replies lives m [] := by simp [Replies, ht]
  simp only [Worker.handleMessage, ht]
  refine .ofName (by simp [SafeMessage, ht]) fun hread => ?_
  have hsafe : SafeMessage lives m := by simpa [SafeMessage, ht] using hread
  have hnamed := h.named m.roomName
  simp only [hnamed.room]
  cases hlife : lives m.roomName with
  | none =>
      exact ⟨hsafe, .silent (h.ignore (by simp [RoomLife.receive, ht, hlife])) rfl hsilent⟩
  | some life =>
      rw [hlife] at hnamed
      refine ⟨hsafe, .silent (h.receive (h.wf.modify _ nameOf_requestDestroy)
        (fun r hr => ⟨find?_modify_of_ne nameOf_requestDestroy hr, rfl, Iff.rfl, ?_⟩) ?_)
        rfl hsilent⟩
      · simp [hr]
      · have hdoom : RoomLife.receive userName m.roomName (lives m.roomName) m
            = some life.doom := by simp [RoomLife.receive, ht, hlife]
        rw [hdoom]
        exact ⟨hnamed.find?_modify nameOf_requestDestroy, hnamed.stored, hnamed.newRooms,
          by simp [RoomLife.doom]⟩

theorem handle_chatSend (ht : m.message.messageType = .chatSend) (h : Tracks w lives) :
    HandleSpec userName w lives m (w.handleMessage userName m) := by
  have hsilent : Replies lives m [] := by simp [Replies, ht]
  simp only [Worker.handleMessage, ht]
  refine .ofName (fun hsafe => ?_) fun hread => ?_
  · simp only [SafeMessage, ht] at hsafe
    exact hsafe.1
  have hnamed := h.named m.roomName
  simp only [bind, Except.bind, hnamed.room]
  cases hlife : lives m.roomName with
  | none =>
      exact ⟨by simp [SafeMessage, ht, hread, hlife],
        .silent (h.ignore (by simp [RoomLife.receive, ht, hlife])) rfl hsilent⟩
  | some life =>
      simp only [Option.map_some]
      cases htext : messageValueOr String m.message "text" "" with
      | error e =>
          have := not_readable_of_error htext
          simp [HandleSpec, SafeMessage, ht, hlife, this]
      | ok text =>
          have hsafe : SafeMessage lives m := by
            simp [SafeMessage, ht, hread, readable_of_ok htext]
          obtain rfl := messageValueOr_string htext
          rw [hlife] at hnamed
          refine ⟨hsafe, .silent (h.receive (h.wf.modify _ (nameOf_pushEvent _))
            (fun r hr => ⟨find?_modify_of_ne (nameOf_pushEvent _) hr, insertEvent_of_ne hr _,
              Iff.rfl, Iff.rfl⟩) ?_) rfl hsilent⟩
          have hhear : RoomLife.receive userName m.roomName (lives m.roomName) m
              = some (life.hear (m.event userName)) := by simp [RoomLife.receive, ht, hlife]
          rw [hhear]
          refine ⟨hnamed.find?_modify (nameOf_pushEvent _), ?_, hnamed.newRooms,
            hnamed.destroyedRooms⟩
          have hstored := insertEvent_self hnamed.stored (m.event userName)
          rw [logOf, Option.map_some, Option.getD_some, RoomLife.log_hear]
          exact hstored

theorem handle_roomHistory (ht : m.message.messageType = .roomHistory) (h : Tracks w lives) :
    HandleSpec userName w lives m (w.handleMessage userName m) := by
  have hignored : Tracks w (lives.receive userName m) := h.ignore (by simp [RoomLife.receive, ht])
  simp only [Worker.handleMessage, ht]
  refine .ofName (fun hsafe => ?_) fun hread => ?_
  · simp only [SafeMessage, ht] at hsafe
    exact hsafe.1
  simp only [bind, Except.bind]
  cases hcount : messageValueOr Int32 m.message "event_count" 0 with
  | error e =>
      have := not_readable_of_error hcount
      simp [HandleSpec, SafeMessage, ht, this]
  | ok n =>
      obtain ⟨rfl, hreadCount⟩ := eventCount_of_ok hcount
      have hnamed := h.named m.roomName
      simp only [hnamed.room]
      cases hlife : lives m.roomName with
      | none =>
          refine ⟨by simp [SafeMessage, ht, hread, hreadCount, hlife, logOf],
            .silent hignored rfl (by simp [Replies, ht, historyReply, hlife])⟩
      | some life =>
          simp only [Option.map_some]
          by_cases hrange : 0 ≤ m.eventCount ∧ m.eventCount ≤ roomHistoryMaxEntries
          · have hmin : (0 : Int) ≤ m.eventCount.toInt := Int32.le_iff_toInt_le.mp hrange.1
            have hmax : m.eventCount.toInt ≤ 100 := Int32.le_iff_toInt_le.mp hrange.2
            have hzero : m.eventCount.toInt.toNat = 0 ↔ m.eventCount = 0 := by
              rw [← Int32.toInt_inj]
              show _ ↔ m.eventCount.toInt = 0
              omega
            have hstored : StoredFor life.log (w.roomHistory m.roomName) := by
              simpa [hlife, logOf] using hnamed.stored
            have hreply := getRoomHistory_eq hstored (n := m.eventCount.toInt.toNat) (by omega)
            simp only [hzero] at hreply
            rw [if_pos hrange, RoomLife.roomName_toRoom, hreply]
            by_cases hbad : m.eventCount = 0 ∧ 100 < life.log.length
            · rw [if_pos hbad]
              have hlong : ¬ life.log.length ≤ 100 := by omega
              simp [HandleSpec, SafeMessage, ht, hlife, logOf, hbad.1, hlong]
            · rw [if_neg hbad]
              have hshort : m.eventCount = 0 → life.log.length ≤ 100 := by
                intro hz
                by_contra hlong
                exact hbad ⟨hz, by omega⟩
              refine ⟨?_, ⟨hignored.wf, fun r => ?_⟩, _, ?_, rfl⟩
              · simpa [SafeMessage, ht, hlife, logOf, hread, hreadCount] using hshort
              · exact (hignored.named r).of_same ⟨rfl, rfl, Iff.rfl, Iff.rfl⟩
              · simp [Replies, ht, historyReply, hlife, hrange]
          · rw [if_neg hrange]
            have hneg : m.eventCount ≠ 0 := by
              rintro hzero
              rw [hzero] at hrange
              exact hrange (by decide)
            refine ⟨by simp [SafeMessage, ht, hread, hreadCount, hneg],
              .silent hignored rfl (by simp [Replies, ht, historyReply, hlife, hrange])⟩

/-- **What handling a message does.** -/
theorem handleMessage_spec (userName : ConnId → String) (m : Incoming) (h : Tracks w lives) :
    HandleSpec userName w lives m (w.handleMessage userName m) := by
  have hignored : (∀ life, RoomLife.receive userName m.roomName life m = life) →
      Tracks w (lives.receive userName m) := fun hr => h.ignore (hr _)
  cases ht : m.message.messageType with
  | roomList => exact handle_roomList ht h
  | roomCreate => exact handle_roomCreate ht h
  | roomJoin => exact handle_roomJoin ht h
  | roomDestroy => exact handle_roomDestroy ht h
  | roomHistory => exact handle_roomHistory ht h
  | chatSend => exact handle_chatSend ht h
  | invalid | ack | nak | hello | heartbeat | chatEcho | unlisted c hc =>
      -- `default: break;`
      simp only [Worker.handleMessage, ht]
      exact ⟨by simp [SafeMessage, ht],
        .silent (hignored fun life => by simp [RoomLife.receive, ht]) rfl (by simp [Replies, ht])⟩

theorem handled_of_ok (h : Tracks w lives) (hok : w.handleMessage userName m = .ok w') :
    Handled userName w lives m w' := by
  have hspec := handleMessage_spec userName m h
  rw [hok] at hspec
  exact hspec.2

theorem handle_refines (userName : ConnId → String) :
    Fallible.Refines Tracks (Worker.handleMessage userName) (Lives.receive userName) :=
  fun _ _ _ _ h hok => (handled_of_ok h hok).tracks

theorem handle_guarded (userName : ConnId → String) :
    Fallible.GuardedBy Tracks (Worker.handleMessage userName) SafeMessage := by
  intro w lives m h
  have hspec := handleMessage_spec userName m h
  cases hok : w.handleMessage userName m with
  | ok w' =>
      rw [hok] at hspec
      exact ⟨fun _ => hspec.1, fun _ => ⟨w', rfl⟩⟩
  | error e =>
      rw [hok] at hspec
      constructor
      · rintro ⟨_, hw⟩
        cases hw
      · intro hsafe
        exact absurd hsafe hspec

end Tavernmx.Server
