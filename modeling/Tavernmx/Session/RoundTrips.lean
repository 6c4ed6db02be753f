/-
# `Tavernmx.Session.RoundTrips` — what is left of a value that was sent in a message

One side writes a value into the fields of a message, and the other reads it back.
The JSON library between them loses nothing (`deliver_lossless`), so it is the two
ends that decide what arrives:

    an event            in a CHAT_ECHO or in a ROOM_HISTORY
    the room names      in a ROOM_LIST

The time of an event is cast to 32 bits before it is written, in both kinds of
message (`events_survive_iff`).

The names of a ROOM_LIST are written under their positions in decimal, and read in
the order of the keys.  What is read is sorted by key, and what was written is in
the order of the positions; the two agree as long as the numerals are sorted as
strings are (`roomList_survives_iff`), which they are up to `"9"`.
-/
import Tavernmx.Client.Selection
import Tavernmx.Session.ClientView
import Tavernmx.Session.SampleCodec

namespace Tavernmx.Session

open Messaging Rooms Server Client

/-- A message as it arrives: written as JSON, encoded, decoded and read. -/
def deliver (codec : MsgPack) (message : Message) : Exec Message := do
  messageOfJson (← codec.fromMsgpack (codec.toMsgpack (messageToJson message)))

theorem deliver_lossless {codec : MsgPack} (h : codec.Lossless) (message : Message) :
    deliver codec message = .ok message := by
  rw [deliver, h.from_to]
  exact messageOfJson_messageToJson message

/-! ## Events -/

/-- The events of a room after `room_events_to_messages` and a CHAT_ECHO for each. -/
def sentAsEchoes (codec : MsgPack) (room : ServerRoom) : Exec (List RoomEvent) :=
  (roomEventsToMessages room).mapM fun message => do
    eventJsonToRoomEvent (← deliver codec message).values

/-- The stored events of a room after `get_room_history` and one ROOM_HISTORY. -/
def sentAsHistory (codec : MsgPack) (roomHistory : RoomHistory) (r : String) (n : Nat) :
    Exec (List RoomEvent) := do
  roomHistoryMessageToEvents (← deliver codec (← getRoomHistory roomHistory r n))

theorem sentAsEchoes_eq {codec : MsgPack} (h : codec.Lossless) (room : ServerRoom) :
    sentAsEchoes codec room = .ok (room.events.map asShown) := by
  rw [sentAsEchoes, roomEventsToMessages]
  generalize room.events = events
  induction events with
  | nil => rfl
  | cons event events ih =>
      have hfirst : (deliver codec (echoOf room.roomName event)).bind
          (fun message => eventJsonToRoomEvent message.values) = .ok (asShown event) := by
        rw [deliver_lossless h]
        exact eventJsonToRoomEvent_echoOf room.roomName event
      rw [List.map_cons, List.mapM_cons, ih]
      exact congrArg (fun first => first.bind fun x => .ok (x :: events.map asShown)) hfirst

theorem sentAsHistory_eq {codec : MsgPack} (h : codec.Lossless) {roomHistory : RoomHistory}
    {r : String} {events : List RoomEvent} (hstored : StoredFor events (roomHistory r)) {n : Nat}
    (hall : events.length ≤ n) (hmax : n ≤ 100) :
    sentAsHistory codec roomHistory r n = .ok (events.map asShown) := by
  have hshown : shownLog events n = events := by
    rw [shownLog]
    split
    · rfl
    · have hkept : keptLog events = events :=
        BoundedLog.rtake_of_length_le (by simp [Server.chatRoomHistorySize]; omega)
      rw [hkept, List.take_of_length_le hall]
  rw [sentAsHistory, getRoomHistory_eq hstored hmax, if_neg (by omega), hshown]
  show (deliver codec (historyMessage r (events.map historyJson))).bind _ = _
  rw [deliver_lossless h]
  exact roomHistoryMessageToEvents_historyMessage r events

/-- The time survives the cast when it has 32 bits. -/
theorem asShown_eq_self_iff {event : RoomEvent} (h : 0 ≤ event.timestamp) :
    asShown event = event ↔ event.timestamp < 2 ^ 31 := by
  have hmin : 0 ≤ event.timestamp.toInt := Int64.le_iff_toInt_le.mp h
  have hbound : (2 ^ 31 : Int64).toInt = 2 ^ 31 := rfl
  have hcast : event.timestamp.toInt32.toInt64 = event.timestamp
      ↔ event.timestamp.toInt.bmod (2 ^ 32) = event.timestamp.toInt := by
    rw [← Int64.toInt_inj, Int32.toInt_toInt64, Int64.toInt_toInt32]
  have hsame : asShown event = event ↔ event.timestamp.toInt32.toInt64 = event.timestamp :=
    ⟨congrArg RoomEvent.timestamp, fun htime => by rw [asShown, htime]⟩
  have hmax := event.timestamp.toInt_lt
  rw [hsame, hcast, Int64.lt_iff_toInt_lt, hbound, Int.bmod_def]
  split <;> omega

/-- **Events arrive as they were exactly when their times fit into 32 bits**, in either
kind of message. -/
theorem events_survive_iff {codec : MsgPack} (h : codec.Lossless) (r : String)
    {events : List RoomEvent} (hfrom : ∀ event ∈ events, 0 ≤ event.timestamp) :
    ((∀ room : ServerRoom, room.roomName = r → room.events = events →
        sentAsEchoes codec room = .ok events) ∧
      ∀ (roomHistory : RoomHistory) (n : Nat), StoredFor events (roomHistory r) →
        events.length ≤ n → n ≤ 100 → sentAsHistory codec roomHistory r n = .ok events) ↔
    ∀ event ∈ events, event.timestamp < 2 ^ 31 := by
  have hsame : events.map asShown = events ↔ ∀ event ∈ events, event.timestamp < 2 ^ 31 := by
    nth_rewrite 2 [← List.map_id events]
    rw [List.map_inj_left]
    exact forall₂_congr fun event hevent => asShown_eq_self_iff (hfrom event hevent)
  rw [← hsame]
  constructor
  · rintro ⟨hechoes, -⟩
    have hsent := hechoes ⟨⟨r, false⟩, events, []⟩ rfl rfl
    rw [sentAsEchoes_eq h] at hsent
    exact Except.ok.inj hsent
  · intro hshown
    constructor
    · rintro room - rfl
      rw [sentAsEchoes_eq h, hshown]
    · intro roomHistory n hstored hall hmax
      rw [sentAsHistory_eq h hstored hall hmax, hshown]

/-- The room with one event in it. -/
def oneEvent (event : RoomEvent) : ServerRoom := ⟨⟨"den", false⟩, [event], []⟩

theorem events_survive_today :
    sentAsEchoes sampleCodec (oneEvent ⟨1700000000, "ann", "hi"⟩)
        = .ok [⟨1700000000, "ann", "hi"⟩] ∧
      sentAsHistory sampleCodec
          (insertEventIntoRoomHistory (fun _ => none) "den" ⟨1700000000, "ann", "hi"⟩) "den" 100
        = .ok [⟨1700000000, "ann", "hi"⟩] := by
  have hfrom : ∀ event ∈ ([⟨1700000000, "ann", "hi"⟩] : List RoomEvent), 0 ≤ event.timestamp := by
    decide
  let noHistory : RoomHistory := fun _ => none
  have hempty : StoredFor [] (noHistory "den") := rfl
  have hstored : StoredFor [⟨1700000000, "ann", "hi"⟩]
      (insertEventIntoRoomHistory noHistory "den" ⟨1700000000, "ann", "hi"⟩ "den") :=
    insertEvent_self hempty _
  have hsurvive := (events_survive_iff sampleCodec_lossless "den" hfrom).mpr (by decide)
  exact ⟨hsurvive.1 _ rfl rfl, hsurvive.2 _ 100 hstored (by decide) (by decide)⟩

/-- One second after the greatest 32-bit time, an event is shown as of 1901. -/
theorem event_wraps : sampleCodec.Lossless ∧ (0 : Int64) ≤ 2147483648 ∧
    sentAsEchoes sampleCodec (oneEvent ⟨2147483648, "ann", "hi"⟩)
      = .ok [⟨-2147483648, "ann", "hi"⟩] ∧
    sentAsEchoes sampleCodec (oneEvent ⟨2147483648, "ann", "hi"⟩)
      ≠ .ok (oneEvent ⟨2147483648, "ann", "hi"⟩).events := by
  rw [sentAsEchoes_eq sampleCodec_lossless]
  refine ⟨sampleCodec_lossless, by decide, rfl, ?_⟩
  intro hsame
  exact absurd (Except.ok.inj hsame) (by decide)

/-! ## Room names -/

/-- Up to ten decimal numerals are in order as strings. -/
theorem numerals_sorted_iff (n : Nat) :
    ((List.range n).map fun i : Nat => toString i).Pairwise (· < ·) ↔ n ≤ 10 := by
  constructor
  · intro hsorted
    by_contra hmany
    have hlt := List.pairwise_iff_getElem.mp hsorted 2 10 (by simp; omega) (by simp; omega)
      (by decide)
    simp only [List.getElem_map, List.getElem_range] at hlt
    exact absurd hlt (by decide)
  · intro hfew
    have hten : ((List.range 10).map fun i : Nat => toString i).Pairwise (· < ·) := by decide
    exact hten.sublist ((List.range_sublist.mpr hfew).map _)

theorem sorted_writtenMembers_iff (names : List String) :
    Json.Sorted (writtenMembers names) ↔ names.length ≤ 10 := by
  rw [← numerals_sorted_iff, ← keys_writtenMembers, List.pairwise_map]
  rfl

/-- Lists with the same images agree where their members can be told by the image. -/
theorem eq_of_map_eq {A B : Type} {f : A → B} : ∀ {xs ys : List A}, xs.map f = ys.map f →
    (∀ x ∈ xs, ∀ y ∈ ys, f x = f y → x = y) → xs = ys
  | [], [], _, _ => rfl
  | x :: xs, y :: ys, h, hinj => by
      obtain ⟨hfirst, hrest⟩ := List.cons.inj h
      rw [hinj x List.mem_cons_self y List.mem_cons_self hfirst,
        eq_of_map_eq hrest fun x hx y hy =>
          hinj x (List.mem_cons_of_mem _ hx) y (List.mem_cons_of_mem _ hy)]

/-- The members are read in the order in which they were written when that is the order of
the keys, and otherwise the names show the difference. -/
theorem listedNames_eq_iff {names : List String} (hnodup : names.Nodup) :
    listedNames (createRoomList names) = names ↔ names.length ≤ 10 := by
  obtain ⟨hperm, hsorted⟩ := items_createRoomList names
  rw [← sorted_writtenMembers_iff]
  constructor
  · intro hsame
    have hvalues : (createRoomList names).values.items.map Prod.snd
        = (writtenMembers names).map Prod.snd := by
      rw [values_createRoomList, hsame, values_writtenMembers]
    have hdistinct : ((writtenMembers names).map Prod.snd).Nodup := by
      rw [values_writtenMembers]
      exact hnodup.map fun _ _ => Json.string.inj
    have hread : (createRoomList names).values.items = writtenMembers names :=
      eq_of_map_eq hvalues fun m hm m' hm' =>
        List.inj_on_of_nodup_map hdistinct (hperm.mem_iff.mp hm) hm'
    rwa [← hread]
  · intro hwritten
    have hread : (createRoomList names).values.items = writtenMembers names :=
      hperm.eq_of_pairwise (fun m m' _ _ hlt hgt => absurd hlt (lt_asymm hgt)) hsorted hwritten
    rw [listedNames, hread, values_writtenMembers, List.filterMap_map]
    exact List.filterMap_some

/-- What the ROOM_LIST handler makes of the names it is sent. -/
theorem handle_createRoomList (chat : ChatWindow) {names : List String} (hnodup : names.Nodup)
    (hvalid : ∀ name ∈ names, isValidRoomName name = true) :
    ∃ chat' pushed, chat.handleMessage (createRoomList names) = .ok (chat', pushed) ∧
      chat'.clientRooms.roomNames = listedNames (createRoomList names) := by
  let listed := listedNames (createRoomList names)
  have hperm : listed.Perm names := listedNames_createRoomList names
  have hloop := foldlM_createListedRoom _ listed .new (values_createRoomList names)
  obtain ⟨hrooms, hunmarked⟩ := ChatWindow.foldlM_createListedRoom_wf
    (RoomManager.wf_new (T := ClientRoom)) (fun r room h => by cases h) hloop
  obtain ⟨chat', pushed, hok, hshown⟩ := ChatWindow.showRooms_reselects chat hrooms hunmarked
  refine ⟨chat', pushed, ?_, hshown.names.trans ?_⟩
  · show ((createRoomList names).values.items.foldlM ChatWindow.createListedRoom .new).bind _ = _
    rw [hloop]
    exact hok
  · exact RoomManager.roomNames_createRooms listed .new (fun r hr => hvalid r (hperm.mem_iff.mp hr))
      (hperm.nodup_iff.mpr hnodup)

/-- **The names arrive in their order exactly when there are at most ten.** -/
theorem roomList_survives_iff {codec : MsgPack} (h : codec.Lossless)
    {rooms : RoomManager ServerRoom} (hrooms : rooms.WF) (chat : ChatWindow) :
    (∃ chat' pushed, (do chat.handleMessage (← deliver codec (createRoomList rooms.roomNames)))
        = .ok (chat', pushed) ∧ chat'.clientRooms.roomNames = rooms.roomNames) ↔
      rooms.roomNames.length ≤ 10 := by
  obtain ⟨chat', pushed, hok, hnames⟩ := handle_createRoomList chat hrooms.nodup hrooms.valid
  rw [← listedNames_eq_iff hrooms.nodup, deliver_lossless h]
  constructor
  · rintro ⟨chat₁, pushed₁, hok₁, hnames₁⟩
    cases hok.symm.trans hok₁
    exact hnames.symm.trans hnames₁
  · intro hsame
    exact ⟨chat', pushed, hok, hnames.trans hsame⟩

theorem wf_startRooms (initialRooms : List String) : (Worker.start initialRooms).rooms.WF :=
  (RoomManager.createRooms_spec initialRooms (RoomManager.wf_new (T := ServerRoom))).1

theorem roomList_survives_two : ∃ chat' pushed,
    (do ChatWindow.new.handleMessage (← deliver sampleCodec (createRoomList ["den", "hall"])))
      = .ok (chat', pushed) ∧ chat'.clientRooms.roomNames = ["den", "hall"] :=
  (roomList_survives_iff sampleCodec_lossless (wf_startRooms ["den", "hall"]) .new).mpr (by decide)

/-- Eleven rooms. -/
def elevenRooms : List String := ["a", "b", "c", "d", "e", "f", "g", "h", "i", "j", "k"]

/-- The eleventh name is read after the second. -/
theorem roomList_reorders : sampleCodec.Lossless ∧ (Worker.start elevenRooms).rooms.WF ∧
    (Worker.start elevenRooms).rooms.roomNames = elevenRooms ∧ ∃ chat' pushed,
      (do ChatWindow.new.handleMessage (← deliver sampleCodec (createRoomList elevenRooms)))
        = .ok (chat', pushed) ∧
      chat'.clientRooms.roomNames = ["a", "b", "k", "c", "d", "e", "f", "g", "h", "i", "j"] ∧
      chat'.clientRooms.roomNames ≠ elevenRooms := by
  have hlisted : listedNames (createRoomList elevenRooms)
      = ["a", "b", "k", "c", "d", "e", "f", "g", "h", "i", "j"] := by decide
  have hnodup : elevenRooms.Nodup := by decide
  obtain ⟨chat', pushed, hok, hnames⟩ := handle_createRoomList .new hnodup (by decide)
  rw [hlisted] at hnames
  refine ⟨sampleCodec_lossless, wf_startRooms _, by decide, chat', pushed, ?_, hnames, ?_⟩
  · rw [deliver_lossless sampleCodec_lossless]
    exact hok
  · rw [hnames]
    decide

end Tavernmx.Session
