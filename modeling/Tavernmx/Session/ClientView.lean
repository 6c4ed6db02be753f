/-
# `Tavernmx.Session.ClientView` — the chat window under the server's messages

`Heard` says what handling one message does to what the window has of each room:
it believes the message (`Notice.knows`, `Notice.shows`), a room object that
counts as joined survives only a message that does not reset it, and whatever
becomes joined has its two requests pushed.

There is one lemma for each kind of message, and `handleMessage_heard` collects
them: no message of the server makes the handler fail.
-/
import Tavernmx.Session.Notice

namespace Tavernmx.Session

open Messaging Rooms Server Client

structure Heard (chat : ChatWindow) (msg : Message) (chat' : ChatWindow) (pushed : List Message) :
    Prop where
  wf : chat'.WF
  requests : pushed = [] ∨ ∃ name, pushed = joinRequests name
  knows : ∀ r, chat'.knows r = (noticeOf r msg).toList.foldl Notice.knows (chat.knows r)
  joined : ∀ r, chat'.joined r = true →
    (chat.joined r = true ∧ ∀ n ∈ noticeOf r msg, n.resets = false) ∨ pushed = joinRequests r
  shows : ∀ r shown, Shows (chat.screen.chatRoomHistory r) shown →
    ∃ shown', Shows (chat'.screen.chatRoomHistory r) shown' ∧
      (chat'.knows r = true → (∀ n ∈ noticeOf r msg, n.resets = false) →
        shown' = (noticeOf r msg).toList.foldl Notice.shows shown)

variable {chat chat' : ChatWindow} {msg : Message} {pushed : List Message}

/-- A message that makes the window list new rooms. -/
theorem Heard.of_displays (hchat : chat.WF) {clientRooms : RoomManager ClientRoom}
    (hrooms : clientRooms.WF) (h : Displays chat clientRooms chat' pushed)
    (hknows : ∀ r, (clientRooms.find? r).isSome
      = (noticeOf r msg).toList.foldl Notice.knows (chat.knows r))
    (hjoined : ∀ r, (clientRooms.find? r).any (·.isJoined) = true →
      chat.joined r = true ∧ ∀ n ∈ noticeOf r msg, n.resets = false)
    (hshows : ∀ r, ∀ n ∈ noticeOf r msg, ∀ shown, n.shows shown = shown) :
    Heard chat msg chat' pushed := by
  have hstored : ∀ r shown, Shows (chat.screen.chatRoomHistory r) shown →
      ∃ shown', Shows (chat'.screen.chatRoomHistory r) shown' ∧
        (chat'.knows r = true → shown' = shown) := by
    intro r shown hshown
    rw [h.history r]
    by_cases hr : r ∈ clientRooms.roomNames
    · rw [if_pos hr]
      exact ⟨shown, hshown, fun _ => rfl⟩
    · rw [if_neg hr]
      refine ⟨none, rfl, ?_⟩
      intro hknown
      rw [h.knows r, ← hrooms.mem_roomNames_iff] at hknown
      exact absurd hknown hr
  refine ⟨⟨h.rooms, h.unmarked, ?_⟩, h.requests, ?_, ?_, ?_⟩
  · intro r
    obtain ⟨shown, hshown⟩ := hchat.histories r
    obtain ⟨shown', hshown', -⟩ := hstored r shown hshown
    exact ⟨shown', hshown'⟩
  · intro r
    rw [h.knows r, hknows r]
  · intro r hr
    exact (h.joined r hr).imp_left (hjoined r)
  · intro r shown hshown
    obtain ⟨shown', hshown', heq⟩ := hstored r shown hshown
    refine ⟨shown', hshown', ?_⟩
    intro hknown _
    rw [heq hknown]
    cases hn : noticeOf r msg with
    | none => rfl
    | some n => exact (hshows r n hn shown).symm

/-- A message that only changes the history of one room on the screen. -/
theorem Heard.of_screen (hchat : chat.WF) {screen : ChatWindowScreen}
    (hknows : ∀ r, ∀ n ∈ noticeOf r msg, n.resets = false ∧ ∀ known, n.knows known = known)
    (hshows : ∀ r shown, Shows (chat.screen.chatRoomHistory r) shown →
      ∃ shown', Shows (screen.chatRoomHistory r) shown' ∧
        (chat.knows r = true → shown' = (noticeOf r msg).toList.foldl Notice.shows shown)) :
    Heard chat msg { chat with screen } [] := by
  refine ⟨⟨hchat.rooms, hchat.unmarked, ?_⟩, Or.inl rfl, ?_, ?_, ?_⟩
  · intro r
    obtain ⟨shown, hshown⟩ := hchat.histories r
    obtain ⟨shown', hshown', -⟩ := hshows r shown hshown
    exact ⟨shown', hshown'⟩
  · intro r
    show chat.knows r = _
    cases hn : noticeOf r msg with
    | none => rfl
    | some n => exact ((hknows r n hn).2 _).symm
  · intro r hr
    exact Or.inl ⟨hr, fun n hn => (hknows r n hn).1⟩
  · intro r shown hshown
    obtain ⟨shown', hshown', heq⟩ := hshows r shown hshown
    exact ⟨shown', hshown', fun hknown _ => heq hknown⟩

/-- A message about one room that tells nothing new: the window does not know the
room that is not there, or knows the room that was created. -/
theorem Heard.unchanged (hchat : chat.WF) {name : String} {n : Notice}
    (hnotice : ∀ r, noticeOf r msg = if name = r then some n else none)
    (h : chat.knows name = false ∧ n.knows false = false ∨ chat.knows name = true ∧ n = .created) :
    Heard chat msg chat [] := by
  have hjoined : chat.joined name = true → chat.knows name = true := by
    intro hr
    rw [ChatWindow.joined] at hr
    rw [ChatWindow.knows]
    cases hfind : chat.clientRooms.find? name with
    | none =>
        rw [hfind] at hr
        cases hr
    | some room => rfl
  refine ⟨hchat, Or.inl rfl, ?_, ?_, ?_⟩
  · intro r
    rw [hnotice]
    split
    · next hr =>
        subst hr
        rcases h with ⟨hknows, hfalse⟩ | ⟨hknows, rfl⟩
        · rw [hknows]
          exact hfalse.symm
        · exact hknows
    · rfl
  · intro r hr
    refine Or.inl ⟨hr, ?_⟩
    intro m hm
    rw [hnotice] at hm
    split at hm
    · next heq =>
        subst heq
        obtain rfl := Option.some.inj hm
        rcases h with ⟨hknows, -⟩ | ⟨-, rfl⟩
        · cases hknows.symm.trans (hjoined hr)
        · rfl
    · cases hm
  · intro r shown hshown
    refine ⟨shown, hshown, ?_⟩
    intro hknown _
    rw [hnotice]
    split
    · next heq =>
        subst heq
        rcases h with ⟨hknows, -⟩ | ⟨-, rfl⟩
        · cases hknows.symm.trans hknown
        · rfl
    · rfl

/-- A message that makes one room appear or go. -/
theorem Heard.of_named (hchat : chat.WF) {clientRooms : RoomManager ClientRoom}
    (hrooms : clientRooms.WF) (h : Displays chat clientRooms chat' pushed) {name : String}
    {n : Notice}
    {room : Option ClientRoom} (hnotice : ∀ r, noticeOf r msg = if name = r then some n else none)
    (hfind : ∀ r, clientRooms.find? r = if r = name then room else chat.clientRooms.find? r)
    (hnew : room.any (·.isJoined) = false) (hknows : ∀ known, n.knows known = room.isSome)
    (hshows : ∀ shown, n.shows shown = shown) : Heard chat msg chat' pushed := by
  refine Heard.of_displays hchat hrooms h ?_ ?_ ?_
  · intro r
    rw [hfind, hnotice]
    by_cases hr : r = name
    · rw [if_pos hr, if_pos hr.symm]
      exact (hknows _).symm
    · rw [if_neg hr, if_neg (Ne.symm hr)]
      rfl
  · intro r hr
    rw [hfind] at hr
    split at hr
    · cases hnew.symm.trans hr
    · refine ⟨hr, ?_⟩
      intro m hm
      rw [hnotice, if_neg (Ne.symm ‹_›)] at hm
      cases hm
  · intro r m hm shown
    rw [hnotice] at hm
    split at hm
    · obtain rfl := Option.some.inj hm
      exact hshows shown
    · cases hm

/-! ## One kind of message at a time -/

/-- The loop over a ROOM_LIST creates the listed rooms. -/
theorem foldlM_createListedRoom : ∀ (items : List (String × Json)) (names : List String)
    (clientRooms : RoomManager ClientRoom), items.map Prod.snd = names.map Json.string →
    items.foldlM ChatWindow.createListedRoom clientRooms =
      .ok (names.foldl (fun rooms name => (rooms.createRoom name).getD rooms) clientRooms)
  | [], names, clientRooms, h => by
      obtain rfl : names = [] := List.map_eq_nil_iff.mp h.symm
      rfl
  | item :: items, [], clientRooms, h => by cases h
  | item :: items, name :: names, clientRooms, h => by
      obtain ⟨hitem, hitems⟩ := List.cons.inj h
      have hstep : ChatWindow.createListedRoom clientRooms item
          = .ok ((clientRooms.createRoom name).getD clientRooms) := by
        rw [ChatWindow.createListedRoom, hitem]
        rfl
      rw [List.foldlM_cons, hstep, List.foldl_cons]
      exact foldlM_createListedRoom items names _ hitems

/-- Handling `msg` succeeds, and the window believes it. -/
abbrev Hears (chat : ChatWindow) (msg : Message) : Prop :=
  ∃ chat' pushed, chat.handleMessage msg = .ok (chat', pushed) ∧ Heard chat msg chat' pushed

theorem hears_roomList (hchat : chat.WF) {names : List String}
    (hvalid : ∀ name ∈ names, isValidRoomName name = true) : Hears chat (createRoomList names) := by
  let listed := listedNames (createRoomList names)
  have hmem : ∀ r, r ∈ listed ↔ r ∈ names := fun r => (listedNames_createRoomList names).mem_iff
  obtain ⟨hrooms, hcreated⟩ :=
    RoomManager.createRooms_spec listed (RoomManager.wf_new (T := ClientRoom))
  have hfind : ∀ r, (listed.foldl (fun rooms name => (rooms.createRoom name).getD rooms)
      (RoomManager.new (T := ClientRoom))).find? r
        = if r ∈ names then some (IsRoom.make r) else none := by
    intro r
    have hvalid' : (r ∈ listed ∧ isValidRoomName r = true) ↔ r ∈ names :=
      ⟨fun h => (hmem r).mp h.1, fun h => ⟨(hmem r).mpr h, hvalid r h⟩⟩
    rw [hcreated r, RoomManager.find?_new, Option.none_or, if_congr hvalid' rfl rfl]
  have hloop := foldlM_createListedRoom _ listed .new (values_createRoomList names)
  obtain ⟨chat', pushed, hok, hdisplays⟩ := showRooms_spec chat hrooms (by
    intro r room hroom
    rw [hfind] at hroom
    split at hroom
    · obtain rfl := Option.some.inj hroom
      rfl
    · cases hroom)
  refine ⟨chat', pushed, ?_, Heard.of_displays hchat hrooms hdisplays ?_ ?_ ?_⟩
  · show (do let clientRooms ← (createRoomList names).values.items.foldlM _ _
             chat.showRooms clientRooms) = _
    rw [hloop]
    exact hok
  · intro r
    rw [hfind, noticeOf_createRoomList]
    by_cases hr : r ∈ names <;> simp [hr, Notice.knows]
  · intro r hr
    rw [hfind] at hr
    split at hr <;> cases hr
  · intro r n hn shown
    rw [noticeOf_createRoomList] at hn
    obtain rfl := Option.some.inj hn
    rfl

theorem hears_roomCreate (hchat : chat.WF) {name : String} (hvalid : isValidRoomName name = true) :
    Hears chat (createRoomCreate name) := by
  have hread : messageValueOr String (createRoomCreate name) "room_name" "" = .ok name :=
    messageValueOr_of_find? (find?_roomMessage .roomCreate name) ""
  cases hcreate : chat.clientRooms.createRoom name with
  | none =>
      have hhandle : chat.handleMessage (createRoomCreate name) = .ok (chat, []) := by
        show (messageValueOr String (createRoomCreate name) "room_name" "" >>= _) = _
        simp only [hread, bind, Except.bind, hcreate]
        rfl
      refine ⟨chat, [], hhandle, Heard.unchanged hchat
        (fun r => noticeOf_createRoomCreate r name) ?_⟩
      rcases RoomManager.createRoom_eq_none_iff.mp hcreate with hinvalid | htaken
      · cases hvalid.symm.trans hinvalid
      · exact Or.inr ⟨(hchat.rooms.mem_roomNames_iff name).mp htaken, rfl⟩
  | some clientRooms =>
      have hhandle : chat.handleMessage (createRoomCreate name) = chat.showRooms clientRooms := by
        show (messageValueOr String (createRoomCreate name) "room_name" "" >>= _) = _
        simp only [hread, bind, Except.bind, hcreate]
      have hfind := RoomManager.find?_createRoom hchat.rooms hcreate
      have hrooms := hchat.rooms.createRoom hcreate
      obtain ⟨chat', pushed, hok, hdisplays⟩ := showRooms_spec chat hrooms
        (RoomManager.unmarked_createRoom hchat.rooms hchat.unmarked hcreate)
      exact ⟨chat', pushed, hhandle.trans hok,
        Heard.of_named hchat hrooms hdisplays (fun r => noticeOf_createRoomCreate r name) hfind rfl
          (fun _ => rfl) fun _ => rfl⟩

theorem hears_roomDestroy (hchat : chat.WF) (name : String) :
    Hears chat (createRoomDestroy name) := by
  have hread : messageValueOr String (createRoomDestroy name) "room_name" "" = .ok name :=
    messageValueOr_of_find? (find?_roomMessage .roomDestroy name) ""
  cases hroom : chat.clientRooms.find? name with
  | none =>
      have hhandle : chat.handleMessage (createRoomDestroy name) = .ok (chat, []) := by
        show (messageValueOr String (createRoomDestroy name) "room_name" "" >>= _) = _
        simp only [hread, bind, Except.bind, hroom]
        rfl
      exact ⟨chat, [], hhandle, Heard.unchanged hchat (fun r => noticeOf_createRoomDestroy r name)
        (Or.inl ⟨by rw [ChatWindow.knows, hroom]; rfl, rfl⟩)⟩
  | some room =>
      have hrooms := (hchat.rooms.modify name nameOf_requestDestroy).removeDestroyedRooms
      -- only the named room goes
      have hfind := RoomManager.find?_destroy hchat.rooms hchat.unmarked name
      have hunmarked := RoomManager.unmarked_destroy hchat.rooms hchat.unmarked name
      obtain ⟨chat', pushed, hok, hdisplays⟩ : ∃ chat' pushed,
          chat.handleMessage (createRoomDestroy name) = .ok (chat', pushed) ∧ Displays chat
            (chat.clientRooms.modify name IsRoom.requestDestroy).removeDestroyedRooms
              chat' pushed := by
        show ∃ chat' pushed,
          (messageValueOr String (createRoomDestroy name) "room_name" "" >>= _) = _ ∧ _
        simp only [hread, bind, Except.bind, hroom]
        by_cases hcurrent : chat.screen.currentRoomName = name
        · simp only [if_pos hcurrent]
          exact (displays_of_screen hrooms hunmarked rfl).joinCurrentRoom
        · simp only [if_neg hcurrent]
          exact ⟨_, [], rfl,
            displays_of_screen hrooms hunmarked (chatRoomHistory_selectRoomByName _ _)⟩
      exact ⟨chat', pushed, hok,
        Heard.of_named hchat hrooms hdisplays (fun r => noticeOf_createRoomDestroy r name) hfind rfl
          (fun _ => rfl) fun _ => rfl⟩

theorem hears_roomHistory (hchat : chat.WF) (name : String) (events : List RoomEvent) :
    Hears chat (historyMessage name (events.map historyJson)) := by
  have hread : messageValueOr String (historyMessage name (events.map historyJson)) "room_name" ""
      = .ok name := messageValueOr_of_find? (find?_historyMessage ..) ""
  cases hroom : chat.clientRooms.find? name with
  | none =>
      have hhandle : chat.handleMessage (historyMessage name (events.map historyJson))
          = .ok (chat, []) := by
        show (messageValueOr String (historyMessage name (events.map historyJson))
          "room_name" "" >>= _) = _
        simp only [hread, bind, Except.bind, hroom]
        rfl
      exact ⟨chat, [], hhandle, Heard.unchanged hchat
        (fun r => noticeOf_historyMessage r name events)
        (Or.inl ⟨by rw [ChatWindow.knows, hroom]; rfl, rfl⟩)⟩
  | some room =>
      have hhandle : chat.handleMessage (historyMessage name (events.map historyJson))
          = .ok ({ chat with
              screen := chat.screen.rewriteChatHistory room.roomName (events.map asShown) },
            []) := by
        show (messageValueOr String (historyMessage name (events.map historyJson))
          "room_name" "" >>= _) = _
        simp only [hread, bind, Except.bind, hroom, roomHistoryMessageToEvents_historyMessage]
        rfl
      obtain rfl : room.roomName = name := RoomManager.find?_eq_some_name hroom
      refine ⟨_, _, hhandle, Heard.of_screen hchat ?_ ?_⟩
      · intro r n hn
        rw [noticeOf_historyMessage] at hn
        split at hn
        · obtain rfl := Option.some.inj hn
          exact ⟨rfl, fun _ => rfl⟩
        · cases hn
      · intro r shown hshown
        rw [noticeOf_historyMessage]
        by_cases hr : room.roomName = r
        · subst hr
          refine ⟨some (events.map asShown), ?_, fun _ => by rw [if_pos rfl]; rfl⟩
          have hfresh : (if (chat.screen.chatRoomHistory room.roomName).isSome then RingBuffer.new
              else RingBuffer.new.reset : ChatHistory).Holds [] := by
            split
            · exact RingBuffer.holds_new
            · exact RingBuffer.holds_reset _
          simpa [ChatWindowScreen.rewriteChatHistory]
            using shows_rewrite hfresh (events.map asShown)
        · refine ⟨shown, ?_, fun _ => by rw [if_neg hr]; rfl⟩
          simpa [ChatWindowScreen.rewriteChatHistory, Function.update_of_ne (Ne.symm hr)]
            using hshown

theorem hears_chatEcho (hchat : chat.WF) (name : String) (event : RoomEvent) :
    Hears chat (echoOf name event) := by
  have hread : messageValueOr String (echoOf name event) "room_name" "" = .ok name :=
    messageValueOr_of_find? (find?_createChatEcho ..) ""
  have hhandle : chat.handleMessage (echoOf name event) = .ok ({ chat with
      screen := chat.screen.insertChatHistoryEvent name (asShown event) }, []) := by
    show (do let roomName ← messageValueOr String (echoOf name event) "room_name" ""
             let event ← eventJsonToRoomEvent (echoOf name event).values
             pure ({ chat with
               screen := chat.screen.insertChatHistoryEvent roomName event }, [])) = _
    rw [hread, eventJsonToRoomEvent_echoOf]
    rfl
  refine ⟨_, _, hhandle, Heard.of_screen hchat ?_ ?_⟩
  · intro r n hn
    rw [noticeOf_echoOf] at hn
    split at hn
    · obtain rfl := Option.some.inj hn
      exact ⟨rfl, fun _ => rfl⟩
    · cases hn
  · intro r shown hshown
    rw [noticeOf_echoOf]
    by_cases hr : name = r
    · subst hr
      refine ⟨some (shown.getD [] ++ [asShown event]), ?_, fun _ => by rw [if_pos rfl]; rfl⟩
      simpa [ChatWindowScreen.insertChatHistoryEvent] using hshown.insert (asShown event)
    · refine ⟨shown, ?_, fun _ => by rw [if_neg hr]; rfl⟩
      simpa [ChatWindowScreen.insertChatHistoryEvent, Function.update_of_ne (Ne.symm hr)]
        using hshown

/-- **The window believes every message of the server.** -/
theorem handleMessage_heard (hchat : chat.WF) (hmsg : FromServer msg) : Hears chat msg := by
  cases hmsg with
  | roomList names hnodup hvalid => exact hears_roomList hchat hvalid
  | roomCreate name hvalid => exact hears_roomCreate hchat hvalid
  | roomDestroy name => exact hears_roomDestroy hchat name
  | roomHistory name events => exact hears_roomHistory hchat name events
  | chatEcho name event => exact hears_chatEcho hchat name event

/-- All the messages that wait: what the window then knows of a room is what they say. -/
theorem handleMessages_heard : ∀ (msgs : List Message) {chat : ChatWindow}, chat.WF →
    (∀ msg ∈ msgs, FromServer msg) → ∃ chat' pushed,
      chat.handleMessages msgs = .ok (chat', pushed) ∧ chat'.WF ∧
        ∀ r, chat'.knows r = (noticesOf r msgs).foldl Notice.knows (chat.knows r)
  | [], chat, hchat, _ => ⟨chat, [], rfl, hchat, fun _ => rfl⟩
  | msg :: msgs, chat, hchat, hmsgs => by
      obtain ⟨mid, pushed, hok, hheard⟩ := handleMessage_heard hchat (hmsgs msg List.mem_cons_self)
      obtain ⟨chat', more, hrest, hwf, hknows⟩ := handleMessages_heard msgs hheard.wf
        fun m hm => hmsgs m (List.mem_cons_of_mem _ hm)
      refine ⟨chat', pushed ++ more, ?_, hwf, ?_⟩
      · rw [ChatWindow.handleMessages, hok]
        simp only [bind, Except.bind, hrest, pure, Except.pure]
      · intro r
        rw [hknows, hheard.knows, noticesOf_cons, List.foldl_append]

end Tavernmx.Session
