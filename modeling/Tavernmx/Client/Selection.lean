/-
# `Tavernmx.Client.Selection` — the chat window over a whole session

A handler of the chat window lists the rooms anew, which resets the selection, and
then selects again, each in its own way.  `Consistent` is what they all have to
restore: the screen lists the rooms of `client_rooms`, the selection is one of
them, and a join was issued for it.

The three handlers that change the rooms do the same in the end: in a consistent
window, each is `showRooms` on the rooms it leaves (`handleMessage_cases`).  So
there is one lemma about selecting again (`showRooms_reselects`), and what a
handler does (`Handles`) follows from it.

A room object is known by its name and the handler call that made it.  `Window`
keeps these beside the window, and every join with the object that caused it; a
room that is removed and created again is another object.
-/
import Tavernmx.Client.ChatWindow
import Tavernmx.Lib.Fallible
import Tavernmx.Lib.Runs

namespace Tavernmx.Client

open Messaging Rooms

/-! ## Events -/

/-- What the window reacts to: a message, or an entry picked in the list box. -/
inductive WindowEvent where
  | message (msg : Message)
  | pick (index : Nat)

namespace ChatWindow

def new : ChatWindow := ⟨.new, .new⟩

def handle (chat : ChatWindow) : WindowEvent → Exec (ChatWindow × List Message)
  | .message msg => chat.handleMessage msg
  | .pick index => chat.changeRoom index

/-- The list box has the entries below `room_names_size`. -/
def Offers (chat : ChatWindow) : WindowEvent → Prop
  | .message _ => True
  | .pick index => index < chat.screen.roomNames.length

instance (chat : ChatWindow) : (e : WindowEvent) → Decidable (chat.Offers e)
  | .message _ => .isTrue trivial
  | .pick index => inferInstanceAs (Decidable (index < _))

/-! ## What a handler restores -/

/-- The screen lists the rooms, and the selection is one of them. -/
structure Listed (chat : ChatWindow) : Prop where
  rooms : chat.clientRooms.WF
  unmarked : ∀ r room, chat.clientRooms.find? r = some room → isDestroyRequested room = false
  names : chat.screen.roomNames = chat.clientRooms.roomNames
  noRoom : chat.screen.roomNames = [] →
    chat.screen.currentRoomName = "" ∧ chat.screen.currentRoomIndex = 0
  selected : chat.screen.roomNames ≠ [] →
    chat.screen.roomNames[chat.screen.currentRoomIndex]? = some chat.screen.currentRoomName

/-- A join was issued for the selected room, too. -/
structure Consistent (chat : ChatWindow) : Prop extends Listed chat where
  joined : chat.screen.roomNames ≠ [] → chat.joined chat.screen.currentRoomName = true

variable {chat chat' : ChatWindow} {clientRooms : RoomManager ClientRoom} {pushed : List Message}

theorem Listed.current_mem (h : chat.Listed) (hnames : chat.screen.roomNames ≠ []) :
    chat.screen.currentRoomName ∈ chat.clientRooms.roomNames := by
  rw [← h.names]
  exact List.mem_of_getElem? (h.selected hnames)

theorem Listed.current_ne (h : chat.Listed) (hnames : chat.screen.roomNames ≠ []) :
    chat.screen.currentRoomName ≠ "" := by
  intro hempty
  have hvalid := h.rooms.valid _ (h.current_mem hnames)
  rw [hempty] at hvalid
  exact absurd hvalid (by decide)

theorem consistent_new : (new : ChatWindow).Consistent where
  rooms := RoomManager.wf_new
  unmarked r room h := by cases h
  names := rfl
  noRoom _ := ⟨rfl, rfl⟩
  selected h := absurd rfl h
  joined h := absurd rfl h

/-- Issuing the join that may be needed leaves the window consistent; what is
pushed is pushed for a room object that had not been joined. -/
structure Selects (chat chat' : ChatWindow) (pushed : List Message) : Prop where
  consistent : chat'.Consistent
  screen : chat'.screen = chat.screen
  names : chat'.clientRooms.roomNames = chat.clientRooms.roomNames
  knows : ∀ r, chat'.knows r = chat.knows r
  joined : ∀ r, chat.joined r = true → chat'.joined r = true
  pushes : pushed = [] ∨
    ∃ r, pushed = joinRequests r ∧ chat.joined r = false ∧ chat'.joined r = true

theorem selects_self (h : chat.Consistent) : Selects chat chat [] :=
  ⟨h, rfl, rfl, fun _ => rfl, fun _ hr => hr, Or.inl rfl⟩

/-- The flag of one room is set; everything else stays. -/
theorem selects_modify (h : chat.Listed) {room : ClientRoom}
    (hroom : chat.clientRooms.find? chat.screen.currentRoomName = some room)
    (hnot : room.isJoined = false) :
    Selects chat
      { chat with
        clientRooms := chat.clientRooms.modify chat.screen.currentRoomName ClientRoom.markJoined }
      (joinRequests chat.screen.currentRoomName) := by
  have hfind := RoomManager.find?_modify (m := chat.clientRooms) chat.screen.currentRoomName
    nameOf_markJoined
  have hself : (chat.clientRooms.modify chat.screen.currentRoomName ClientRoom.markJoined).find?
      chat.screen.currentRoomName = some room.markJoined := by
    rw [hfind, if_pos rfl, hroom, Option.map_some]
  have hmarked : ChatWindow.joined
      { chat with
        clientRooms := chat.clientRooms.modify chat.screen.currentRoomName ClientRoom.markJoined }
      chat.screen.currentRoomName = true := by
    rw [ChatWindow.joined, hself]
    rfl
  refine ⟨⟨⟨h.rooms.modify _ nameOf_markJoined, ?_, h.names, h.noRoom, h.selected⟩,
    fun _ => hmarked⟩, rfl, rfl, ?_, ?_, Or.inr ⟨_, rfl, ?_, hmarked⟩⟩
  · intro r other hother
    rw [hfind] at hother
    split at hother
    · obtain ⟨old, hold, rfl⟩ := Option.map_eq_some_iff.mp hother
      exact h.unmarked r old hold
    · exact h.unmarked r other hother
  · intro r
    rw [ChatWindow.knows, ChatWindow.knows, hfind]
    split
    · exact Option.isSome_map
    · rfl
  · intro r hr
    by_cases hname : r = chat.screen.currentRoomName
    · rw [hname]
      exact hmarked
    · rw [ChatWindow.joined, hfind, if_neg hname]
      exact hr
  · rw [ChatWindow.joined, hroom]
    exact hnot

/-- For a room that is joined nothing is issued. -/
theorem joinCurrentRoom_of_joined (h : chat.joined chat.screen.currentRoomName = true) :
    chat.joinCurrentRoom = .ok (chat, []) := by
  rw [ChatWindow.joined] at h
  rw [joinCurrentRoom, issueRoomJoinIfNeeded]
  cases hroom : chat.clientRooms.find? chat.screen.currentRoomName with
  | none =>
      rw [hroom] at h
      cases h
  | some room =>
      rw [hroom] at h
      have hjoined : room.isJoined = true := h
      simp only [hjoined, if_true, ite_self]
      rfl

theorem joinCurrentRoom_selects (h : chat.Listed) :
    ∃ chat' pushed, chat.joinCurrentRoom = .ok (chat', pushed) ∧ Selects chat chat' pushed := by
  by_cases hnames : chat.screen.roomNames = []
  · have hjoin : chat.joinCurrentRoom = .ok (chat, []) := by
      rw [joinCurrentRoom, issueRoomJoinIfNeeded, if_pos (h.noRoom hnames).1]
      rfl
    exact ⟨chat, [], hjoin, selects_self ⟨h, fun hne => absurd hnames hne⟩⟩
  · obtain ⟨room, hroom⟩ := Option.isSome_iff_exists.mp
      ((h.rooms.mem_roomNames_iff _).mp (h.current_mem hnames))
    have hname : room.roomName = chat.screen.currentRoomName := RoomManager.find?_eq_some_name hroom
    rw [joinCurrentRoom, issueRoomJoinIfNeeded, if_neg (h.current_ne hnames), hroom]
    cases hjoined : room.isJoined with
    | true =>
        simp only [hjoined, if_true]
        refine ⟨chat, [], rfl, selects_self ⟨h, fun _ => ?_⟩⟩
        rw [ChatWindow.joined, hroom]
        exact hjoined
    | false =>
        simp only [hjoined, Bool.false_eq_true, if_false, hname, createRoomHistory_max]
        exact ⟨_, _, rfl, selects_modify h hroom hjoined⟩

/-! ## Selecting again -/

theorem selectRoomByName_of_mem (screen : ChatWindowScreen) {name : String}
    (h : name ∈ screen.roomNames) :
    (screen.selectRoomByName name).roomNames = screen.roomNames ∧
    (screen.selectRoomByName name).currentRoomName = name ∧
    screen.roomNames[(screen.selectRoomByName name).currentRoomIndex]? = some name := by
  unfold ChatWindowScreen.selectRoomByName
  cases hfind : screen.roomNames.findIdx? fun other => other = name with
  | none =>
      have hno := List.findIdx?_eq_none_iff.mp hfind name h
      simp at hno
  | some i =>
      obtain ⟨hi, hname, -⟩ := List.findIdx?_eq_some_iff_getElem.mp hfind
      refine ⟨rfl, rfl, ?_⟩
      rw [List.getElem?_eq_getElem hi, of_decide_eq_true hname]

theorem selectRoomByName_of_not_mem (screen : ChatWindowScreen) {name : String}
    (h : name ∉ screen.roomNames) : screen.selectRoomByName name = screen := by
  have hnone : (screen.roomNames.findIdx? fun other => other = name) = none := by
    refine List.findIdx?_eq_none_iff.mpr fun other hother => decide_eq_false ?_
    rintro rfl
    exact h hother
  rw [ChatWindowScreen.selectRoomByName, hnone]

/-- What is selected once the names are listed anew. -/
def reselected (names : List String) (old : String) : String :=
  if old ∈ names then old else names.head?.getD ""

/-- The rooms changed, and what was selected before is selected again if it is there. -/
structure Reselects (chat : ChatWindow) (clientRooms : RoomManager ClientRoom) (chat' : ChatWindow)
    (pushed : List Message) : Prop where
  consistent : chat'.Consistent
  names : chat'.clientRooms.roomNames = clientRooms.roomNames
  current : chat'.screen.currentRoomName
    = reselected clientRooms.roomNames chat.screen.currentRoomName
  knows : ∀ r, chat'.knows r = (clientRooms.find? r).isSome
  joined : ∀ r, (clientRooms.find? r).any (·.isJoined) = true → chat'.joined r = true
  pushes : pushed = [] ∨ ∃ r, pushed = joinRequests r ∧
    (clientRooms.find? r).any (·.isJoined) = false ∧ chat'.joined r = true

/-- The window with new rooms, before the join. -/
def relist (chat : ChatWindow) (clientRooms : RoomManager ClientRoom) : ChatWindow :=
  ⟨clientRooms, (chat.screen.updateRooms clientRooms.roomNames).selectRoomByName
    chat.screen.currentRoomName⟩

theorem relist_listed (chat : ChatWindow) (hrooms : clientRooms.WF)
    (hunmarked : ∀ r room, clientRooms.find? r = some room → isDestroyRequested room = false) :
    (chat.relist clientRooms).Listed ∧ (chat.relist clientRooms).screen.currentRoomName
      = reselected clientRooms.roomNames chat.screen.currentRoomName := by
  by_cases hmem : chat.screen.currentRoomName ∈ clientRooms.roomNames
  · obtain ⟨hnames, hname, hindex⟩ := selectRoomByName_of_mem
      (chat.screen.updateRooms clientRooms.roomNames) hmem
    rw [reselected, if_pos hmem]
    refine ⟨⟨hrooms, hunmarked, hnames, ?_, ?_⟩, hname⟩
    · intro hnil
      rw [relist, hnames] at hnil
      have hnil' : clientRooms.roomNames = [] := hnil
      rw [hnil'] at hmem
      cases hmem
    · intro _
      show (_ : List String)[_]? = _
      rw [relist, hnames, hname]
      exact hindex
  · have hsame : (chat.relist clientRooms).screen
        = chat.screen.updateRooms clientRooms.roomNames :=
      selectRoomByName_of_not_mem (chat.screen.updateRooms clientRooms.roomNames) hmem
    rw [reselected, if_neg hmem, hsame]
    refine ⟨⟨hrooms, hunmarked, by rw [hsame]; rfl, ?_, ?_⟩, rfl⟩
    · rw [hsame]
      intro hnil
      have hnil' : clientRooms.roomNames = [] := hnil
      refine ⟨?_, rfl⟩
      show clientRooms.roomNames.head?.getD "" = ""
      rw [hnil']
      rfl
    · rw [hsame]
      intro hne
      show clientRooms.roomNames[0]? = some (clientRooms.roomNames.head?.getD "")
      have hne' : clientRooms.roomNames ≠ [] := hne
      rw [← List.head?_eq_getElem?, List.head?_eq_some_head hne', Option.getD_some]

theorem showRooms_reselects (chat : ChatWindow) (hrooms : clientRooms.WF)
    (hunmarked : ∀ r room, clientRooms.find? r = some room → isDestroyRequested room = false) :
    ∃ chat' pushed, chat.showRooms clientRooms = .ok (chat', pushed) ∧
      Reselects chat clientRooms chat' pushed := by
  obtain ⟨hlisted, hcurrent⟩ := relist_listed chat hrooms hunmarked
  obtain ⟨chat', pushed, hok, hselects⟩ := joinCurrentRoom_selects hlisted
  refine ⟨chat', pushed, hok, hselects.consistent, hselects.names, ?_, hselects.knows,
    hselects.joined, hselects.pushes⟩
  rw [hselects.screen, hcurrent]

/-! ## The messages that change the rooms -/

/-- The rooms that a list of names leaves. -/
theorem foldlM_createListedRoom_wf {items : List (String × Json)}
    {before after : RoomManager ClientRoom} (hwf : before.WF)
    (hunmarked : ∀ r room, before.find? r = some room → isDestroyRequested room = false)
    (h : items.foldlM createListedRoom before = .ok after) :
    after.WF ∧ ∀ r room, after.find? r = some room → isDestroyRequested room = false := by
  induction items generalizing before with
  | nil =>
      cases h
      exact ⟨hwf, hunmarked⟩
  | cons item items ih =>
      obtain ⟨mid, hstep, hrest⟩ := Fallible.foldlM_cons_ok.mp h
      obtain ⟨name, rfl⟩ : ∃ name, mid = (before.createRoom name).getD before := by
        rw [createListedRoom] at hstep
        cases hname : item.2.getString with
        | error e =>
            rw [hname] at hstep
            cases hstep
        | ok name =>
            rw [hname] at hstep
            cases hstep
            exact ⟨name, rfl⟩
      obtain ⟨hmid, hfind⟩ := RoomManager.createRoom_spec hwf name
      refine ih hmid ?_ hrest
      intro r room hroom
      rw [hfind] at hroom
      cases hbefore : before.find? r with
      | some old =>
          rw [hbefore, Option.some_or] at hroom
          exact hunmarked r room (hbefore.trans hroom)
      | none =>
          rw [hbefore, Option.none_or] at hroom
          split at hroom
          · cases hroom
            rfl
          · cases hroom

/-! ## What a handler does -/

/-- All the room objects are replaced. -/
def clears : WindowEvent → Bool
  | .message msg => msg.messageType = .roomList
  | .pick _ => false

/-- What handling an event does: the window is consistent again; a message leaves
the selection where it is, as long as that is possible; a room object that was not
replaced keeps its flag; and a join is for an object for which there was none. -/
structure Handles (chat : ChatWindow) (e : WindowEvent) (chat' : ChatWindow)
    (pushed : List Message) : Prop where
  consistent : chat'.Consistent
  current : ∀ msg, e = .message msg → chat'.screen.currentRoomName
    = reselected chat'.clientRooms.roomNames chat.screen.currentRoomName
  joined : ∀ r, clears e = false → chat'.knows r = true → chat.joined r = true →
    chat'.joined r = true
  pushes : pushed = [] ∨ ∃ r, pushed = joinRequests r ∧
    (clears e = true ∨ chat.joined r = false) ∧ chat'.joined r = true

variable {msg : Message} {e : WindowEvent}

theorem Consistent.reselected_current (h : chat.Consistent) :
    reselected chat.clientRooms.roomNames chat.screen.currentRoomName
      = chat.screen.currentRoomName := by
  by_cases hnames : chat.screen.roomNames = []
  · have hnil : chat.clientRooms.roomNames = [] := h.names ▸ hnames
    rw [reselected, hnil, (h.noRoom hnames).1]
    rfl
  · exact if_pos (h.current_mem hnames)

/-- A handler that only touches the histories. -/
theorem Consistent.handles_screen (h : chat.Consistent) {screen : ChatWindowScreen}
    (hnames : screen.roomNames = chat.screen.roomNames)
    (hindex : screen.currentRoomIndex = chat.screen.currentRoomIndex)
    (hname : screen.currentRoomName = chat.screen.currentRoomName) :
    Handles chat e { chat with screen } [] where
  consistent := by
    refine ⟨⟨h.rooms, h.unmarked, hnames.trans h.names, ?_, ?_⟩, ?_⟩
    · intro hnil
      rw [hname, hindex]
      exact h.noRoom (hnames ▸ hnil)
    · intro hne
      rw [hnames, hname, hindex]
      exact h.selected (hnames ▸ hne)
    · intro hne
      rw [hname]
      exact h.joined (hnames ▸ hne)
  current _ _ := hname.trans h.reselected_current.symm
  joined _ _ _ hr := hr
  pushes := Or.inl rfl

/-- A handler that shows new rooms, in which no object lost its flag. -/
theorem Reselects.handles (h : Reselects chat clientRooms chat' pushed)
    (hsame : clears e = false → ∀ r room, clientRooms.find? r = some room →
      room.isJoined = chat.joined r) : Handles chat e chat' pushed where
  consistent := h.consistent
  current _ _ := by rw [h.current, h.names]
  joined r hclears hknows hr := by
    rw [h.knows] at hknows
    obtain ⟨room, hroom⟩ := Option.isSome_iff_exists.mp hknows
    refine h.joined r ?_
    rw [hroom]
    exact (hsame hclears r room hroom).trans hr
  pushes := by
    refine h.pushes.imp_right ?_
    rintro ⟨r, rfl, hnot, hjoined⟩
    refine ⟨r, rfl, ?_, hjoined⟩
    cases hclears : clears e with
    | true => exact Or.inl rfl
    | false =>
        -- the room is there, as it is joined now
        have hknows : chat'.knows r = true := by
          rw [ChatWindow.joined] at hjoined
          rw [ChatWindow.knows]
          cases hfind : chat'.clientRooms.find? r with
          | none =>
              rw [hfind] at hjoined
              cases hjoined
          | some _ => rfl
        rw [h.knows] at hknows
        obtain ⟨room, hroom⟩ := Option.isSome_iff_exists.mp hknows
        rw [hroom] at hnot
        exact Or.inr ((hsame hclears r room hroom).symm.trans hnot)

/-- The ways in which handling a message can go.  Whatever changes the rooms ends in
`showRooms`, and but for a room list the rooms that are shown keep their flags. -/
inductive Course (chat : ChatWindow) (msg : Message) : ChatWindow → List Message → Prop where
  | shows {chat' : ChatWindow} {pushed : List Message} (clientRooms : RoomManager ClientRoom)
      (hrooms : clientRooms.WF)
      (hunmarked : ∀ r room, clientRooms.find? r = some room → isDestroyRequested room = false)
      (hsame : msg.messageType = .roomList ∨
        ∀ r room, clientRooms.find? r = some room → room.isJoined = chat.joined r)
      (hshow : chat.showRooms clientRooms = .ok (chat', pushed)) : Course chat msg chat' pushed
  | ignores : Course chat msg chat []
  | rewrites (room : ClientRoom) (events : List RoomEvent) {name : String}
      (hroom : chat.clientRooms.find? name = some room) :
      Course chat msg
        { chat with screen := chat.screen.rewriteChatHistory room.roomName events } []
  | inserts (event : RoomEvent) (htype : msg.messageType = .chatEcho) :
      Course chat msg
        { chat with
          screen := chat.screen.insertChatHistoryEvent (msg.text "room_name") event } []

theorem course_roomList (htype : msg.messageType = .roomList)
    (hok : chat.handleMessage msg = .ok (chat', pushed)) : ∃ clientRooms,
    clientRooms.WF ∧
    (∀ r room, clientRooms.find? r = some room → isDestroyRequested room = false) ∧
    chat.showRooms clientRooms = .ok (chat', pushed) := by
  simp only [handleMessage, htype] at hok
  obtain ⟨clientRooms, hlist, hok⟩ := Fallible.bind_ok.mp hok
  obtain ⟨hrooms, hunmarked⟩ := foldlM_createListedRoom_wf RoomManager.wf_new
    (fun r room h => by cases h) hlist
  exact ⟨clientRooms, hrooms, hunmarked, hok⟩

theorem course_roomCreate (h : chat.Consistent) (htype : msg.messageType = .roomCreate)
    (hok : chat.handleMessage msg = .ok (chat', pushed)) : Course chat msg chat' pushed := by
  simp only [handleMessage, htype] at hok
  obtain ⟨name, -, hok⟩ := Fallible.bind_ok.mp hok
  cases hcreate : chat.clientRooms.createRoom name with
  | none =>
      simp only [hcreate] at hok
      cases hok
      exact .ignores
  | some clientRooms =>
      simp only [hcreate] at hok
      have hfind := RoomManager.find?_createRoom h.rooms hcreate
      have hunknown : chat.clientRooms.find? name = none :=
        (h.rooms.find?_eq_none_iff name).mpr (RoomManager.createRoom_eq_some hcreate).2.1
      refine .shows clientRooms (h.rooms.createRoom hcreate)
        (RoomManager.unmarked_createRoom h.rooms h.unmarked hcreate) (Or.inr ?_) hok
      intro r room hroom
      rw [hfind] at hroom
      rw [ChatWindow.joined]
      split at hroom
      next hr =>
        cases hroom
        rw [hr, hunknown]
        rfl
      next =>
        rw [hroom]
        rfl

/-- After a room was destroyed, both branches of the handler come to `showRooms`:
a destroyed room cannot be selected again, and any other is joined already. -/
theorem destroy_eq_showRooms (h : chat.Consistent) {name : String} {room : ClientRoom}
    (hroom : chat.clientRooms.find? name = some room) (hrooms : clientRooms.WF)
    (hfind : ∀ r, clientRooms.find? r = if r = name then none else chat.clientRooms.find? r) :
    (if chat.screen.currentRoomName = name then
      joinCurrentRoom ⟨clientRooms, chat.screen.updateRooms clientRooms.roomNames⟩
    else pure (chat.relist clientRooms, [])) = chat.showRooms clientRooms := by
  have hmem : ∀ r, r ∈ clientRooms.roomNames ↔ r ≠ name ∧ r ∈ chat.clientRooms.roomNames := by
    intro r
    rw [hrooms.mem_roomNames_iff, h.rooms.mem_roomNames_iff, hfind]
    by_cases hr : r = name <;> simp [hr]
  by_cases hcurrent : chat.screen.currentRoomName = name
  · rw [if_pos hcurrent, showRooms, selectRoomByName_of_not_mem]
    intro hstill
    exact ((hmem _).mp hstill).1 hcurrent
  · rw [if_neg hcurrent]
    have hnames : chat.screen.roomNames ≠ [] := by
      rw [h.names]
      intro hnil
      have hin := (h.rooms.mem_roomNames_iff name).mpr (by rw [hroom]; rfl)
      rw [hnil] at hin
      cases hin
    have hname : (chat.relist clientRooms).screen.currentRoomName = chat.screen.currentRoomName :=
      (selectRoomByName_of_mem (chat.screen.updateRooms clientRooms.roomNames)
        ((hmem _).mpr ⟨hcurrent, h.current_mem hnames⟩)).2.1
    have hjoined : (chat.relist clientRooms).joined (chat.relist clientRooms).screen.currentRoomName
        = true := by
      rw [hname, ChatWindow.joined]
      show (clientRooms.find? _).any _ = true
      rw [hfind, if_neg hcurrent]
      exact h.joined hnames
    exact (joinCurrentRoom_of_joined hjoined).symm

theorem course_roomDestroy (h : chat.Consistent) (htype : msg.messageType = .roomDestroy)
    (hok : chat.handleMessage msg = .ok (chat', pushed)) : Course chat msg chat' pushed := by
  simp only [handleMessage, htype] at hok
  obtain ⟨name, -, hok⟩ := Fallible.bind_ok.mp hok
  cases hroom : chat.clientRooms.find? name with
  | none =>
      simp only [hroom] at hok
      cases hok
      exact .ignores
  | some room =>
      simp only [hroom] at hok
      have hrooms := (h.rooms.modify name nameOf_requestDestroy).removeDestroyedRooms
      have hfind := RoomManager.find?_destroy h.rooms h.unmarked name
      have hshowRooms := destroy_eq_showRooms h hroom hrooms hfind
      rw [relist] at hshowRooms
      rw [hshowRooms] at hok
      refine .shows _ hrooms (RoomManager.unmarked_destroy h.rooms h.unmarked name)
        (Or.inr ?_) hok
      intro r other hother
      rw [hfind] at hother
      split at hother
      · cases hother
      · rw [ChatWindow.joined, hother]
        rfl

theorem course_roomHistory (htype : msg.messageType = .roomHistory)
    (hok : chat.handleMessage msg = .ok (chat', pushed)) : Course chat msg chat' pushed := by
  simp only [handleMessage, htype] at hok
  obtain ⟨name, -, hok⟩ := Fallible.bind_ok.mp hok
  cases hroom : chat.clientRooms.find? name with
  | none =>
      simp only [hroom] at hok
      cases hok
      exact .ignores
  | some room =>
      simp only [hroom] at hok
      obtain ⟨events, -, hok⟩ := Fallible.bind_ok.mp hok
      cases hok
      exact .rewrites room events hroom

theorem course_chatEcho (htype : msg.messageType = .chatEcho)
    (hok : chat.handleMessage msg = .ok (chat', pushed)) : ∃ event, chat' = { chat with
      screen := chat.screen.insertChatHistoryEvent (msg.text "room_name") event } ∧
      pushed = [] := by
  simp only [handleMessage, htype] at hok
  obtain ⟨name, hname, hok⟩ := Fallible.bind_ok.mp hok
  obtain ⟨event, -, hok⟩ := Fallible.bind_ok.mp hok
  cases hok
  rw [messageValueOr_string hname]
  exact ⟨event, rfl, rfl⟩

/-- **What a handler that returns has done.** -/
theorem handleMessage_cases (h : chat.Consistent)
    (hok : chat.handleMessage msg = .ok (chat', pushed)) : Course chat msg chat' pushed := by
  cases htype : msg.messageType with
  | roomList =>
      obtain ⟨clientRooms, hrooms, hunmarked, hshow⟩ := course_roomList htype hok
      exact .shows clientRooms hrooms hunmarked (Or.inl htype) hshow
  | roomCreate => exact course_roomCreate h htype hok
  | roomDestroy => exact course_roomDestroy h htype hok
  | roomHistory => exact course_roomHistory htype hok
  | chatEcho =>
      obtain ⟨event, rfl, rfl⟩ := course_chatEcho htype hok
      exact .inserts event htype
  | _ =>
      simp only [handleMessage, htype] at hok
      cases hok
      exact .ignores

/-- **Handling a message.** -/
theorem handleMessage_handles (h : chat.Consistent)
    (hok : chat.handleMessage msg = .ok (chat', pushed)) :
    Handles chat (.message msg) chat' pushed := by
  cases handleMessage_cases h hok with
  | shows clientRooms hrooms hunmarked hsame hshow =>
      obtain ⟨chat'', pushed', hshow', hre⟩ := showRooms_reselects chat hrooms hunmarked
      cases hshow'.symm.trans hshow
      refine hre.handles fun hclears => ?_
      rcases hsame with htype | hflags
      · rw [clears, htype] at hclears
        cases hclears
      · exact hflags
  | ignores => exact h.handles_screen rfl rfl rfl
  | rewrites room events hroom => exact h.handles_screen rfl rfl rfl
  | inserts event htype => exact h.handles_screen rfl rfl rfl

/-- The user picks an entry. -/
theorem changeRoom_handles (h : chat.Consistent) {index : Nat}
    (hindex : index < chat.screen.roomNames.length) :
    ∃ chat' pushed, chat.changeRoom index = .ok (chat', pushed) ∧
      Handles chat (.pick index) chat' pushed := by
  have hentry : chat.screen.roomNames[index]? = some ((chat.screen.roomNames[index]?).getD "") := by
    rw [List.getElem?_eq_getElem hindex]
    rfl
  have hlisted : Listed { chat with screen := chat.screen.pickRoom index } := by
    refine ⟨h.rooms, h.unmarked, h.names, ?_, fun _ => hentry⟩
    intro hnil
    have hnil' : chat.screen.roomNames = [] := hnil
    rw [hnil'] at hindex
    cases hindex
  obtain ⟨chat', pushed, hok, hselects⟩ := joinCurrentRoom_selects hlisted
  refine ⟨chat', pushed, hok, hselects.consistent, ?_, fun r _ _ hr => hselects.joined r hr, ?_⟩
  · intro msg hmsg
    cases hmsg
  · refine hselects.pushes.imp_right ?_
    rintro ⟨r, rfl, hnot, hjoined⟩
    exact ⟨r, rfl, Or.inr hnot, hjoined⟩

/-- **Handling an event.** -/
theorem handle_handles (h : chat.Consistent) (hoffers : chat.Offers e)
    (hok : chat.handle e = .ok (chat', pushed)) : Handles chat e chat' pushed := by
  cases e with
  | message msg => exact handleMessage_handles h hok
  | pick index =>
      obtain ⟨chat'', pushed', hok', hhandles⟩ := changeRoom_handles h hoffers
      cases hok'.symm.trans hok
      exact hhandles

/-! ## Well-typed messages -/

/-- An event that carries a time, a user, and a text if any. -/
structure WellTypedEvent (event : Json) : Prop where
  timestamp : ∃ value n, event.find? "timestamp" = some value ∧ value.getInt32 = .ok n
  userName : ∃ name, event.find? "user_name" = some (.string name)
  text : ∀ value, event.find? "text" = some value → ∃ text, value = .string text

/-- The fields that the handler reads have the types with which it reads them. -/
def WellTyped (msg : Message) : Prop :=
  match msg.messageType with
  | .roomList => ∀ item ∈ msg.values.items, ∃ name, item.2 = .string name
  | .roomCreate => msg.readable String "room_name"
  | .roomDestroy => msg.readable String "room_name"
  | .roomHistory => msg.readable String "room_name" ∧ msg.readable Int32 "event_count" ∧
      ∀ events, msg.values.find? "events" = some events →
        ∀ item ∈ events.items, WellTypedEvent item.2
  | .chatEcho => msg.readable String "room_name" ∧ WellTypedEvent msg.values
  | _ => True

theorem WellTypedEvent.read {event : Json} (h : WellTypedEvent event) :
    ∃ read, eventJsonToRoomEvent event = .ok read := by
  obtain ⟨value, n, htimestamp, hn⟩ := h.timestamp
  obtain ⟨name, huserName⟩ := h.userName
  cases event with
  | object members =>
      have hassert : assertThat ((Json.object members).contains "timestamp" &&
          (Json.object members).contains "user_name") = .ok () := by
        rw [Json.contains, Json.contains, htimestamp, huserName]
        rfl
      have htext : ∃ text, (Json.object members).valueOr Json.getString "text" "" = .ok text := by
        rw [Json.valueOr]
        cases hfind : members.lookup "text" with
        | none => exact ⟨"", rfl⟩
        | some value =>
            obtain ⟨text, rfl⟩ := h.text value hfind
            exact ⟨text, rfl⟩
      obtain ⟨text, htext⟩ := htext
      rw [Json.find?_object] at htimestamp huserName
      simp only [eventJsonToRoomEvent, hassert, htext, bind, Except.bind]
      simp only [Json.valueOr, htimestamp, huserName, hn, Json.getString, pure, Except.pure]
      exact ⟨_, rfl⟩
  | _ => cases htimestamp

theorem foldlM_createListedRoom_ok {items : List (String × Json)}
    (clientRooms : RoomManager ClientRoom) (h : ∀ item ∈ items, ∃ name, item.2 = .string name) :
    ∃ after, items.foldlM createListedRoom clientRooms = .ok after := by
  induction items generalizing clientRooms with
  | nil => exact ⟨clientRooms, rfl⟩
  | cons item items ih =>
      obtain ⟨name, hname⟩ := h item List.mem_cons_self
      obtain ⟨after, hafter⟩ := ih ((clientRooms.createRoom name).getD clientRooms)
        fun other hother => h other (List.mem_cons_of_mem _ hother)
      refine ⟨after, Fallible.foldlM_cons_ok.mpr ⟨_, ?_, hafter⟩⟩
      rw [createListedRoom, hname]
      rfl

theorem roomHistoryMessageToEvents_ok (hcount : msg.readable Int32 "event_count")
    (hevents : ∀ events, msg.values.find? "events" = some events →
      ∀ item ∈ events.items, WellTypedEvent item.2) :
    ∃ events, roomHistoryMessageToEvents msg = .ok events := by
  obtain ⟨count, hcount⟩ : ∃ count, messageValueOr Int32 msg "event_count" 0 = .ok count :=
    readable_iff.mp hcount
  simp only [roomHistoryMessageToEvents, hcount, bind, Except.bind]
  cases hfind : msg.values.find? "events" with
  | none => exact ⟨[], rfl⟩
  | some events =>
      exact Fallible.mapM_ok_iff.mpr fun item hitem => (hevents events hfind item hitem).read

/-- **The handler does not fail on a well-typed message.** -/
theorem handleMessage_ok (chat : ChatWindow) (h : WellTyped msg) :
    ∃ r, chat.handleMessage msg = .ok r := by
  cases htype : msg.messageType with
  | roomList =>
      simp only [WellTyped, htype] at h
      obtain ⟨clientRooms, hlist⟩ := foldlM_createListedRoom_ok .new h
      simp only [handleMessage, htype, bind, Except.bind, hlist]
      exact joinCurrentRoom_ok _
  | roomCreate =>
      simp only [WellTyped, htype, readable_string_iff] at h
      simp only [handleMessage, htype, bind, Except.bind, h]
      cases hcreate : chat.clientRooms.createRoom (msg.text "room_name") with
      | none => exact ⟨_, rfl⟩
      | some clientRooms => exact joinCurrentRoom_ok _
  | roomDestroy =>
      simp only [WellTyped, htype, readable_string_iff] at h
      simp only [handleMessage, htype, bind, Except.bind, h]
      cases hroom : chat.clientRooms.find? (msg.text "room_name") with
      | none => exact ⟨_, rfl⟩
      | some room =>
          by_cases hcurrent : chat.screen.currentRoomName = msg.text "room_name"
          · simp only [if_pos hcurrent]
            exact joinCurrentRoom_ok _
          · simp only [if_neg hcurrent]
            exact ⟨_, rfl⟩
  | roomHistory =>
      simp only [WellTyped, htype, readable_string_iff] at h
      obtain ⟨hname, hcount, hevents⟩ := h
      simp only [handleMessage, htype, bind, Except.bind, hname]
      cases hroom : chat.clientRooms.find? (msg.text "room_name") with
      | none => exact ⟨_, rfl⟩
      | some room =>
          obtain ⟨events, hread⟩ := roomHistoryMessageToEvents_ok hcount hevents
          simp only [hread]
          exact ⟨_, rfl⟩
  | chatEcho =>
      simp only [WellTyped, htype, readable_string_iff] at h
      obtain ⟨event, hread⟩ := h.2.read
      simp only [handleMessage, htype, bind, Except.bind, h.1, hread]
      exact ⟨_, rfl⟩
  | _ =>
      simp only [handleMessage, htype]
      exact ⟨_, rfl⟩

end ChatWindow

/-! ## Sessions -/

/-- The rooms that ROOM_JOIN messages ask to join. -/
def joinedRooms (pushed : List Message) : List String :=
  (pushed.filter fun msg => msg.messageType = .roomJoin).map fun msg => msg.text "room_name"

/-- The window, and a record of what it did.  `now` counts the handler calls and
`born` says in which one the room object of a name was made; `joins` are the
objects for which a ROOM_JOIN was pushed, and `out` is everything pushed. -/
structure Window where
  chat : ChatWindow
  now : Nat
  born : String → Nat
  joins : List (String × Nat)
  out : List Message

namespace Window

/-- The birth of the objects after a handler: a room list makes all of them anew,
otherwise only a name without a room can get one. -/
def bornAfter (w : Window) (e : WindowEvent) (r : String) : Nat :=
  if ChatWindow.clears e || !w.chat.knows r then w.now else w.born r

def after (w : Window) (e : WindowEvent) (chat' : ChatWindow) (pushed : List Message) : Window where
  chat := chat'
  now := w.now + 1
  born := w.bornAfter e
  joins := w.joins ++ (joinedRooms pushed).map fun r => (r, w.bornAfter e r)
  out := w.out ++ pushed

end Window

/-- A new window; each step is an event whose handler returns. -/
def windowSystem : LabelledSystem Window WindowEvent where
  init w := w = ⟨.new, 0, fun _ => 0, [], []⟩
  step w e w' := w.chat.Offers e ∧
    ∃ chat' pushed, w.chat.handle e = .ok (chat', pushed) ∧ w' = w.after e chat' pushed

theorem joinedRooms_joinRequests (r : String) : joinedRooms (joinRequests r) = [r] := by
  have hjoin : (createRoomJoin r).text "room_name" = r := text_roomMessage .roomJoin r
  have hfilter : (joinRequests r).filter (fun msg => msg.messageType = .roomJoin)
      = [createRoomJoin r] := rfl
  rw [joinedRooms, hfilter, List.map_singleton, hjoin]

/-- The record agrees with the flags of the objects. -/
structure Window.Recorded (w : Window) : Prop where
  consistent : w.chat.Consistent
  once : w.joins.Nodup
  births : ∀ r, w.born r ≤ w.now
  past : ∀ join ∈ w.joins, join.2 < w.now
  flagged : ∀ join ∈ w.joins, w.born join.1 = join.2 → w.chat.knows join.1 = true →
    w.chat.joined join.1 = true
  pushes : w.out = w.joins.flatMap fun join => joinRequests join.1

theorem Window.Recorded.after {w : Window} (h : w.Recorded) {e : WindowEvent} {chat' : ChatWindow}
    {pushed : List Message} (hhandles : ChatWindow.Handles w.chat e chat' pushed) :
    (w.after e chat' pushed).Recorded := by
  have hborn : ∀ r, w.bornAfter e r < w.now + 1 := by
    intro r
    rw [Window.bornAfter]
    split
    · exact Nat.lt_succ_self _
    · exact Nat.lt_succ_of_le (h.births r)
  have hbirths : ∀ r, w.bornAfter e r ≤ w.now + 1 := fun r => Nat.le_of_lt (hborn r)
  -- an object from before keeps its birth, and its flag
  have hold : ∀ join ∈ w.joins, w.bornAfter e join.1 = join.2 → chat'.knows join.1 = true →
      chat'.joined join.1 = true := by
    intro join hjoin hsame hknows
    rw [Window.bornAfter] at hsame
    split at hsame
    · have := h.past join hjoin
      omega
    · next hkept =>
        simp only [Bool.or_eq_true, Bool.not_eq_true', not_or, Bool.not_eq_true,
          Bool.not_eq_false] at hkept
        exact hhandles.joined _ hkept.1 hknows (h.flagged join hjoin hsame hkept.2)
  rcases hhandles.pushes with rfl | ⟨r, rfl, hnew, hjoined⟩
  · have hjoins : (w.after e chat' []).joins = w.joins := List.append_nil _
    have hout : (w.after e chat' []).out = w.out := List.append_nil _
    refine ⟨hhandles.consistent, ?_, hbirths, ?_, ?_, ?_⟩
    · rw [hjoins]
      exact h.once
    · rw [hjoins]
      exact fun join hjoin => Nat.lt_succ_of_lt (h.past join hjoin)
    · rw [hjoins]
      exact hold
    · rw [hjoins, hout]
      exact h.pushes
  · have hjoins : (w.after e chat' (joinRequests r)).joins = w.joins ++ [(r, w.bornAfter e r)] := by
      show w.joins ++ (joinedRooms (joinRequests r)).map _ = _
      rw [joinedRooms_joinRequests]
      rfl
    have hfresh : (r, w.bornAfter e r) ∉ w.joins := by
      intro hjoin
      have hpast := h.past _ hjoin
      rw [Window.bornAfter] at hpast hjoin
      split at hpast
      · exact absurd hpast (Nat.lt_irrefl _)
      · next hkept =>
          rw [if_neg hkept] at hjoin
          simp only [Bool.or_eq_true, Bool.not_eq_true', not_or, Bool.not_eq_true,
            Bool.not_eq_false] at hkept
          have hflag := h.flagged _ hjoin rfl hkept.2
          rcases hnew with hclears | hnot
          · cases hkept.1.symm.trans hclears
          · cases hnot.symm.trans hflag
    refine ⟨hhandles.consistent, ?_, hbirths, ?_, ?_, ?_⟩
    · rw [hjoins]
      exact h.once.append (List.nodup_singleton _) (List.disjoint_singleton.mpr hfresh)
    · rw [hjoins]
      intro join hjoin
      rcases List.mem_append.mp hjoin with hbefore | hlast
      · exact Nat.lt_succ_of_lt (h.past join hbefore)
      · rw [List.mem_singleton.mp hlast]
        exact hborn r
    · rw [hjoins]
      intro join hjoin hsame hknows
      rcases List.mem_append.mp hjoin with hbefore | hlast
      · exact hold join hbefore hsame hknows
      · rw [List.mem_singleton.mp hlast]
        exact hjoined
    · rw [hjoins, List.flatMap_append, List.flatMap_singleton, ← h.pushes]
      rfl

theorem recorded_of_reachable {w : Window} (h : windowSystem.Reachable LabelledSystem.anyStep w) :
    w.Recorded := by
  refine h.invariant ?_ ?_
  · rintro w rfl
    exact ⟨ChatWindow.consistent_new, List.nodup_nil, fun _ => le_refl _,
      fun _ hjoin => absurd hjoin List.not_mem_nil, fun _ hjoin => absurd hjoin List.not_mem_nil,
      rfl⟩
  · rintro w e w' - hw - ⟨hoffers, chat', pushed, hok, rfl⟩
    exact hw.after (ChatWindow.handle_handles hw.consistent hoffers hok)

/-- **The chat window, at every handler boundary.** -/
theorem chatWindow_consistent {w : Window} (h : windowSystem.Reachable LabelledSystem.anyStep w) :
    w.chat.Consistent ∧
    w.joins.Nodup ∧ w.out = w.joins.flatMap (fun join => joinRequests join.1) ∧
    (∀ msg, ChatWindow.WellTyped msg → ∃ chat' pushed,
      w.chat.handleMessage msg = .ok (chat', pushed)) ∧
    (∀ msg chat' pushed, w.chat.handleMessage msg = .ok (chat', pushed) →
      (w.chat.screen.currentRoomName ∈ chat'.clientRooms.roomNames →
        chat'.screen.currentRoomName = w.chat.screen.currentRoomName) ∧
      (w.chat.screen.currentRoomName ∉ chat'.clientRooms.roomNames →
        chat'.screen.currentRoomName = chat'.clientRooms.roomNames.head?.getD "")) ∧
    ∀ index < w.chat.screen.roomNames.length, ∃ chat' pushed,
      w.chat.changeRoom index = .ok (chat', pushed) := by
  have hw := recorded_of_reachable h
  refine ⟨hw.consistent, hw.once, hw.pushes, ?_, ?_, ?_⟩
  · intro msg hmsg
    obtain ⟨r, hr⟩ := ChatWindow.handleMessage_ok w.chat hmsg
    exact ⟨r.1, r.2, hr⟩
  · intro msg chat' pushed hok
    have hcurrent := (ChatWindow.handleMessage_handles hw.consistent hok).current msg rfl
    rw [ChatWindow.reselected] at hcurrent
    exact ⟨fun hmem => by rw [hcurrent, if_pos hmem], fun hmem => by rw [hcurrent, if_neg hmem]⟩
  · intro index hindex
    obtain ⟨chat', pushed, hok, -⟩ := ChatWindow.changeRoom_handles hw.consistent hindex
    exact ⟨chat', pushed, hok⟩

/-- An event that is offered, with a handler that returns. -/
def execWindow (w : Window) (e : WindowEvent) : Option Window :=
  if w.chat.Offers e then
    (w.chat.handle e).toOption.map fun result => w.after e result.1 result.2
  else none

theorem step_of_execWindow {w w' : Window} {e : WindowEvent} (h : execWindow w e = some w') :
    windowSystem.step w e w' := by
  rw [execWindow, Option.ite_none_right_eq_some] at h
  obtain ⟨hoffers, h⟩ := h
  obtain ⟨result, hresult, rfl⟩ := Option.map_eq_some_iff.mp h
  refine ⟨hoffers, result.1, result.2, ?_, rfl⟩
  cases hhandle : w.chat.handle e with
  | error _ =>
      rw [hhandle] at hresult
      cases hresult
  | ok _ =>
      rw [hhandle] at hresult
      cases hresult
      rfl

/-- Two rooms are listed, the second is picked, and it is destroyed. -/
theorem chatWindow_consistent_picked : ∃ w : Window, w.chat.Consistent ∧
    w.chat.screen.currentRoomName = "a" ∧ w.joins = [("a", 0), ("b", 0)] := by
  obtain ⟨w, hw, htest⟩ := windowSystem.exists_of_execute LabelledSystem.anyStep
    (fun _ _ _ => step_of_execWindow) rfl
    [.message (createRoomList ["a", "b"]), .pick 1, .message (createRoomDestroy "b")]
    (fun w => w.chat.screen.currentRoomName = "a" ∧ w.joins = [("a", 0), ("b", 0)])
    (by decide +kernel)
  exact ⟨w, (chatWindow_consistent hw).1, of_decide_eq_true htest⟩

end Tavernmx.Client
