/-
# `Tavernmx.Client.ChatHistory` — whose history the chat window keeps

The window has a history for each name under which one was inserted, and two
handlers insert.  ROOM_HISTORY first looks for the room; CHAT_ECHO does not.
`update_rooms` removes the histories of the names it is not given, and it runs
whenever the rooms change:

    a room goes       its history goes with it
    a room comes      it has the history of its name, if there is one

So the second is clean as long as no history was inserted for a name without a
room.  That is what an echo does which arrives after its room was destroyed
(`StaleEcho`), and without such echoes it never happens (`histories_known`).
-/
import Tavernmx.Client.Selection

namespace Tavernmx.Client

open Messaging Rooms

namespace ChatWindow

/-- Every history is the history of a room. -/
def HistoriesKnown (chat : ChatWindow) : Prop :=
  ∀ r, (chat.screen.chatRoomHistory r).isSome → r ∈ chat.clientRooms.roomNames

/-- An echo from a room that is not in `client_rooms`. -/
def StaleEcho (chat : ChatWindow) : WindowEvent → Prop
  | .message msg =>
      msg.messageType = .chatEcho ∧ msg.text "room_name" ∉ chat.clientRooms.roomNames
  | .pick _ => False

instance (chat : ChatWindow) : (e : WindowEvent) → Decidable (chat.StaleEcho e)
  | .message _ => inferInstanceAs (Decidable (_ ∧ _))
  | .pick _ => .isFalse id

/-- The rooms that a window starts with have no history. -/
def StartClean (chat chat' : ChatWindow) : Prop :=
  ∀ r, r ∉ chat.clientRooms.roomNames → r ∈ chat'.clientRooms.roomNames →
    chat'.screen.chatRoomHistory r = none

variable {chat chat' : ChatWindow} {clientRooms : RoomManager ClientRoom} {pushed : List Message}
  {msg : Message} {e : WindowEvent}

/-! ## One event -/

/-- Showing the rooms removes what is no longer known, and adds nothing. -/
theorem showRooms_histories (hrooms : clientRooms.WF)
    (hunmarked : ∀ r room, clientRooms.find? r = some room → isDestroyRequested room = false)
    (hshow : chat.showRooms clientRooms = .ok (chat', pushed)) : chat'.HistoriesKnown ∧
    ∀ r, (chat'.screen.chatRoomHistory r).isSome → (chat.screen.chatRoomHistory r).isSome := by
  obtain ⟨chat'', pushed', hshow', hshown⟩ := showRooms_spec chat hrooms hunmarked
  cases hshow'.symm.trans hshow
  constructor
  · intro r hkey
    rw [hshown.history] at hkey
    split at hkey
    case isTrue hmem =>
      have hknows : chat'.knows r = true := by
        rw [hshown.knows, ← hrooms.mem_roomNames_iff]
        exact hmem
      exact (hshown.rooms.mem_roomNames_iff r).mpr hknows
    case isFalse => cases hkey
  · intro r hkey
    rw [hshown.history] at hkey
    split at hkey
    · exact hkey
    · cases hkey

/-- A key that is inserted, beside those that are there. -/
theorem historiesKnown_update (h : chat.HistoriesKnown) {screen : ChatWindowScreen} {r : String}
    {history : Option ChatHistory}
    (hscreen : screen.chatRoomHistory = Function.update chat.screen.chatRoomHistory r history)
    (hr : r ∈ chat.clientRooms.roomNames) : HistoriesKnown { chat with screen } := by
  intro s hkey
  by_cases hs : s = r
  · rw [hs]
    exact hr
  · rw [hscreen, Function.update_of_ne hs] at hkey
    exact h s hkey

/-- What an event leaves of the histories, unless it is a stale echo. -/
theorem handle_histories (h : chat.Consistent) (hknown : chat.HistoriesKnown)
    (hok : chat.handle e = .ok (chat', pushed)) :
    (¬ chat.StaleEcho e → chat'.HistoriesKnown) ∧ StartClean chat chat' := by
  have hclean : ∀ {screen : ChatWindowScreen}, StartClean chat { chat with screen } :=
    fun r hout hin => absurd hin hout
  cases e with
  | message msg =>
      cases handleMessage_cases h hok with
      | shows clientRooms hrooms hunmarked hsame hshow =>
          obtain ⟨hafter, hold⟩ := showRooms_histories hrooms hunmarked hshow
          refine ⟨fun _ => hafter, fun r hout _ => ?_⟩
          -- a history would be one of before, for a name without a room
          cases hkey : chat'.screen.chatRoomHistory r with
          | none => rfl
          | some history => exact absurd (hknown r (hold r (by rw [hkey]; rfl))) hout
      | ignores => exact ⟨fun _ => hknown, hclean⟩
      | rewrites room events hroom =>
          refine ⟨fun _ => historiesKnown_update hknown rfl ?_, hclean⟩
          have hname : room.roomName = _ := RoomManager.find?_eq_some_name hroom
          rw [hname, h.rooms.mem_roomNames_iff, hroom]
          rfl
      | inserts event htype =>
          refine ⟨fun hfresh => historiesKnown_update hknown rfl ?_, hclean⟩
          by_contra hout
          exact hfresh ⟨htype, hout⟩
  | pick index =>
      let picked : ChatWindow := { chat with screen := chat.screen.pickRoom index }
      have hrooms : picked.clientRooms.WF := h.rooms
      obtain ⟨chat'', pushed', hok', hjoins⟩ := joinCurrentRoom_spec hrooms h.unmarked
      cases hok'.symm.trans hok
      have hnames : ∀ r, r ∈ chat'.clientRooms.roomNames ↔ r ∈ chat.clientRooms.roomNames := by
        intro r
        rw [hjoins.rooms.mem_roomNames_iff, h.rooms.mem_roomNames_iff]
        exact Bool.coe_iff_coe.mpr (hjoins.knows r)
      refine ⟨fun _ r hkey => ?_, fun r hout hin => absurd ((hnames r).mp hin) hout⟩
      rw [hjoins.screen] at hkey
      exact (hnames r).mpr (hknown r hkey)

/-- A stale echo inserts a history for a name without a room. -/
theorem staleEcho_histories (hstale : chat.StaleEcho e)
    (hok : chat.handle e = .ok (chat', pushed)) : ¬ chat'.HistoriesKnown := by
  cases e with
  | message msg =>
      obtain ⟨event, rfl, rfl⟩ := course_chatEcho hstale.1 hok
      intro hknown
      refine hstale.2 (hknown (msg.text "room_name") ?_)
      show (Function.update chat.screen.chatRoomHistory (msg.text "room_name") _ _).isSome = true
      rw [Function.update_self]
      rfl
  | pick index => exact absurd hstale id

end ChatWindow

/-! ## Sessions -/

/-- A window to which the rooms have been listed; each step is an event whose handler returns. -/
def listedSystem : LabelledSystem ChatWindow WindowEvent where
  init chat := ∃ (before : ChatWindow) (msg : Message) (pushed : List Message),
    msg.messageType = .roomList ∧ before.handleMessage msg = .ok (chat, pushed)
  step chat e chat' := chat.Offers e ∧ ∃ pushed, chat.handle e = .ok (chat', pushed)

/-- **Without stale echoes, every history belongs to a room at every handler boundary**, and
a room that appears has none.  A stale echo breaks the first at once. -/
theorem histories_known {chat : ChatWindow}
    (h : listedSystem.Reachable (fun chat e => ¬ chat.StaleEcho e) chat) :
    chat.HistoriesKnown ∧ ∀ e chat', listedSystem.step chat e chat' →
      ChatWindow.StartClean chat chat' ∧ (chat.StaleEcho e ↔ ¬ chat'.HistoriesKnown) := by
  have hinv : chat.Consistent ∧ chat.HistoriesKnown := by
    refine h.invariant ?_ ?_
    · rintro chat ⟨before, msg, pushed, htype, hok⟩
      obtain ⟨clientRooms, hrooms, hunmarked, hshow⟩ := ChatWindow.course_roomList htype hok
      obtain ⟨chat', pushed', hshow', hre⟩ :=
        ChatWindow.showRooms_reselects before hrooms hunmarked
      cases hshow'.symm.trans hshow
      exact ⟨hre.consistent, (ChatWindow.showRooms_histories hrooms hunmarked hshow).1⟩
    · rintro chat e chat' - ⟨hconsistent, hknown⟩ hfresh ⟨hoffers, pushed, hok⟩
      exact ⟨(ChatWindow.handle_handles hconsistent hoffers hok).consistent,
        (ChatWindow.handle_histories hconsistent hknown hok).1 hfresh⟩
  obtain ⟨hconsistent, hknown⟩ := hinv
  refine ⟨hknown, ?_⟩
  rintro e chat' ⟨-, pushed, hok⟩
  obtain ⟨hafter, hclean⟩ := ChatWindow.handle_histories hconsistent hknown hok
  refine ⟨hclean, fun hstale => ChatWindow.staleEcho_histories hstale hok, fun hbad => ?_⟩
  by_contra hfresh
  exact hbad (hafter hfresh)

/-- An event that is offered, with a handler that returns. -/
def execListed (chat : ChatWindow) (e : WindowEvent) : Option ChatWindow :=
  if chat.Offers e then (chat.handle e).toOption.map Prod.fst else none

theorem step_of_execListed {chat chat' : ChatWindow} {e : WindowEvent}
    (h : execListed chat e = some chat') : listedSystem.step chat e chat' := by
  rw [execListed, Option.ite_none_right_eq_some] at h
  obtain ⟨hoffers, h⟩ := h
  cases hhandle : chat.handle e with
  | error _ =>
      rw [hhandle] at h
      cases h
  | ok result =>
      rw [hhandle] at h
      cases h
      exact ⟨hoffers, result.2, hhandle⟩

/-- A window to which one room was listed. -/
def listedDen : ChatWindow :=
  match ChatWindow.new.handleMessage (createRoomList ["den"]) with
  | .ok result => result.1
  | .error _ => .new

theorem listedDen_init : listedSystem.init listedDen :=
  ⟨.new, createRoomList ["den"], joinRequests "den", rfl, rfl⟩

/-- The room is chatted in. -/
theorem histories_known_den : ∃ chat : ChatWindow, chat.HistoriesKnown ∧
    (chat.screen.chatRoomHistory "den").isSome = true := by
  obtain ⟨chat, hchat, htest⟩ := listedSystem.exists_of_execute (fun chat e => ¬ chat.StaleEcho e)
    (fun _ _ _ => step_of_execListed) listedDen_init
    [.message (createChatEcho "den" "hi" "ann" 1)]
    (fun chat => (chat.screen.chatRoomHistory "den").isSome) (by decide +kernel)
  exact ⟨chat, (histories_known hchat).1, htest⟩

/-- The room is destroyed, and then a line arrives that was chatted in it: the next room of
that name starts with this line. -/
theorem histories_stale : ∃ chat chat' : ChatWindow,
    listedSystem.Reachable LabelledSystem.anyStep chat ∧ ¬ chat.HistoriesKnown ∧
    listedSystem.step chat (.message (createRoomCreate "den")) chat' ∧
    ¬ ChatWindow.StartClean chat chat' := by
  obtain ⟨chat, hchat, htest⟩ := listedSystem.exists_of_execute LabelledSystem.anyStep
    (fun _ _ _ => step_of_execListed) listedDen_init
    [.message (createRoomDestroy "den"), .message (createChatEcho "den" "hi" "ann" 1)]
    (fun chat => (chat.screen.chatRoomHistory "den").isSome && "den" ∉ chat.clientRooms.roomNames &&
      (execListed chat (.message (createRoomCreate "den"))).any fun chat' =>
        "den" ∈ chat'.clientRooms.roomNames && (chat'.screen.chatRoomHistory "den").isSome)
    (by decide +kernel)
  simp only [Bool.and_eq_true, decide_eq_true_eq, Option.any_eq_true] at htest
  obtain ⟨⟨hkey, hout⟩, chat', hexec, hin, hkey'⟩ := htest
  refine ⟨chat, chat', hchat, fun hknown => hout (hknown "den" hkey), step_of_execListed hexec, ?_⟩
  intro hclean
  rw [hclean "den" hout hin] at hkey'
  cases hkey'

end Tavernmx.Client
