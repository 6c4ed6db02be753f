/-
# `Tavernmx.Client.Scrolling` — the request to scroll to the newest line

The chat window scrolls down when something was added to the history it shows.
`reset_scroll_pos` is that request: the functions that store an event set it, and
`render` tests it, once a frame.  In between, the update handler takes all messages
that are waiting.

The flag is assigned for every event that is stored, also for those of other rooms:

    stored for the selected room      true
    stored for another room           false

So the last one decides (`scrolls_iff`), and a line for another room takes back the
request of one before it.
-/
import Tavernmx.Client.ChatWindow
import Tavernmx.Lib.Fallible

namespace Tavernmx.Client

open Messaging Rooms

/-- The chat window and its `reset_scroll_pos`. -/
structure ChatView where
  window : ChatWindow
  resetScrollPos : Bool

namespace ChatView

/-- The name of the room that is selected. -/
def selected (view : ChatView) : String := view.window.screen.currentRoomName

/-- `insert_chat_history_event`. -/
def insertChatHistoryEvent (roomName : String) (event : RoomEvent) (view : ChatView) :
    ChatView where
  window := { view.window with
    screen := view.window.screen.insertChatHistoryEvent roomName event }
  resetScrollPos := roomName = view.selected

/-- `rewrite_chat_history`. -/
def rewriteChatHistory (roomName : String) (events : List RoomEvent) (view : ChatView) :
    ChatView where
  window := { view.window with
    screen := view.window.screen.rewriteChatHistory roomName events }
  resetScrollPos := roomName = view.selected

/-- One message in the update handler.  What does not store an event leaves the flag alone. -/
def handleMessage (view : ChatView) (msg : Message) : Exec (ChatView × List Message) :=
  match msg.messageType with
  | .roomHistory => do
      let roomName ← messageValueOr String msg "room_name" ""
      match view.window.clientRooms.find? roomName with
      | some room => do
          let events ← roomHistoryMessageToEvents msg
          pure (view.rewriteChatHistory room.roomName events, [])
      | none => pure (view, [])
  | .chatEcho => do
      let roomName ← messageValueOr String msg "room_name" ""
      let event ← eventJsonToRoomEvent msg.values
      pure (view.insertChatHistoryEvent roomName event, [])
  | _ => do
      let (window, pushed) ← view.window.handleMessage msg
      pure ({ view with window }, pushed)

/-- The messages that are handled between two renders. -/
def handleMessages : List Message → ChatView → Exec (ChatView × List Message)
  | [], view => pure (view, [])
  | msg :: msgs, view => do
      let (view, pushed) ← view.handleMessage msg
      let (view, more) ← handleMessages msgs view
      pure (view, pushed ++ more)

/-- The list box of `render`: the user may pick an entry. -/
def listBox (picked : Option Nat) (view : ChatView) : Exec (ChatView × List Message) :=
  match picked with
  | some index => do
      let (window, pushed) ← view.window.changeRoom index
      pure (⟨window, true⟩, pushed)
  | none => pure (view, [])

/-- `render` of an open window: whether it scrolls, and what it leaves. -/
def render (picked : Option Nat) (view : ChatView) : Exec (Bool × ChatView × List Message) := do
  let (view, pushed) ← view.listBox picked
  pure (view.resetScrollPos, { view with resetScrollPos := false }, pushed)

end ChatView

/-! ## What is stored -/

/-- The room for which the handler stores what the message says. -/
def ChatWindow.storesFor (chat : ChatWindow) (msg : Message) : Option String :=
  match msg.messageType with
  | .roomHistory => (chat.clientRooms.find? (msg.text "room_name")).map nameOf
  | .chatEcho => some (msg.text "room_name")
  | _ => none

/-- A message that was handled: the room for which it stored something, and the selection
that it left. -/
structure Mark where
  storedFor : Option String
  selected : String
  deriving DecidableEq, Repr

/-- The marks of the messages, one by one. -/
def ChatWindow.marks : ChatWindow → List Message → List Mark
  | _, [] => []
  | chat, msg :: msgs =>
    match chat.handleMessage msg with
    | .ok (chat', _) =>
        ⟨chat.storesFor msg, chat'.screen.currentRoomName⟩ :: marks chat' msgs
    | .error _ => []

/-- Something was stored for the selected room, and the selection did not change afterwards. -/
def Requested (marks : List Mark) : Prop :=
  ∃ earlier mark later, marks = earlier ++ mark :: later ∧ mark.storedFor = some mark.selected ∧
    ∀ m ∈ later, m.selected = mark.selected

/-- What was stored last was stored for a room that was not selected. -/
def Overtaken (marks : List Mark) : Prop :=
  ∃ mark, (marks.filter (·.storedFor.isSome)).getLast? = some mark ∧
    mark.storedFor ≠ some mark.selected

/-! ## One message -/

variable {view view' : ChatView} {msg : Message} {msgs pushed : List Message}

theorem storesFor_other {chat : ChatWindow} (hhistory : msg.messageType ≠ .roomHistory)
    (hecho : msg.messageType ≠ .chatEcho) : chat.storesFor msg = none := by
  rw [ChatWindow.storesFor]
  split
  · next htype => exact absurd htype hhistory
  · next htype => exact absurd htype hecho
  · rfl

/-- The window does what it does without the flag, and the flag is assigned if something is
stored. -/
theorem ChatView.handleMessage_spec (h : view.handleMessage msg = .ok (view', pushed)) :
    view.window.handleMessage msg = .ok (view'.window, pushed) ∧
      view'.resetScrollPos = match view.window.storesFor msg with
        | some roomName => decide (roomName = view'.selected)
        | none => view.resetScrollPos := by
  rw [ChatView.handleMessage] at h
  split at h
  case h_1 htype =>
    obtain ⟨roomName, hname, h⟩ := Fallible.bind_ok.mp h
    obtain rfl := messageValueOr_string hname
    simp only [ChatWindow.handleMessage, ChatWindow.storesFor, htype, hname]
    cases hfind : view.window.clientRooms.find? (msg.text "room_name") with
    | some room =>
        rw [hfind] at h
        obtain ⟨events, hevents, h⟩ := Fallible.bind_ok.mp h
        cases h
        simp only [hfind, hevents, bind, Except.bind]
        exact ⟨rfl, rfl⟩
    | none =>
        rw [hfind] at h
        cases h
        simp only [hfind, bind, Except.bind]
        exact ⟨rfl, rfl⟩
  case h_2 htype =>
    obtain ⟨roomName, hname, h⟩ := Fallible.bind_ok.mp h
    obtain rfl := messageValueOr_string hname
    obtain ⟨event, hevent, h⟩ := Fallible.bind_ok.mp h
    cases h
    simp only [ChatWindow.handleMessage, ChatWindow.storesFor, htype, hname, hevent, bind,
      Except.bind]
    exact ⟨rfl, rfl⟩
  case h_3 hhistory hecho =>
    obtain ⟨result, hwindow, h⟩ := Fallible.bind_ok.mp h
    cases h
    rw [storesFor_other hhistory hecho]
    exact ⟨hwindow, rfl⟩

/-! ## Between two renders -/

/-- The flag after the marks. -/
def scrollAfter (flag : Bool) (marks : List Mark) : Bool :=
  marks.foldl (fun flag mark => match mark.storedFor with
    | some roomName => roomName = mark.selected
    | none => flag) flag

/-- A run of the handler is a run of the window, and the marks decide on the flag. -/
theorem ChatView.handleMessages_spec (h : view.handleMessages msgs = .ok (view', pushed)) :
    view.window.handleMessages msgs = .ok (view'.window, pushed) ∧
      view'.resetScrollPos = scrollAfter view.resetScrollPos (view.window.marks msgs) := by
  induction msgs generalizing view pushed with
  | nil =>
      cases h
      exact ⟨rfl, rfl⟩
  | cons msg msgs ih =>
      rw [ChatView.handleMessages] at h
      obtain ⟨⟨mid, first⟩, hstep, h⟩ := Fallible.bind_ok.mp h
      obtain ⟨⟨last, more⟩, hrest, h⟩ := Fallible.bind_ok.mp h
      cases h
      obtain ⟨hwindow, hflag⟩ := ChatView.handleMessage_spec hstep
      obtain ⟨hwindows, hflags⟩ := ih hrest
      constructor
      · rw [ChatWindow.handleMessages, hwindow]
        simp only [bind, Except.bind, hwindows]
        rfl
      · rw [hflags, hflag, ChatWindow.marks, hwindow]
        rfl

theorem scrollAfter_append (flag : Bool) (marks : List Mark) (mark : Mark) :
    scrollAfter flag (marks ++ [mark]) = match mark.storedFor with
      | some roomName => decide (roomName = mark.selected)
      | none => scrollAfter flag marks := by
  rw [scrollAfter, List.foldl_append]
  rfl

theorem overtaken_append_stored {marks : List Mark} {mark : Mark} {roomName : String}
    (h : mark.storedFor = some roomName) :
    Overtaken (marks ++ [mark]) ↔ roomName ≠ mark.selected := by
  have hlast : ((marks ++ [mark]).filter (·.storedFor.isSome)).getLast? = some mark := by
    rw [List.filter_append, List.filter_cons_of_pos (by rw [h]; rfl), List.filter_nil,
      List.getLast?_concat]
  constructor
  · rintro ⟨mark', hmark', hother⟩
    obtain rfl := Option.some.inj (hlast.symm.trans hmark')
    rw [h] at hother
    exact fun heq => hother (congrArg some heq)
  · intro hother
    refine ⟨mark, hlast, ?_⟩
    rw [h]
    exact fun heq => hother (Option.some.inj heq)

theorem overtaken_append_other {marks : List Mark} {mark : Mark} (h : mark.storedFor = none) :
    Overtaken (marks ++ [mark]) ↔ Overtaken marks := by
  have hnot : [mark].filter (·.storedFor.isSome) = [] := by simp [h]
  rw [Overtaken, Overtaken, List.filter_append, hnot, List.append_nil]

/-- **With something stored, the last of it decides.** -/
theorem scrollAfter_iff (flag : Bool) {marks : List Mark}
    (h : ∃ mark ∈ marks, mark.storedFor.isSome = true) :
    scrollAfter flag marks = true ↔ ¬ Overtaken marks := by
  induction marks using List.reverseRecOn with
  | nil =>
      obtain ⟨mark, hmem, -⟩ := h
      cases hmem
  | append_singleton marks mark ih =>
      rw [scrollAfter_append]
      cases hstored : mark.storedFor with
      | some roomName =>
          rw [overtaken_append_stored hstored, decide_eq_true_iff, not_not]
      | none =>
          rw [overtaken_append_other hstored]
          refine ih ?_
          obtain ⟨mark', hmem, hsome⟩ := h
          rcases List.mem_append.mp hmem with hmem | hmem
          · exact ⟨mark', hmem, hsome⟩
          · rw [List.mem_singleton.mp hmem, hstored] at hsome
            cases hsome

theorem Requested.stored {marks : List Mark} (h : Requested marks) :
    ∃ mark ∈ marks, mark.storedFor.isSome = true := by
  obtain ⟨earlier, mark, later, rfl, hstored, -⟩ := h
  refine ⟨mark, List.mem_append_right earlier List.mem_cons_self, ?_⟩
  rw [hstored]
  rfl

/-- What the render tests: the pick of the user counts as a request. -/
theorem ChatView.render_spec (picked : Option Nat) (view : ChatView) :
    ∃ after pushed, view.render picked
      = .ok (picked.isSome || view.resetScrollPos, after, pushed) := by
  cases picked with
  | none => exact ⟨_, _, rfl⟩
  | some index =>
      obtain ⟨⟨window, pushed⟩, hok⟩ := ChatWindow.joinCurrentRoom_ok
        { view.window with screen := view.window.screen.pickRoom index }
      refine ⟨⟨window, false⟩, pushed, ?_⟩
      simp [ChatView.render, ChatView.listBox, ChatWindow.changeRoom, hok, bind, Except.bind,
        pure, Except.pure]

/-- **A pending request is there at the next render, unless something was stored for another
room after it**, and the user picks no room in that render. -/
theorem scrolls_iff {view view' : ChatView} {msgs pushed : List Message} (picked : Option Nat)
    (hrun : view.handleMessages msgs = .ok (view', pushed))
    (hrequested : Requested (view.window.marks msgs)) :
    ∃ scrolls after pushed', view'.render picked = .ok (scrolls, after, pushed') ∧
      (scrolls = true ↔ picked.isSome = true ∨ ¬ Overtaken (view.window.marks msgs)) := by
  obtain ⟨after, pushed', hrender⟩ := view'.render_spec picked
  refine ⟨_, after, pushed', hrender, ?_⟩
  rw [Bool.or_eq_true, (ChatView.handleMessages_spec hrun).2,
    scrollAfter_iff _ hrequested.stored]

/-! ## Two rooms -/

/-- The rooms `den` and `inn`, with the first one selected. -/
def twoRooms : ChatView where
  window :=
    ⟨⟨[⟨⟨"den", false⟩, true⟩, ⟨⟨"inn", false⟩, true⟩], ["den", "inn"]⟩,
      ⟨["den", "inn"], 0, "den", fun _ => none⟩⟩
  resetScrollPos := false

/-- Lines in these rooms. -/
def linesIn (rooms : List String) : List Message :=
  rooms.map fun roomName => createChatEcho roomName "hi" "ann" 1

theorem handles_twoRooms (rooms : List String)
    (h : (twoRooms.handleMessages (linesIn rooms)).isOk = true) :
    ∃ view' pushed, twoRooms.handleMessages (linesIn rooms) = .ok (view', pushed) := by
  obtain ⟨⟨view', pushed⟩, hrun⟩ := Fallible.isOk_iff.mp h
  exact ⟨view', pushed, hrun⟩

/-- A line in the other room, and then one in the selected room. -/
theorem scrolls_iff_innThenDen : ∃ view' pushed after pushed',
    twoRooms.handleMessages (linesIn ["inn", "den"]) = .ok (view', pushed) ∧
    view'.render none = .ok (true, after, pushed') := by
  have hmarks : twoRooms.window.marks (linesIn ["inn", "den"])
      = [⟨some "inn", "den"⟩, ⟨some "den", "den"⟩] := by decide +kernel
  obtain ⟨view', pushed, hrun⟩ := handles_twoRooms ["inn", "den"] (by decide +kernel)
  obtain ⟨scrolls, after, pushed', hrender, hscrolls⟩ := scrolls_iff none hrun
    ⟨[⟨some "inn", "den"⟩], ⟨some "den", "den"⟩, [], hmarks, rfl, fun m hm => by cases hm⟩
  have hlast : ¬ Overtaken (twoRooms.window.marks (linesIn ["inn", "den"])) := by
    rw [hmarks]
    rintro ⟨mark, hmark, hother⟩
    cases hmark
    exact hother rfl
  obtain rfl : scrolls = true := hscrolls.mpr (Or.inr hlast)
  exact ⟨view', pushed, after, pushed', hrun, hrender⟩

/-- **The request is lost** when a line in the other room comes after it. -/
theorem scroll_lost : ∃ view' pushed after pushed',
    twoRooms.handleMessages (linesIn ["den", "inn"]) = .ok (view', pushed) ∧
    Requested (twoRooms.window.marks (linesIn ["den", "inn"])) ∧
    view'.render none = .ok (false, after, pushed') := by
  have hmarks : twoRooms.window.marks (linesIn ["den", "inn"])
      = [⟨some "den", "den"⟩, ⟨some "inn", "den"⟩] := by decide +kernel
  obtain ⟨view', pushed, hrun⟩ := handles_twoRooms ["den", "inn"] (by decide +kernel)
  obtain ⟨after, pushed', hrender⟩ := view'.render_spec none
  have hflag : view'.resetScrollPos = false := by
    rw [(ChatView.handleMessages_spec hrun).2, hmarks]
    decide
  rw [hflag] at hrender
  refine ⟨view', pushed, after, pushed', hrun, ?_, hrender⟩
  refine ⟨[], ⟨some "den", "den"⟩, [⟨some "inn", "den"⟩], hmarks, rfl, ?_⟩
  intro m hm
  rw [List.mem_singleton.mp hm]

end Tavernmx.Client
