/-
# `Tavernmx.Client.ChatEntry` — what the user may type

The handler of MSG_CHAT_SUBMIT looks at the first character of the line.  A slash
makes it a command, and the line is split at spaces:

    /create_room NAME       for a valid room name
    /destroy_room NAME      for a room of `client_rooms`

The first word counts in any mixture of cases, and every other number of words is
refused.  Any other line is chat, for the room that is selected.  `Asks` is this
grammar.

The handler reads `tokens[0]` without looking whether there are any tokens.  It may:
the slash is not a space, so it is in a token (`tokens_ne_nil`).
-/
import Tavernmx.Client.ChatWindow
import Tavernmx.Server.Worker
import Tavernmx.Shared.Util

namespace Tavernmx.Client

open Messaging Rooms

structure ChatEntry where
  window : ChatWindow
  chatInput : String

namespace ChatEntry

/-- `tokens[i]`, which is not checked. -/
def token (tokens : List String) (i : Nat) : Exec String :=
  match tokens[i]? with
  | some t => pure t
  | none => throw .assertion

/-- The branch for a line that starts with a slash: what is pushed. -/
def runCommand (clientRooms : RoomManager ClientRoom) (tokens : List String) :
    Exec (List Message) := do
  let command := strToLower (← token tokens 0)
  if command = "/create_room" then
    if tokens.length ≠ 2 then pure []
    else do
      let roomName ← token tokens 1
      if isValidRoomName roomName then pure [createRoomCreate roomName] else pure []
  else if command = "/destroy_room" then
    if tokens.length ≠ 2 then pure []
    else do
      let roomName ← token tokens 1
      match clientRooms.find? roomName with
      | some roomToDestroy => pure [createRoomDestroy roomToDestroy.roomName]
      | none => pure []
  else pure []

/-- The branch for any other line. -/
def chatText (currentRoomName chatInput : String) : List Message :=
  if currentRoomName ≠ "" then [createChatSend currentRoomName chatInput] else []

/-- `chat_input[0] == '/'`, for a line that is not empty. -/
def isCommand (entry : ChatEntry) : Bool := entry.chatInput.toList.head? = some '/'

/-- `chat_input.clear()`. -/
def clear (entry : ChatEntry) : ChatEntry := { entry with chatInput := "" }

/-- The handler of MSG_CHAT_SUBMIT: the window and its line, and what is pushed. -/
def chatSubmit (entry : ChatEntry) : Exec (ChatEntry × List Message) :=
  if entry.chatInput.isEmpty then pure (entry, [])
  else if entry.isCommand then do
    let pushed ← runCommand entry.window.clientRooms (tokenizeString entry.chatInput ' ' [])
    pure (entry.clear, pushed)
  else
    pure (entry.clear, chatText entry.window.screen.currentRoomName entry.chatInput)

end ChatEntry

/-! ## The commands -/

/-- The words of a command, and the message that it sends. -/
inductive Asks (clientRooms : RoomManager ClientRoom) : List String → Message → Prop where
  | create {command roomName : String} (hcommand : strToLower command = "/create_room")
      (hvalid : isValidRoomName roomName = true) :
      Asks clientRooms [command, roomName] (createRoomCreate roomName)
  | destroy {command roomName : String} (hcommand : strToLower command = "/destroy_room")
      (hknown : (clientRooms.find? roomName).isSome = true) :
      Asks clientRooms [command, roomName] (createRoomDestroy roomName)

variable {clientRooms : RoomManager ClientRoom} {tokens : List String} {msg : Message}

theorem Asks.length_eq (h : Asks clientRooms tokens msg) : tokens.length = 2 := by
  cases h with
  | create => rfl
  | destroy => rfl

theorem Asks.first (h : Asks clientRooms tokens msg) {command : String}
    (hfirst : tokens.head? = some command) :
    strToLower command = "/create_room" ∨ strToLower command = "/destroy_room" := by
  cases h with
  | create hcommand =>
      obtain rfl := Option.some.inj hfirst
      exact Or.inl hcommand
  | destroy hcommand =>
      obtain rfl := Option.some.inj hfirst
      exact Or.inr hcommand

namespace ChatEntry

/-- Nothing is pushed, and nothing was asked for. -/
theorem pushes_nothing (h : ∀ msg, ¬ Asks clientRooms tokens msg) :
    ([] : List Message).length ≤ 1 ∧
      ∀ msg, msg ∈ ([] : List Message) ↔ Asks clientRooms tokens msg :=
  ⟨Nat.zero_le 1, fun msg => iff_of_false List.not_mem_nil (h msg)⟩

/-- A command with its one argument. -/
theorem runCommand_pair (command roomName : String) :
    ∃ pushed, runCommand clientRooms [command, roomName] = .ok pushed ∧ pushed.length ≤ 1 ∧
      ∀ msg, msg ∈ pushed ↔ Asks clientRooms [command, roomName] msg := by
  by_cases hcreate : strToLower command = "/create_room"
  · have hdestroy : strToLower command ≠ "/destroy_room" := by
      rw [hcreate]
      decide
    cases hvalid : isValidRoomName roomName with
    | true =>
        refine ⟨[createRoomCreate roomName], ?_, le_refl 1, fun msg => ?_⟩
        · simp [runCommand, token, hcreate, hvalid, bind, Except.bind, pure, Except.pure]
        · rw [List.mem_singleton]
          constructor
          · rintro rfl
            exact .create hcreate hvalid
          · intro h
            cases h with
            | create => rfl
            | destroy hcommand => exact absurd hcommand hdestroy
    | false =>
        refine ⟨[], ?_, pushes_nothing fun msg h => ?_⟩
        · simp [runCommand, token, hcreate, hvalid, bind, Except.bind, pure, Except.pure]
        · cases h with
          | create _ hvalid' => cases hvalid.symm.trans hvalid'
          | destroy hcommand => exact absurd hcommand hdestroy
  · by_cases hdestroy : strToLower command = "/destroy_room"
    · cases hfind : clientRooms.find? roomName with
      | some room =>
          have hname : room.roomName = roomName := RoomManager.find?_eq_some_name hfind
          refine ⟨[createRoomDestroy roomName], ?_, le_refl 1, fun msg => ?_⟩
          · simp [runCommand, token, hdestroy, hfind, hname, bind, Except.bind, pure, Except.pure]
          · rw [List.mem_singleton]
            constructor
            · rintro rfl
              exact .destroy hdestroy (by rw [hfind]; rfl)
            · intro h
              cases h with
              | create hcommand => exact absurd hcommand hcreate
              | destroy => rfl
      | none =>
          refine ⟨[], ?_, pushes_nothing fun msg h => ?_⟩
          · simp [runCommand, token, hdestroy, hfind, bind, Except.bind, pure, Except.pure]
          · cases h with
            | create hcommand => exact absurd hcommand hcreate
            | destroy _ hknown =>
                rw [hfind] at hknown
                cases hknown
    · refine ⟨[], ?_, pushes_nothing fun msg h => ?_⟩
      · simp [runCommand, token, hcreate, hdestroy, bind, Except.bind, pure, Except.pure]
      · exact (h.first rfl).elim hcreate hdestroy

/-- With a first token there is no fault, and what is pushed is what was asked for. -/
theorem runCommand_spec (clientRooms : RoomManager ClientRoom) (hne : tokens ≠ []) :
    ∃ pushed, runCommand clientRooms tokens = .ok pushed ∧ pushed.length ≤ 1 ∧
      ∀ msg, msg ∈ pushed ↔ Asks clientRooms tokens msg := by
  match tokens, hne with
  | [command, roomName], _ => exact runCommand_pair command roomName
  | [command], _ =>
      refine ⟨[], ?_, pushes_nothing fun msg h => absurd h.length_eq (by simp)⟩
      simp [runCommand, token, bind, Except.bind, pure, Except.pure]
  | command :: roomName :: more :: rest, _ =>
      refine ⟨[], ?_, pushes_nothing fun msg h => absurd h.length_eq (by simp)⟩
      simp [runCommand, token, bind, Except.bind, pure, Except.pure]

/-- A line that starts with a slash has a token. -/
theorem tokens_ne_nil {entry : ChatEntry} (hcommand : entry.isCommand = true)
    (hruns : MaximalRuns ' ' entry.chatInput.toList (tokens.map String.toList)) : tokens ≠ [] := by
  have hslash : '/' ∈ entry.chatInput.toList := List.mem_of_head? (of_decide_eq_true hcommand)
  have hmap := hruns.ne_nil_iff.mpr ⟨'/', hslash, by decide⟩
  exact fun hnil => hmap (List.map_eq_nil_iff.mpr hnil)

/-- **The grammar of a line.**  It is cleared, and sends one message at most: a command what
it asks for, by its maximal runs of non-spaces, and never chat; any other line itself, if a
room is selected.  The server refuses a ROOM_CREATE only when it has the room. -/
theorem chatSubmit_grammar (entry : ChatEntry) (hne : entry.chatInput ≠ "") :
    ∃ tokens, MaximalRuns ' ' entry.chatInput.toList (tokens.map String.toList) ∧
    ∃ pushed, entry.chatSubmit = .ok (entry.clear, pushed) ∧ pushed.length ≤ 1 ∧
      (entry.isCommand = true →
        ∀ msg, msg ∈ pushed ↔ Asks entry.window.clientRooms tokens msg) ∧
      (entry.isCommand = false → ∀ msg, msg ∈ pushed ↔
        entry.window.screen.currentRoomName ≠ "" ∧
          msg = createChatSend entry.window.screen.currentRoomName entry.chatInput) ∧
      (entry.isCommand = true → ∀ msg ∈ pushed, msg.messageType ≠ .chatSend) ∧
      ∀ msg ∈ pushed, msg.messageType = .roomCreate →
        ∃ roomName, msg = createRoomCreate roomName ∧ ∀ rooms : RoomManager Server.ServerRoom,
          rooms.createRoom roomName = none ↔ roomName ∈ rooms.roomNames := by
  obtain ⟨tokens, htokens, hruns⟩ := tokenizeString_spec entry.chatInput ' ' []
  rw [List.nil_append] at htokens
  have hnot : entry.chatInput.isEmpty = false :=
    Bool.eq_false_iff.mpr fun hempty => hne (String.isEmpty_iff.mp hempty)
  refine ⟨tokens, hruns, ?_⟩
  cases hcommand : entry.isCommand with
  | true =>
      obtain ⟨pushed, hok, hlength, hasks⟩ :=
        runCommand_spec entry.window.clientRooms (tokens_ne_nil hcommand hruns)
      refine ⟨pushed, ?_, hlength, fun _ => hasks, fun hchat => (by cases hchat), ?_, ?_⟩
      · simp [chatSubmit, hnot, hcommand, htokens, hok, bind, Except.bind, pure, Except.pure]
      · intro _ msg hmsg hsend
        cases (hasks msg).mp hmsg with
        | create => cases hsend
        | destroy => cases hsend
      · intro msg hmsg htype
        cases (hasks msg).mp hmsg with
        | @create command roomName _ hvalid =>
            refine ⟨roomName, rfl, fun rooms => ?_⟩
            rw [RoomManager.createRoom_eq_none_iff, hvalid]
            exact or_iff_right Bool.noConfusion
        | destroy => cases htype
  | false =>
      have hchat : ∀ msg, msg ∈ chatText entry.window.screen.currentRoomName entry.chatInput ↔
          entry.window.screen.currentRoomName ≠ "" ∧
            msg = createChatSend entry.window.screen.currentRoomName entry.chatInput := by
        intro msg
        rw [chatText]
        split
        case isTrue hroom => rw [List.mem_singleton, and_iff_right hroom]
        case isFalse hroom => exact iff_of_false List.not_mem_nil fun h => hroom h.1
      refine ⟨_, ?_, ?_, fun hslash => (by cases hslash), fun _ => hchat,
        fun hslash => (by cases hslash), ?_⟩
      · simp [chatSubmit, hnot, hcommand, pure, Except.pure]
      · rw [chatText]
        split
        · exact le_refl 1
        · exact Nat.zero_le 1
      · intro msg hmsg htype
        rw [((hchat msg).mp hmsg).2] at htype
        cases htype

/-- A command in capitals, with spaces around its argument, in a window without rooms. -/
theorem chatSubmit_grammar_create : ∃ pushed,
    (ChatEntry.mk ⟨.new, .new⟩ "/CREATE_room   den ").chatSubmit
      = .ok (⟨⟨.new, .new⟩, ""⟩, pushed) ∧
    createRoomCreate "den" ∈ pushed ∧ pushed.length ≤ 1 := by
  obtain ⟨tokens, hruns, pushed, hok, hlength, hasks, -⟩ :=
    chatSubmit_grammar ⟨⟨.new, .new⟩, "/CREATE_room   den "⟩ (by decide)
  refine ⟨pushed, hok, (hasks (by decide +kernel) _).mpr ?_, hlength⟩
  have hsplit : tokenizeString "/CREATE_room   den " ' ' [] = ["/CREATE_room", "den"] := by
    decide +kernel
  obtain ⟨tokens', htokens', hruns'⟩ := tokenizeString_spec "/CREATE_room   den " ' ' []
  obtain rfl : tokens' = ["/CREATE_room", "den"] := htokens'.symm.trans hsplit
  obtain rfl : tokens = ["/CREATE_room", "den"] :=
    List.map_injective_iff.mpr (fun _ _ => String.toList_injective) (hruns.unique hruns')
  exact .create (by decide +kernel) (by decide +kernel)

end ChatEntry

end Tavernmx.Client
