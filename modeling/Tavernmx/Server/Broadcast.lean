/-
# `Tavernmx.Server.Broadcast` — who receives what of a room

Chat events reach the clients in one place, step 2b, which sends each room's
queue to each of its members.  Between ticks the queues are empty, so what a
tick sends for a room is what was chatted in it during that tick
(`pendingOf_gather`), and step 1 itself never sends a CHAT_ECHO
(`gather_messagesOut`).  Together: `broadcast_exactly_once`.
-/
import Tavernmx.Server.Tick

namespace Tavernmx.Server

open Messaging Rooms

/-- A CHAT_ECHO for the room `r`. -/
def isEchoFor (r : String) (message : Message) : Bool :=
  message.messageType = .chatEcho && message.text "room_name" = r

theorem isEchoFor_echoOf (r s : String) (event : RoomEvent) :
    isEchoFor r (echoOf s event) = decide (s = r) := by
  simp [isEchoFor, echoOf, show (createChatEcho s event.eventText event.originUserName
    event.timestamp.toInt32).messageType = .chatEcho from rfl]

/-- The CHAT_SENDs of a batch that find the room `r`, in processing order. -/
def acceptedChats (userName : ConnId → String) (r : String) : Lives → List Incoming → List Incoming
  | _, [] => []
  | lives, m :: ms =>
    (if m.message.messageType = .chatSend ∧ m.roomName = r ∧ (lives r).isSome then [m] else []) ++
      acceptedChats userName r (lives.receive userName m) ms

/-- The events of the room that wait for step 2b. -/
def pendingOf (life : Option RoomLife) : List RoomEvent := (life.map (·.pending)).getD []

variable {w w' : Worker} {lives : Lives} {t : TickInput} {m : Incoming} {userName : ConnId → String}

/-- One message adds to the queue of a room what it chats there. -/
theorem pendingOf_receive (r : String) :
    pendingOf (lives.receive userName m r) = pendingOf (lives r) ++
      (if m.message.messageType = .chatSend ∧ m.roomName = r ∧ (lives r).isSome then
        [m.event userName] else []) := by
  rw [Lives.receive, RoomLife.receive]
  by_cases hr : m.roomName = r
  · rw [if_pos hr]
    cases ht : m.message.messageType with
    | roomCreate =>
        cases hlife : lives r with
        | none =>
            by_cases hvalid : isValidRoomName r = true <;>
              simp [pendingOf, RoomLife.born, hvalid]
        | some life => simp
    | roomJoin =>
        cases lives r with
        | none => simp [pendingOf]
        | some life => simp [pendingOf, RoomLife.join]; split <;> rfl
    | roomDestroy => cases lives r <;> simp [pendingOf, RoomLife.doom]
    | chatSend => cases lives r <;> simp [pendingOf, RoomLife.hear, hr]
    | _ => simp
  · simp [hr]

theorem pendingOf_gather (userName : ConnId → String) (r : String) :
    ∀ (ms : List Incoming) (lives : Lives),
    pendingOf (ms.foldl (Lives.receive userName) lives r) =
      pendingOf (lives r) ++ (acceptedChats userName r lives ms).map (Incoming.event userName)
  | [], lives => by simp [acceptedChats]
  | m :: ms, lives => by
      rw [List.foldl_cons, pendingOf_gather userName r ms, pendingOf_receive, acceptedChats,
        List.map_append,
        List.append_assoc]
      split <;> rfl

/-- The kinds of messages that step 1 answers with. -/
def IsAnswer (message : Message) : Prop :=
  message.messageType = .roomList ∨ message.messageType = .roomHistory

theorem isAnswer_of_replies {replies : List Message} (h : Replies lives m replies) :
    ∀ reply ∈ replies, IsAnswer reply := by
  unfold Replies at h
  split at h
  case h_1 =>
    obtain ⟨names, -, -, rfl⟩ := h
    simp [IsAnswer, createRoomList]
  case h_2 =>
    subst h
    unfold historyReply
    split
    · split <;> simp [IsAnswer, historyMessage]
    · simp
  case h_3 =>
    subst h
    simp

theorem gather_messagesOut (h : Tracks w lives) (hok : w.gatherMessages t = .ok w') (c : ConnId) :
    ∃ replies, w'.messagesOut c = w.messagesOut c ++ replies ∧
      ∀ reply ∈ replies, IsAnswer reply := by
  have hstep : Fallible.Refines
      (fun w' lives' => Tracks w' lives' ∧ ∃ replies,
        w'.messagesOut c = w.messagesOut c ++ replies ∧ ∀ reply ∈ replies, IsAnswer reply)
      (Worker.handleMessage t.userName) (Lives.receive t.userName) := by
    rintro v lives m v' ⟨hv, replies, hout, hanswers⟩ hok
    obtain ⟨htracks, more, hmore, hpush⟩ := handled_of_ok hv hok
    refine ⟨htracks, replies ++ (if c = m.client then more else []), ?_, ?_⟩
    · rw [hpush, Mailbox.push_apply, hout, List.append_assoc]
    · intro reply hreply
      rcases List.mem_append.mp hreply with hold | hnew
      · exact hanswers reply hold
      · split at hnew
        · exact isAnswer_of_replies hmore reply hnew
        · cases hnew
  have hrun := hstep.foldlM ⟨h, [], by simp, by simp⟩ (gatherMessages_eq t w ▸ hok)
  exact hrun.2

/-- Who asks for nothing is answered nothing. -/
theorem messagesOut_of_absent {userName : ConnId → String} {c : ConnId} {batch : List Incoming}
    (habsent : ∀ m ∈ batch, m.client ≠ c) (h : Tracks w lives)
    (hok : batch.foldlM (Worker.handleMessage userName) w = .ok w') :
    w'.messagesOut c = w.messagesOut c := by
  induction batch generalizing w lives with
  | nil =>
      obtain rfl : w = w' := Except.ok.inj hok
      rfl
  | cons m batch ih =>
      obtain ⟨mid, hmid, hrest⟩ := Fallible.bind_ok.mp hok
      obtain ⟨htracks, replies, -, hpush⟩ := handled_of_ok h hmid
      rw [ih (fun m' hm' => habsent m' (List.mem_cons_of_mem m hm')) htracks hrest, hpush]
      exact Mailbox.push_of_ne (habsent m List.mem_cons_self).symm

/-- **A connection that is gone is sent nothing**, neither as a client nor as a member. -/
theorem tick_messagesOut_of_gone (h : Tracks w lives) {c : ConnId} (habsent : c ∉ t.clients)
    (hexpired : t.expired c = true) (hok : w.tick t = .ok w') :
    w'.messagesOut c = w.messagesOut c := by
  obtain ⟨mid, hmid, rfl⟩ := tick_ok_iff.mp hok
  have hsilent : ∀ m ∈ t.batch, m.client ≠ c := by
    intro m hm
    obtain ⟨client, hclient, hm⟩ := List.mem_flatMap.mp hm
    obtain ⟨_, -, rfl⟩ := List.mem_map.mp hm
    exact fun heq => habsent (heq ▸ hclient)
  have hechoes : mid.rooms.roomNames.flatMap (echoes (lives.gather t) t.expired c) = [] := by
    refine List.flatMap_eq_nil_iff.mpr fun r _ => ?_
    rw [echoes]
    split
    · exact if_neg fun hmember => Bool.noConfusion (hexpired.symm.trans hmember.2)
    · rfl
  rw [finishTick_messagesOut (h.gather hmid) t.clients_nodup, hechoes, notices, if_neg habsent,
    messagesOut_of_absent hsilent h (gatherMessages_eq t w ▸ hmid)]
  exact List.append_nil _

theorem filter_answers (r : String) {replies : List Message}
    (h : ∀ reply ∈ replies, IsAnswer reply) : replies.filter (isEchoFor r) = [] := by
  refine List.filter_eq_nil_iff.mpr fun reply hreply => ?_
  rcases h reply hreply with htype | htype <;> simp [isEchoFor, htype]

theorem filter_notices (r : String) (w : Worker) (clients : List ConnId) (c : ConnId) :
    (notices w clients c).filter (isEchoFor r) = [] := by
  refine List.filter_eq_nil_iff.mpr fun message hmessage => ?_
  unfold notices at hmessage
  split at hmessage
  · simp only [List.mem_append, List.mem_map] at hmessage
    rcases hmessage with ⟨name, -, rfl⟩ | ⟨name, -, rfl⟩
    · simp [isEchoFor, createRoomCreate, roomMessage]
    · simp [isEchoFor, createRoomDestroy, roomMessage]
  · cases hmessage

theorem filter_echoes (r s : String) (lives : Lives) (expired : ConnId → Bool) (c : ConnId) :
    (echoes lives expired c s).filter (isEchoFor r)
      = if s = r then echoes lives expired c s else [] := by
  have hall : ∀ message ∈ echoes lives expired c s, isEchoFor r message = decide (s = r) := by
    intro message hmessage
    unfold echoes at hmessage
    split at hmessage
    · split at hmessage
      · obtain ⟨event, -, rfl⟩ := List.mem_map.mp hmessage
        exact isEchoFor_echoOf r s event
      · cases hmessage
    · cases hmessage
  by_cases hs : s = r
  · rw [if_pos hs, List.filter_eq_self]
    intro message hmessage
    rw [hall message hmessage, decide_eq_true hs]
  · rw [if_neg hs, List.filter_eq_nil_iff]
    intro message hmessage
    rw [hall message hmessage, decide_eq_false hs]
    exact Bool.false_ne_true

/-- In a list without repetitions, only `r` contributes what only `r` can. -/
theorem flatMap_only {β : Type} {f : String → List β} {r : String} :
    ∀ {names : List String}, names.Nodup →
    names.flatMap (fun s => if s = r then f s else []) = if r ∈ names then f r else []
  | [], _ => rfl
  | s :: names, hnodup => by
      obtain ⟨hs, hrest⟩ := List.nodup_cons.mp hnodup
      rw [List.flatMap_cons, flatMap_only hrest]
      by_cases hr : s = r
      · subst hr
        simp [hs]
      · simp [hr, Ne.symm hr]

/-- The echoes for `r` at the end of a tick. -/
theorem filter_finishTick (h : Tracks w lives) (expired : ConnId → Bool) (c : ConnId) (r : String) :
    (w.rooms.roomNames.flatMap (echoes lives expired c)).filter (isEchoFor r)
      = echoes lives expired c r := by
  rw [List.filter_flatMap]
  simp only [filter_echoes]
  rw [flatMap_only h.wf.nodup]
  by_cases hr : r ∈ w.rooms.roomNames
  · rw [if_pos hr]
  · have hnone : lives r = none := by simpa [h.mem_roomNames_iff] using hr
    rw [if_neg hr, echoes, hnone]

/-- Whether `c` is in the `joined_clients` of the room `r`. -/
def Worker.joined (w : Worker) (r : String) (c : ConnId) : Bool :=
  (w.rooms.find? r).any fun room => c ∈ room.joinedClients

/-- **Every member of a room is sent the chats of the tick, once each and in the
order in which they were handled; nobody else is sent any.**  The sender's name
is that of the connection. -/
theorem broadcast_exactly_once {initialRooms : List String} (h : Reachable initialRooms w lives)
    {mid : Worker} (hgather : w.gatherMessages t = .ok mid) (hok : w.tick t = .ok w')
    (r : String) (c : ConnId) (hlive : t.expired c = false) :
    (∃ appended, w'.messagesOut c = w.messagesOut c ++ appended ∧
      appended.filter (isEchoFor r) =
        if mid.joined r c then (acceptedChats t.userName r lives t.batch).map fun m =>
          createChatEcho r (m.message.text "text") (t.userName m.client) m.now.toInt32
        else []) ∧
    ∀ room ∈ mid.rooms.activeRooms, room.joinedClients.Nodup := by
  have hmid : Tracks mid (lives.gather t) := h.tracks.gather hgather
  obtain ⟨mid', hgather', rfl⟩ := tick_ok_iff.mp hok
  obtain rfl : mid = mid' := Except.ok.inj (hgather.symm.trans hgather')
  obtain ⟨replies, hreplies, hanswers⟩ := gather_messagesOut h.tracks hgather c
  refine ⟨⟨replies ++ (notices mid t.clients c ++
    mid.rooms.roomNames.flatMap (echoes (lives.gather t) t.expired c)), ?_, ?_⟩, ?_⟩
  · rw [finishTick_messagesOut hmid t.clients_nodup, hreplies, List.append_assoc]
  · rw [List.filter_append, List.filter_append, filter_answers r hanswers, filter_notices,
      filter_finishTick hmid, List.nil_append, List.nil_append]
    -- the queue of the room holds the chats of this tick
    have hempty : pendingOf (lives r) = [] := by
      cases hlife : lives r with
      | none => rfl
      | some life => exact (reachable_quiet h hlife).pending
    have hpending := pendingOf_gather t.userName r t.batch lives
    rw [hempty, List.nil_append] at hpending
    have hroom := (hmid.named r).room
    cases hlife : lives.gather t r with
    | none =>
        rw [hlife] at hroom
        simp [echoes, Worker.joined, hlife, hroom]
    | some life =>
        rw [hlife] at hroom
        have hchats : life.pending = (acceptedChats t.userName r lives t.batch).map
            (Incoming.event t.userName) := by
          rw [← hpending]
          show _ = pendingOf (lives.gather t r)
          rw [hlife]
          rfl
        simp [echoes, Worker.joined, hlife, hroom, hlive, hchats, RoomLife.toRoom,
          Function.comp_def,
          echoOf, Incoming.event]
  · intro room hroom
    obtain ⟨life, -, heq⟩ := hmid.exists_life hroom
    rw [heq]
    exact life.members_nodup

theorem broadcast_joinAndChat : ∃ w', (Worker.start ["den"]).tick joinAndChat = .ok w' ∧
    ∃ appended, w'.messagesOut 0 = appended ∧
      appended.filter (isEchoFor "den") = [createChatEcho "den" "hi" "ann" 1] := by
  obtain ⟨w', hok⟩ := ((tracks_start ["den"]).completes_iff joinAndChat).mpr joinAndChat_passes
  obtain ⟨mid, hgather, -⟩ := tick_ok_iff.mp hok
  have hmid := (tracks_start ["den"]).gather hgather
  have hjoined : mid.joined "den" 0 = true := by
    rw [Worker.joined, (hmid.named "den").room]
    rfl
  obtain ⟨⟨appended, happended, hechoes⟩, -⟩ :=
    broadcast_exactly_once .start hgather hok "den" 0 rfl
  rw [hjoined, if_pos rfl] at hechoes
  exact ⟨w', hok, appended, happended, hechoes⟩

end Tavernmx.Server
