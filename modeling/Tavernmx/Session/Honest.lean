/-
# `Tavernmx.Session.Honest` — clients that only do what the program lets them

The server's worker ends with the first message whose fields it cannot read, and with it
everybody's chat.  Such a message has to come from somewhere: `FromClient` are the messages
that the client program makes, by its user interface (`ChatEntry`, `ChatWindow`) and its
worker.  `honest_never_faults` is that among clients like this nobody ends anybody's loop:
whatever was typed, picked and clicked, and however the messages met, no handler on
either side throws.

What it leaves is the list box, whose arrays are one place too short for every name: a
handler that lists rooms stays inside them exactly where each name has that place, which
is nowhere with the sizes that `update_rooms` asks for, unless there is no room.
-/
import Tavernmx.Client.ChatEntry
import Tavernmx.Client.RoomBuffers
import Tavernmx.Session.Joining
import Tavernmx.Session.NetworkRefines

namespace Tavernmx.Session

open Messaging Rooms Server Client

/-! ## What the program makes -/

inductive FromClient : Message → Prop where
  | roomList : FromClient createRoomListRequest
  | roomCreate (name : String) : FromClient (createRoomCreate name)
  | roomDestroy (name : String) : FromClient (createRoomDestroy name)
  | roomJoin (name : String) : FromClient (createRoomJoin name)
  | roomHistory (name : String) : FromClient (historyRequest name)
  | chatSend (name text : String) : FromClient (createChatSend name text)

theorem fromClient_requests {pushed : List Message}
    (h : pushed = [] ∨ ∃ name, pushed = joinRequests name) : ∀ m ∈ pushed, FromClient m := by
  rcases h with rfl | ⟨name, rfl⟩
  · exact fun _ hm => by cases hm
  · intro m hm
    rcases List.mem_cons.mp hm with rfl | hm
    · exact .roomJoin name
    · rw [List.mem_singleton.mp hm]
      exact .roomHistory name

/-- Whatever is typed. -/
theorem chatSubmit_ok (entry : ChatEntry) :
    ∃ entry' pushed, entry.chatSubmit = .ok (entry', pushed) ∧ ∀ m ∈ pushed, FromClient m := by
  cases hempty : entry.chatInput.isEmpty with
  | true =>
      refine ⟨entry, [], ?_, fun _ hm => by cases hm⟩
      simp only [ChatEntry.chatSubmit, hempty, if_true]
      rfl
  | false =>
      cases hcommand : entry.isCommand with
      | true =>
          obtain ⟨tokens, htokens, hruns⟩ := tokenizeString_spec entry.chatInput ' ' []
          rw [List.nil_append] at htokens
          obtain ⟨pushed, hok, -, hasks⟩ := ChatEntry.runCommand_spec entry.window.clientRooms
            (ChatEntry.tokens_ne_nil hcommand hruns)
          refine ⟨entry.clear, pushed, ?_, fun m hm => ?_⟩
          · simp [ChatEntry.chatSubmit, hempty, hcommand, htokens, hok, bind, Except.bind, pure,
              Except.pure]
          · cases (hasks m).mp hm with
            | create => exact .roomCreate _
            | destroy => exact .roomDestroy _
      | false =>
          refine ⟨entry.clear,
            ChatEntry.chatText entry.window.screen.currentRoomName entry.chatInput, ?_,
            fun m hm => ?_⟩
          · simp [ChatEntry.chatSubmit, hempty, hcommand, pure, Except.pure]
          · unfold ChatEntry.chatText at hm
            split at hm
            · rw [List.mem_singleton.mp hm]
              exact .chatSend _ _
            · cases hm

/-! ## The server reads it -/

theorem readable_historyRequest (name : String) :
    (historyRequest name).readable String "room_name" ∧
      (historyRequest name).readable Int32 "event_count" := by
  have hname : (historyRequest name).values.find? "room_name" = some (.string name) := by
    simp [historyRequest, Json.ofPairs]
  have hcount : messageValueOr Int32 (historyRequest name) "event_count" 0 = .ok 100 := by
    simp [historyRequest, Json.ofPairs, messageValueOr, Json.isPrimitive, Json.isNull, JsonGet.get,
      Json.getInt32, pure, Except.pure]
  exact ⟨readable_of_ok (messageValueOr_of_find? hname ""), readable_of_ok hcount⟩

theorem safeMessage_of_fromClient (lives : Lives) {m : Incoming} (h : FromClient m.message) :
    SafeMessage lives m := by
  obtain ⟨c, message, now⟩ := m
  cases h with
  | roomList => trivial
  | roomCreate name => exact readable_roomMessage .roomCreate name
  | roomDestroy name => exact readable_roomMessage .roomDestroy name
  | roomJoin name => exact readable_roomMessage .roomJoin name
  | roomHistory name =>
      obtain ⟨hname, hcount⟩ := readable_historyRequest name
      refine ⟨hname, hcount, fun hzero => ?_⟩
      cases (eventCount_historyRequest rfl).symm.trans hzero
  | chatSend name text =>
      obtain ⟨hname, htext⟩ := readable_chatSend name text
      exact ⟨hname, fun _ => htext⟩

/-! ## Runs -/

/-- A window sends only what its user typed into it. -/
def Typed (n : Network) : NetworkAction → Prop
  | .request c message => ∃ chatInput entry pushed,
      ChatEntry.chatSubmit ⟨n.chat c, chatInput⟩ = .ok (entry, pushed) ∧ message ∈ pushed
  | _ => True

/-- Everything that was pushed on the clients' side. -/
def Network.AsksAsProgram (n : Network) : Prop :=
  ∀ c, ∀ m ∈ ((n.channel c).link.endpoint .client).pushed, FromClient m

variable {codec : MsgPack} {userName : ConnId → String} {n n' : Network} {t : Tavern}
  {a : NetworkAction}

/-- One client's side changes. -/
theorem Network.AsksAsProgram.update (h : n.AsksAsProgram) {c : ConnId} {s : Channel}
    (hpushed : ∀ m ∈ (s.link.endpoint .client).pushed, FromClient m) (d : ConnId) :
    ∀ m ∈ ((Function.update n.channel c s d).link.endpoint .client).pushed, FromClient m := by
  by_cases hd : d = c
  · subst hd
    rw [Function.update_self]
    exact hpushed
  · rw [Function.update_of_ne hd]
    exact h d

theorem Network.AsksAsProgram.push (h : n.AsksAsProgram) (c : ConnId) (chat : ChatWindow)
    {pushed : List Message} (hpushed : ∀ m ∈ pushed, FromClient m) :
    (n.setWindow c chat pushed).AsksAsProgram := by
  refine fun d => h.update (fun m hm => ?_) d
  rw [endpoint_push_self] at hm
  rcases List.mem_append.mp hm with hm | hm
  · exact h c m hm
  · exact hpushed m hm

theorem Network.AsksAsProgram.take (h : n.AsksAsProgram) (c : ConnId) (side : Side)
    (message : Message) : (n.take c side message).AsksAsProgram :=
  fun d => h.update (s := (n.channel c).take side message) (h c) d

theorem asksAsProgram_step (ht : Abstracts codec userName n t) (h : n.AsksAsProgram)
    (htyped : Typed n a) (hstep : NetworkStep codec userName n a n') : n'.AsksAsProgram := by
  have hchat : t.chat = n.chat := congrArg Tavern.chat ht.same
  cases hstep with
  | connect _ _ _ => exact fun d => h.update (fun m hm => by cases hm) d
  | drop _ => exact h
  | expire _ _ _ _ => exact h
  | transport c _ hown hchannel =>
      refine fun d => h.update (fun m hm => ?_) d
      rcases (keeps_of_step hown hchannel).client with ⟨-, hpushed⟩ | ⟨-, -, hpushed⟩
      · rw [hpushed] at hm
        exact h c m hm
      · rw [hpushed, List.mem_singleton] at hm
        rw [hm]
        exact .roomList
  | request c message _ =>
      obtain ⟨chatInput, entry, pushed, hok, hmem⟩ := htyped
      obtain ⟨entry', pushed', hok', hall⟩ := chatSubmit_ok ⟨n.chat c, chatInput⟩
      obtain ⟨-, rfl⟩ := Prod.mk.inj (Except.ok.inj (hok.symm.trans hok'))
      refine h.push c _ fun m hm => ?_
      rw [List.mem_singleton.mp hm]
      exact hall message hmem
  | @handle c message rest chat pushed hqueue hok =>
      obtain ⟨-, later, hsent⟩ := ht.client_queue hqueue
      rw [← hchat] at hok
      exact (h.take c .client message).push c chat
        (fromClient_requests (ht.sound.heard hsent hok).2.requests)
  | pick c index _ hok =>
      rw [← hchat] at hok
      exact h.push c _ (fromClient_requests (ht.sound.joins hok).requests)
  | beginTick _ => exact h
  | @serve now clients waiting c message rest worker hstage hqueue hok =>
      intro d m hm
      change
        m ∈ (((Function.update n.channel c _ d).push .server _).link.endpoint .client).pushed at hm
      rw [endpoint_push_of_ne (by decide : Side.client ≠ .server)] at hm
      exact h.take c .server message d m hm
  | nextClient _ _ => exact h
  | finishTick _ =>
      intro d m hm
      change m ∈ (((n.channel d).push .server _).link.endpoint .client).pushed at hm
      rw [endpoint_push_of_ne (by decide : Side.client ≠ .server)] at hm
      exact h d m hm

theorem asksAsProgram_reachable (hcodec : codec.Lossless) {initialRooms : List String}
    (h : (network codec userName initialRooms).Reachable Typed n) :
    ∃ t, Abstracts codec userName n t ∧ n.AsksAsProgram := by
  refine h.invariant ?_ ?_
  · rintro n rfl
    exact ⟨_, abstracts_start initialRooms, fun _ m hm => by cases hm⟩
  · rintro n a n' - ⟨t, ht, hasks⟩ htyped hstep
    have hasks' := asksAsProgram_step ht hasks htyped hstep
    rcases abstracts_step hcodec ht hstep with ⟨ht', -⟩ | ⟨b, t', ht', -, -⟩
    · exact ⟨t, ht', hasks'⟩
    · exact ⟨t', ht', hasks'⟩

/-- What the worker pops was sent by the program. -/
theorem fromClient_of_queue (ht : Abstracts codec userName n t) (h : n.AsksAsProgram) {c : ConnId}
    {message : Message} {rest : List Message}
    (hqueue : (n.channel c).messagesIn .server = message :: rest) : FromClient message := by
  have hsound := ht.lanes.sound c
  have hconserved := hsound.conserved (hsound.toServer (hasBegun_of_messagesIn hsound hqueue))
  have hmem : message ∈ queued ((n.channel c).link.endpoint .client).pushed := by
    rw [← hconserved, Side.other, hqueue]
    simp
  exact h c message (List.mem_of_mem_filter hmem)

/-- **Nobody ends anybody's loop.**  As long as the windows send only what was typed into them,
the server's worker can handle whatever message is next, of whatever client and at
whatever time, and every window what it was sent, what is typed into it and what is picked.
With the arrays behind its list of rooms a window handles what it was sent exactly where
they have room for the names that the handler lists. -/
theorem honest_never_faults (hcodec : codec.Lossless) {initialRooms : List String}
    (h : (network codec userName initialRooms).Reachable Typed n) (c : ConnId) :
    (∀ message rest now, (n.channel c).messagesIn .server = message :: rest →
      ∃ worker, n.worker.handleMessage n.names ⟨c, message, now⟩ = .ok worker) ∧
    (∀ message rest, (n.channel c).messagesIn .client = message :: rest →
      ∃ chat pushed, (n.chat c).handleMessage message = .ok (chat, pushed) ∧
        ∀ usable display,
          (∃ shown, (n.chat c).handleMessageShown usable display message = .ok shown) ↔
            ((n.chat c).updatesRooms message = true →
              RoomDisplay.Fits usable (chat.clientRooms.roomNames.map nameBytes))) ∧
    (∀ index, ∃ chat pushed, (n.chat c).changeRoom index = .ok (chat, pushed)) ∧
    ∀ chatInput, ∃ entry pushed,
      ChatEntry.chatSubmit ⟨n.chat c, chatInput⟩ = .ok (entry, pushed) := by
  obtain ⟨t, ht, hasks⟩ := asksAsProgram_reachable hcodec h
  have hchat : t.chat = n.chat := congrArg Tavern.chat ht.same
  have hwindow : (n.chat c).WF := hchat ▸ ht.sound.windows c
  refine ⟨fun message rest now hqueue => ?_, fun message rest hqueue => ?_, fun index => ?_,
    fun chatInput => ?_⟩
  · have htracks : Tracks n.worker t.lives := by
      have htracks := ht.sound.tracks
      rw [ht.same] at htracks
      exact htracks.withMessages _
    exact (handle_guarded n.names htracks).mpr
      (safeMessage_of_fromClient t.lives (fromClient_of_queue ht hasks hqueue))
  · obtain ⟨-, later, hsent⟩ := ht.client_queue hqueue
    obtain ⟨chat, pushed, hok, hheard⟩ := handleMessage_heard hwindow
      (ht.sound.lanes c message (hsent ▸ List.mem_cons_self))
    exact ⟨chat, pushed, hok, fun usable display =>
      ChatWindow.handleMessageShown_ok_iff hok hheard.wf display⟩
  · obtain ⟨chat, pushed, hok, -⟩ := changeRoom_spec hwindow index
    exact ⟨chat, pushed, hok⟩
  · obtain ⟨entry, pushed, hok, -⟩ := chatSubmit_ok ⟨n.chat c, chatInput⟩
    exact ⟨entry, pushed, hok⟩

/-- ann's request for the rooms can be handled. -/
theorem honest_never_faults_ann : ∃ n,
    (network annsCodec (fun _ => "ann") ["inn"]).Reachable Typed n ∧
    (n.channel 0).messagesIn .server = [createRoomListRequest] ∧
    ∃ worker, n.worker.handleMessage n.names ⟨0, createRoomListRequest, 7⟩ = .ok worker := by
  have hfree : Free Typed := by
    intro n a ha
    cases a with
    | request c message => exact absurd rfl (ha c message)
    | _ => trivial
  have hreceived := ann_receive hfree (ann_inSession hfree) rfl sendable_roomList rfl
  have hreach : (network annsCodec (fun _ => "ann") ["inn"]).Reachable Typed _ := hreceived.forget
  obtain ⟨hserve, -⟩ := honest_never_faults annsCodec_lossless hreach 0
  exact ⟨_, hreach, rfl, hserve _ _ _ rfl⟩

end Tavernmx.Session
