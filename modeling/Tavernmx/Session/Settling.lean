/-
# `Tavernmx.Session.Settling` — the tavern comes to rest

The server answers its clients, and a window answers the server: a list of rooms or a
notice can make it join a room, which it asks for with two requests, and the second is
answered in turn.  So one request can have many consequences, with every client.  But
they end.  Each message has a cost,

    ROOM_CREATE, ROOM_DESTROY   a notice for every client
    CHAT_SEND                   an echo for every client
    ROOM_LIST                   a list
    ROOM_HISTORY                a history
    a list, a notice            a JOIN, a ROOM_HISTORY, and that history
    a history, an echo          nothing

and handling a message takes away more than its consequences cost.  As long as nobody
connects, types or picks anything (`Unattended`), `unanswered` bounds how many more
messages are handled (`answers_end`).

If the users only typed, no handler fails, and then such a run can always go on until
nothing is on its way.  And there every client knows the rooms of the server
(`conversation_settles`).
-/
import Tavernmx.Lib.Backlog
import Tavernmx.Server.Notifications
import Tavernmx.Session.Agreement
import Tavernmx.Session.Honest

namespace Tavernmx.Session

open Messaging Rooms Server Client Mailbox

/-! ## What a message costs -/

/-- A message to a window, with the requests that it can lead to and their answers. -/
def noticeCost (message : Message) : Nat :=
  match message.messageType with
  | .roomList | .roomCreate | .roomDestroy => 4
  | _ => 1

/-- What a request adds to the cost of what each client is sent when the tick ends. -/
def announced (message : Message) : Nat :=
  match message.messageType with
  | .roomCreate | .roomDestroy => 4
  | .chatSend => 1
  | _ => 0

/-- What its sender is answered at once. -/
def answered (message : Message) : Nat :=
  match message.messageType with
  | .roomList => 4
  | .roomHistory => 1
  | _ => 0

/-- A message to the server. -/
def requestCost (clients : Nat) (message : Message) : Nat :=
  1 + answered message + clients * announced message

/-- The events that wait for the end of the tick. -/
def waitingEvents (rooms : List ServerRoom) : Nat := (rooms.map (·.events.length)).sum

/-- What each client is sent when the tick ends, at most. -/
def due (w : Worker) : Nat :=
  4 * (w.newRooms.length + w.destroyedRooms.length) + waitingEvents w.rooms.activeRooms

/-- The cost of everything that is on its way, and of what the tick will send. -/
def Tavern.unanswered (s : Tavern) : Nat :=
  backlog (requestCost s.next) (Finset.range s.next) s.toServer +
    backlog noticeCost (Finset.range s.next) s.worker.messagesOut + s.next * due s.worker

/-! ### The window -/

/-- The requests cost one less than what they answer. -/
theorem cost_pushed {chat chat' : ChatWindow} {message : Message} {pushed : List Message}
    (hok : chat.handleMessage message = .ok (chat', pushed))
    (hrequests : pushed = [] ∨ ∃ name, pushed = joinRequests name) (clients : Nat) :
    cost (requestCost clients) pushed + 1 ≤ noticeCost message := by
  have hjoin : cost (requestCost clients) pushed ≤ 3 := by
    rcases hrequests with rfl | ⟨name, rfl⟩
    · exact Nat.zero_le _
    · exact Nat.le_of_eq (by simp [joinRequests, historyRequest, createRoomJoin, roomMessage,
        requestCost, answered, announced])
  cases ht : message.messageType with
  | roomList | roomCreate | roomDestroy =>
      simp only [noticeCost, ht]
      omega
  | roomHistory =>
      simp only [ChatWindow.handleMessage, ht] at hok
      obtain ⟨name, -, hok⟩ := Fallible.bind_ok.mp hok
      split at hok
      · obtain ⟨events, -, hok⟩ := Fallible.bind_ok.mp hok
        cases hok
        simp [noticeCost, ht]
      · cases hok
        simp [noticeCost, ht]
  | chatEcho =>
      simp only [ChatWindow.handleMessage, ht] at hok
      obtain ⟨name, -, hok⟩ := Fallible.bind_ok.mp hok
      obtain ⟨event, -, hok⟩ := Fallible.bind_ok.mp hok
      cases hok
      simp [noticeCost, ht]
  | roomJoin | chatSend | invalid | ack | nak | hello | heartbeat | unlisted c hc =>
      simp only [ChatWindow.handleMessage, ht] at hok
      cases hok
      simp [noticeCost, ht]
/-! ### The server -/

section Serving

variable {userName : ConnId → String} {w w' : Worker} {lives : Lives} {m : Incoming}

theorem waitingEvents_modify (m : RoomManager ServerRoom) (name : String)
    {f : ServerRoom → ServerRoom} {k : Nat}
    (hf : ∀ room, (f room).events.length ≤ room.events.length + k) :
    waitingEvents (m.modify name f).activeRooms ≤ waitingEvents m.activeRooms + k := by
  show waitingEvents (modifyFirst name f m.activeRooms) ≤ _
  induction m.activeRooms with
  | nil => exact Nat.zero_le _
  | cons room rooms ih =>
      rw [modifyFirst]
      split
      · have := hf room
        simp only [waitingEvents, List.map_cons, List.sum_cons]
        omega
      · simp only [waitingEvents, List.map_cons, List.sum_cons] at ih ⊢
        omega

/-- Only chat makes an event. -/
theorem waitingEvents_handled (hok : w.handleMessage userName m = .ok w') :
    waitingEvents w'.rooms.activeRooms ≤ waitingEvents w.rooms.activeRooms +
      if m.message.messageType = .chatSend then 1 else 0 := by
  cases ht : m.message.messageType with
  | roomCreate =>
      simp only [Worker.handleMessage, ht] at hok
      obtain ⟨name, -, hok⟩ := Fallible.bind_ok.mp hok
      split at hok
      · cases hok
        exact Nat.le_add_right _ _
      · cases hcreate : w.rooms.createRoom name with
        | none =>
            rw [hcreate] at hok
            cases hok
            exact Nat.le_add_right _ _
        | some rooms =>
            rw [hcreate] at hok
            cases hok
            refine (waitingEvents_modify rooms name (f := ServerRoom.emplaceClient m.client)
              (k := 0) fun room => Nat.le_refl _).trans ?_
            rw [(RoomManager.createRoom_eq_some hcreate).2.2, waitingEvents, List.map_append,
              List.sum_append]
            exact Nat.le_refl _
  | roomJoin =>
      simp only [Worker.handleMessage, ht] at hok
      obtain ⟨name, -, hok⟩ := Fallible.bind_ok.mp hok
      split at hok
      · cases hok
        refine waitingEvents_modify w.rooms name (k := 0) fun room => ?_
        unfold ServerRoom.join
        split <;> exact Nat.le_refl _
      · cases hok
        exact Nat.le_refl _
  | roomDestroy =>
      simp only [Worker.handleMessage, ht] at hok
      obtain ⟨name, -, hok⟩ := Fallible.bind_ok.mp hok
      split at hok
      · cases hok
        exact waitingEvents_modify w.rooms name (k := 0) fun room => Nat.le_refl _
      · cases hok
        exact Nat.le_refl _
  | roomHistory =>
      simp only [Worker.handleMessage, ht] at hok
      obtain ⟨name, -, hok⟩ := Fallible.bind_ok.mp hok
      obtain ⟨count, -, hok⟩ := Fallible.bind_ok.mp hok
      split at hok
      · split at hok
        · obtain ⟨reply, -, hok⟩ := Fallible.bind_ok.mp hok
          cases hok
          exact Nat.le_refl _
        · cases hok
          exact Nat.le_refl _
      · cases hok
        exact Nat.le_refl _
  | chatSend =>
      simp only [Worker.handleMessage, ht] at hok
      obtain ⟨name, -, hok⟩ := Fallible.bind_ok.mp hok
      split at hok
      · obtain ⟨text, -, hok⟩ := Fallible.bind_ok.mp hok
        cases hok
        refine waitingEvents_modify w.rooms name (k := 1) fun room => ?_
        exact Nat.le_of_eq List.length_append
      · cases hok
        exact Nat.le_add_right _ _
  | roomList | invalid | ack | nak | hello | heartbeat | chatEcho | unlisted c hc =>
      simp only [Worker.handleMessage, ht] at hok
      cases hok
      exact Nat.le_refl _

/-- What a request adds to what is due. -/
theorem due_handled (hwf : w.rooms.WF) (hok : w.handleMessage userName m = .ok w') :
    due w' ≤ due w + announced m.message := by
  have hevents := waitingEvents_handled hok
  cases handle_lists hwf hok with
  | creates htype _ hnew hdestroyed =>
      rw [htype, if_neg (by simp)] at hevents
      simp only [due, announced, htype, hnew, hdestroyed, List.length_append,
        List.length_singleton]
      omega
  | destroys htype _ hnew hdestroyed =>
      rw [htype, if_neg (by simp)] at hevents
      simp only [due, announced, htype, hnew, hdestroyed, List.length_append,
        List.length_singleton]
      omega
  | keeps _ hnew hdestroyed =>
      simp only [due, hnew, hdestroyed]
      split at hevents
      case isTrue htype =>
        simp only [announced, htype]
        omega
      case isFalse => omega

/-- What it is answered. -/
theorem cost_replies {replies : List Message} (h : Replies lives m replies) :
    cost noticeCost replies ≤ answered m.message := by
  unfold Replies at h
  cases ht : m.message.messageType with
  | roomList =>
      simp only [ht] at h
      obtain ⟨names, -, -, rfl⟩ := h
      simp [answered, ht, noticeCost, createRoomList]
  | roomHistory =>
      simp only [ht] at h
      subst h
      unfold historyReply
      split
      · split
        · simp [answered, ht, noticeCost, historyMessage]
        · exact Nat.zero_le _
      · exact Nat.zero_le _
  | roomCreate | roomJoin | roomDestroy | chatSend | invalid | ack | nak | hello | heartbeat
    | chatEcho | unlisted c hc =>
      simp only [ht] at h
      subst h
      exact Nat.zero_le _

end Serving
/-! ### The end of a tick -/

section Finishing

variable {w : Worker} {lives : Lives}

theorem noticeCost_le (message : Message) : noticeCost message ≤ 4 := by
  unfold noticeCost
  split <;> omega

theorem cost_notices (w : Worker) (clients : List ConnId) (c : ConnId) :
    cost noticeCost (notices w clients c) ≤ 4 * (w.newRooms.length + w.destroyedRooms.length) := by
  have hcost : cost noticeCost (notices w clients c) ≤ (notices w clients c).length * 4 :=
    cost_le_of_forall fun message _ => noticeCost_le message
  have hlength : (notices w clients c).length ≤ w.newRooms.length + w.destroyedRooms.length := by
    unfold notices
    split
    · simp only [List.length_append, List.length_map, Nat.le_refl]
    · exact Nat.zero_le _
  omega

theorem cost_echoes (h : Tracks w lives) (expired : ConnId → Bool) (c : ConnId) :
    cost noticeCost (w.rooms.roomNames.flatMap (echoes lives expired c))
      ≤ waitingEvents w.rooms.activeRooms := by
  rw [h.wf.names, List.flatMap_map]
  refine cost_flatMap_le fun room hroom => ?_
  obtain ⟨life, hlife, heq⟩ := h.exists_life hroom
  have hcost : ∀ message ∈ life.pending.map (echoOf room.roomName), noticeCost message ≤ 1 := by
    intro message hmessage
    obtain ⟨event, -, rfl⟩ := List.mem_map.mp hmessage
    exact Nat.le_refl _
  have hall := cost_le_of_forall hcost
  rw [List.length_map, Nat.mul_one] at hall
  show cost noticeCost (echoes lives expired c room.roomName) ≤ _
  rw [echoes, hlife]
  simp only
  split
  · rw [heq] at hall ⊢
    exact hall
  · exact Nat.zero_le _

/-- Nothing is due any more. -/
theorem due_finishTick (w : Worker) (clients : List ConnId) (expired : ConnId → Bool) :
    due (w.finishTick clients expired) = 0 := by
  have hrooms : (w.finishTick clients expired).rooms.activeRooms =
      (w.rooms.activeRooms.map (settleRoom expired)).filter
        fun room => !isDestroyRequested room := by
    show (RoomManager.removeDestroyedRooms _).activeRooms = _
    unfold RoomManager.removeDestroyedRooms
    simp only
    split <;> rfl
  have hempty : waitingEvents (w.finishTick clients expired).rooms.activeRooms = 0 := by
    rw [waitingEvents, hrooms]
    refine List.sum_eq_zero fun k hk => ?_
    obtain ⟨room, hroom, rfl⟩ := List.mem_map.mp hk
    obtain ⟨before, -, rfl⟩ := List.mem_map.mp (List.mem_of_mem_filter hroom)
    rfl
  rw [due, hempty]
  rfl

end Finishing

/-! ## Nobody does anything -/

/-- Nobody connects, types or picks. -/
def Unattended (_ : Tavern) : Action → Prop
  | .connect _ | .request _ _ | .pick _ _ => False
  | _ => True

/-- A message is handled, on either side. -/
def Action.handles : Action → Bool
  | .serve _ | .handle _ => true
  | _ => false

variable {userName : ConnId → String} {s s' : Tavern} {a : Action}

/-- **Each message that is handled takes away more than comes of it.** -/
theorem unanswered_step (hsound : s.Sound) (hstrangers : s.Strangers) (hunattended : Unattended s a)
    (hstep : TavernStep userName s a s') :
    s'.unanswered + (if a.handles then 1 else 0) ≤ s.unanswered := by
  cases hstep with
  | connect _ _ _ | request _ _ | pick _ _ _ => exact hunattended.elim
  | drop _ | expire _ _ _ _ | beginTick _ | nextClient _ => exact Nat.le_refl _
  | @handle c message rest chat pushed hsent hok =>
      have hknown : c ∈ Finset.range s.next := by
        refine Finset.mem_range.mpr (Nat.lt_of_not_le fun hc => ?_)
        have hnothing := (List.append_eq_nil_iff.mp (hstrangers c hc).1).2
        cases hsent.symm.trans hnothing
      have hpushed := cost_pushed hok (hsound.heard hsent hok).2.requests s.next
      have hqueue : backlog noticeCost (Finset.range s.next)
          (Function.update s.worker.messagesOut c rest) + noticeCost message =
          backlog noticeCost (Finset.range s.next) s.worker.messagesOut := backlog_pop hknown hsent
      have hrequests : backlog (requestCost s.next) (Finset.range s.next)
          (push s.toServer c pushed) =
          backlog (requestCost s.next) (Finset.range s.next) s.toServer +
            cost (requestCost s.next) pushed := backlog_push hknown pushed
      simp only [Tavern.unanswered, hrequests, Action.handles, if_true]
      show _ + backlog noticeCost _ (Function.update s.worker.messagesOut c rest) +
        s.next * due s.worker + 1 ≤ _
      omega
  | @serve now clients waiting c message rest worker hstage hsent hok =>
      have hknown : c ∈ Finset.range s.next := Finset.mem_range.mpr (hsound.known hstage)
      obtain ⟨-, replies, hreplies, hout⟩ := handled_of_ok hsound.tracks hok
      have hqueue : backlog (requestCost s.next) (Finset.range s.next)
          (Function.update s.toServer c rest) + requestCost s.next message =
          backlog (requestCost s.next) (Finset.range s.next) s.toServer := backlog_pop hknown hsent
      have hanswers : backlog noticeCost (Finset.range s.next) worker.messagesOut =
          backlog noticeCost (Finset.range s.next) s.worker.messagesOut +
            cost noticeCost replies := by
        rw [hout]
        exact backlog_push hknown replies
      have hcost : cost noticeCost replies ≤ answered message := cost_replies hreplies
      have hdue : due worker ≤ due s.worker + announced message :=
        due_handled hsound.tracks.wf hok
      have hdue := Nat.mul_le_mul_left s.next hdue
      rw [Nat.mul_add] at hdue
      simp only [Tavern.unanswered, hanswers, Action.handles, if_true]
      rw [requestCost] at hqueue
      omega
  | @finishTick clients hstage =>
      have hclients : clients.Nodup := hsound.snapshot hstage
      have hsent : backlog noticeCost (Finset.range s.next)
          (s.worker.finishTick clients s.expired).messagesOut ≤
          backlog noticeCost (Finset.range s.next) s.worker.messagesOut +
            (Finset.range s.next).card * due s.worker := by
        refine backlog_le_of_append
          (fun c _ => finishTick_messagesOut hsound.tracks hclients s.expired c) fun c _ => ?_
        rw [Mailbox.cost_append]
        exact Nat.add_le_add (cost_notices s.worker clients c)
          (cost_echoes hsound.tracks s.expired c)
      rw [Finset.card_range] at hsent
      simp only [Tavern.unanswered, due_finishTick, Action.handles, Bool.false_eq_true, if_false]
      omega
variable {initialRooms : List String} {allowed : Tavern → Action → Prop}

theorem strangers_reachable (h : (tavern userName initialRooms).Reachable allowed s) :
    s.Strangers := by
  refine h.invariant ?_ ?_
  · rintro s rfl
    exact strangers_start initialRooms
  · intro s a s' hreach ih _ hstep
    exact strangers_step (sound_reachable hreach) ih hstep

/-- **The answers come to an end.**  From any state on, as long as nobody connects, types or
picks anything, at most so many messages are handled as `unanswered` has fallen. -/
theorem answers_end (h : (tavern userName initialRooms).Reachable LabelledSystem.anyStep s)
    {as : List Action} (hpath : (tavern userName initialRooms).Path Unattended s as s') :
    s'.unanswered + as.countP Action.handles ≤ s.unanswered := by
  have hstep : ∀ s a s', s.Sound ∧ s.Strangers → Unattended s a → TavernStep userName s a s' →
      (s'.Sound ∧ s'.Strangers) ∧
        s'.unanswered + (if a.handles then 1 else 0) ≤ s.unanswered := by
    rintro s a s' ⟨hsound, hstrangers⟩ hunattended hstep
    exact ⟨⟨sound_step hsound hstep, strangers_step hsound hstrangers hstep⟩,
      unanswered_step hsound hstrangers hunattended hstep⟩
  exact (hpath.countP_le hstep ⟨sound_reachable h, strangers_reachable h⟩).2

instance (s : Tavern) : ∀ a, Decidable (Unattended s a)
  | .connect _ | .request _ _ | .pick _ _ => inferInstanceAs (Decidable False)
  | .drop _ | .expire _ | .handle _ | .beginTick | .serve _ | .nextClient | .finishTick =>
    inferInstanceAs (Decidable True)

/-- A client asks for the rooms, and joins the first one. -/
def joiningTheInn : List Action :=
  [.beginTick, .serve 0, .nextClient, .finishTick, .handle 0,
    .beginTick, .serve 1, .serve 2, .nextClient, .finishTick, .handle 0]

/-- Its first request has the most consequences that it can have: the bound is attained. -/
theorem answers_end_inn : ∃ s s' : Tavern,
    (tavern (fun _ => "ann") ["inn"]).Reachable LabelledSystem.anyStep s ∧
    (tavern (fun _ => "ann") ["inn"]).Path Unattended s joiningTheInn s' ∧
    joiningTheInn.countP Action.handles = s.unanswered ∧ s'.unanswered = 0 := by
  obtain ⟨s, hs, htest⟩ := exists_of_run LabelledSystem.anyStep (fun _ => "ann") ["inn"]
    [.connect .new] (fun s => s.unanswered = 5 ∧
      (LabelledSystem.execute Unattended (exec fun _ => "ann") joiningTheInn s).isSome = true)
    (by decide +kernel)
  obtain ⟨hcost, hruns⟩ := of_decide_eq_true htest
  obtain ⟨s', hs'⟩ := Option.isSome_iff_exists.mp hruns
  have hpath : (tavern (fun _ => "ann") ["inn"]).Path Unattended s joiningTheInn s' :=
    .of_execute (fun _ _ _ => step_of_exec) hs'
  have hhandled : joiningTheInn.countP Action.handles = s.unanswered := hcost.symm
  have hend := answers_end hs hpath
  rw [hhandled] at hend
  exact ⟨s, s', hs, hpath, hhandled, by omega⟩

/-! ## It comes to rest -/

/-- The worker is between two ticks, and nothing waits on either side. -/
structure Tavern.Settled (s : Tavern) : Prop where
  idle : s.stage = .idle
  windows : ∀ c, s.worker.messagesOut c = []
  server : ∀ c ∈ s.active, s.toServer c = []

/-- A window sends only what its user typed into it. -/
def TypedInto (s : Tavern) : Action → Prop
  | .request c message => ∃ chatInput entry pushed,
      ChatEntry.chatSubmit ⟨s.chat c, chatInput⟩ = .ok (entry, pushed) ∧ message ∈ pushed
  | _ => True

/-- What holds if the users only typed. -/
structure Tavern.Honest (s : Tavern) : Prop where
  sound : s.Sound
  strangers : s.Strangers
  asked : ∀ c, ∀ message ∈ s.toServer c, FromClient message

/-- Requests are added to one queue. -/
theorem asked_push {toServer : ConnId → List Message}
    (h : ∀ c, ∀ message ∈ toServer c, FromClient message) (d : ConnId) {pushed : List Message}
    (hpushed : ∀ message ∈ pushed, FromClient message) (c : ConnId) :
    ∀ message ∈ push toServer d pushed c, FromClient message := by
  intro message hmessage
  rw [push_apply] at hmessage
  rcases List.mem_append.mp hmessage with hmessage | hmessage
  · exact h c message hmessage
  · split at hmessage
    · exact hpushed message hmessage
    · cases hmessage

theorem honest_step (h : s.Honest) (htyped : TypedInto s a) (hstep : TavernStep userName s a s') :
    s'.Honest := by
  refine ⟨sound_step h.sound hstep, strangers_step h.sound h.strangers hstep, ?_⟩
  have hasked := h.asked
  cases hstep with
  | connect clientRooms _ _ =>
      intro c message (hmessage : message ∈ Function.update s.toServer s.next _ c)
      by_cases hc : c = s.next
      · rw [hc, Function.update_self] at hmessage
        rw [List.mem_singleton.mp hmessage]
        exact .roomList
      · rw [Function.update_of_ne hc] at hmessage
        exact hasked c message hmessage
  | drop _ | expire _ _ _ _ | beginTick _ | nextClient _ | finishTick _ => exact hasked
  | request c message =>
      obtain ⟨chatInput, entry, pushed, hok, hmem⟩ := htyped
      obtain ⟨entry', pushed', hok', hall⟩ := chatSubmit_ok ⟨s.chat c, chatInput⟩
      obtain ⟨-, rfl⟩ := Prod.mk.inj (Except.ok.inj (hok.symm.trans hok'))
      refine asked_push hasked c fun message' hmessage' => ?_
      rw [List.mem_singleton.mp hmessage']
      exact hall message hmem
  | handle c hsent hok =>
      exact asked_push hasked c (fromClient_requests (h.sound.heard hsent hok).2.requests)
  | pick c index hok =>
      exact asked_push hasked c (fromClient_requests (h.sound.joins hok).requests)
  | @serve now clients waiting c message rest worker hstage hsent hok =>
      intro d message' (hmessage' : message' ∈ Function.update s.toServer c rest d)
      exact hasked d message' (mem_of_mem_pop hsent hmessage')

theorem honest_reachable (h : (tavern userName initialRooms).Reachable TypedInto s) :
    s.Honest := by
  refine h.invariant ?_ ?_
  · rintro s rfl
    exact ⟨sound_start initialRooms, strangers_start initialRooms, fun _ _ hm => by cases hm⟩
  · intro s a s' _ ih htyped hstep
    exact honest_step ih htyped hstep

theorem typedInto_of_unattended (h : Unattended s a) : TypedInto s a := by
  cases a with
  | request c message => exact h.elim
  | _ => trivial
/-- A run that nobody disturbs. -/
theorem honest_path (h : s.Honest) {as : List Action}
    (hpath : (tavern userName initialRooms).Path Unattended s as s') :
    s'.Honest ∧ s'.unanswered + as.countP Action.handles ≤ s.unanswered := by
  refine hpath.countP_le (fun s a s' h hunattended hstep => ?_) h
  exact ⟨honest_step h (typedInto_of_unattended hunattended) hstep,
    unanswered_step h.sound h.strangers hunattended hstep⟩

/-- The worker can be served by whom it comes to. -/
theorem exists_served (h : s.Honest) {clients waiting : List ConnId} {c : ConnId}
    (hstage : s.stage = .gathering clients (c :: waiting)) (hsent : s.toServer c ≠ []) :
    ∃ s', TavernStep userName s (.serve 0) s' ∧ s'.stage = s.stage := by
  obtain ⟨message, rest, hqueue⟩ := List.exists_cons_of_ne_nil hsent
  have hmessage : FromClient message := h.asked c message (hqueue ▸ List.mem_cons_self)
  obtain ⟨worker, hok⟩ := (handle_guarded userName h.sound.tracks (x := ⟨c, message, 0⟩)).mpr
    (safeMessage_of_fromClient s.lives hmessage)
  exact ⟨_, .serve 0 hstage hqueue hok, rfl⟩

/-- It comes to everybody who waits. -/
theorem exists_serving (h : s.Honest) {clients : List ConnId} {c : ConnId} :
    ∀ {waiting : List ConnId}, s.stage = .gathering clients waiting → c ∈ waiting →
      s.toServer c ≠ [] → ∃ as s', (tavern userName initialRooms).Path Unattended s as s' ∧
        0 < as.countP Action.handles := by
  intro waiting hstage hmem hsent
  induction waiting generalizing s with
  | nil => cases hmem
  | cons d waiting ih =>
      by_cases hd : s.toServer d = []
      · have hmem' : c ∈ waiting := by
          refine (List.mem_cons.mp hmem).resolve_left fun hc => ?_
          exact hsent (hc ▸ hd)
        have hstep : TavernStep userName s .nextClient _ := .nextClient hstage
        have hnext := honest_step (a := Action.nextClient) h trivial hstep
        obtain ⟨as, s', hpath, hcount⟩ := ih hnext rfl hmem' hsent
        exact ⟨_, s', .cons (l := Action.nextClient) trivial hstep hpath, hcount⟩
      · obtain ⟨s', hstep, -⟩ := exists_served h hstage hd
        exact ⟨_, s', .cons (l := Action.serve 0) trivial hstep (.nil s'), Nat.one_pos⟩

/-- It comes to the end of its tick. -/
theorem exists_idle (userName : ConnId → String) (initialRooms : List String) (s : Tavern) :
    ∃ as s', (tavern userName initialRooms).Path Unattended s as s' ∧ s'.stage = .idle := by
  cases hstage : s.stage with
  | idle => exact ⟨[], s, .nil s, hstage⟩
  | gathering clients waiting =>
      induction waiting generalizing s with
      | nil =>
          have hstep : TavernStep userName s .finishTick _ := .finishTick hstage
          exact ⟨_, _, .cons (l := Action.finishTick) trivial hstep (.nil _), rfl⟩
      | cons c waiting ih =>
          have hstep : TavernStep userName s .nextClient _ := .nextClient hstage
          obtain ⟨as, s', hpath, hidle⟩ := ih { s with stage := .gathering clients waiting } rfl
          exact ⟨_, s', .cons (l := Action.nextClient) trivial hstep hpath, hidle⟩

/-- As long as something waits, something can be handled. -/
theorem exists_handled (h : s.Honest) (hidle : s.stage = .idle) : s.Settled ∨
    ∃ as s', (tavern userName initialRooms).Path Unattended s as s' ∧
      0 < as.countP Action.handles := by
  by_cases hwindows : ∀ c, s.worker.messagesOut c = []
  · by_cases hserver : ∀ c ∈ s.active, s.toServer c = []
    · exact .inl ⟨hidle, hwindows, hserver⟩
    · obtain ⟨c, hactive, hsent⟩ := not_forall₂.mp hserver
      have hstep : TavernStep userName s .beginTick _ := .beginTick hidle
      have hnext := honest_step (a := Action.beginTick) h trivial hstep
      obtain ⟨as, s', hpath, hcount⟩ := exists_serving hnext rfl hactive hsent
      exact .inr ⟨_, s', .cons (l := Action.beginTick) trivial hstep hpath, hcount⟩
  · obtain ⟨c, hsent⟩ := not_forall.mp hwindows
    obtain ⟨message, rest, hqueue⟩ := List.exists_cons_of_ne_nil hsent
    have hmessage : FromServer message := h.sound.lanes c message (hqueue ▸ List.mem_cons_self)
    obtain ⟨chat, pushed, hok, -⟩ := handleMessage_heard (h.sound.windows c) hmessage
    have hstep : TavernStep userName s (.handle c) _ := .handle c hqueue hok
    exact .inr ⟨_, _, .cons (l := Action.handle c) trivial hstep (.nil _), Nat.one_pos⟩

theorem exists_settled (h : s.Honest) : ∃ as s',
    (tavern userName initialRooms).Path Unattended s as s' ∧ s'.Settled := by
  obtain ⟨as, mid, hpath, hidle⟩ := exists_idle userName initialRooms s
  have hprogress : ∀ s, s.Honest ∧ s.stage = .idle → s.Settled ∨
      ∃ as s', (tavern userName initialRooms).Path Unattended s as s' ∧
        (s'.Honest ∧ s'.stage = .idle) ∧ s'.unanswered < s.unanswered := by
    rintro s ⟨hs, hidle⟩
    rcases exists_handled hs hidle with
      hsettled | ⟨as, mid, hpath, hcount⟩
    · exact .inl hsettled
    · obtain ⟨hmid, hfalls⟩ := honest_path hs hpath
      obtain ⟨as', s', hpath', hidle'⟩ := exists_idle userName initialRooms mid
      obtain ⟨hs', hstays⟩ := honest_path hmid hpath'
      exact .inr ⟨_, s', hpath.append hpath', ⟨hs', hidle'⟩, by omega⟩
  obtain ⟨as', s', hpath', -, hsettled⟩ :=
    LabelledSystem.Path.exists_of_rank hprogress ⟨(honest_path h hpath).1, hidle⟩
  exact ⟨_, s', hpath.append hpath', hsettled⟩
/-! ## And everybody agrees -/

/-- What a client was sent stays sent. -/
theorem sent_grows (hsound : s.Sound) (hstep : TavernStep userName s a s') (c : ConnId) :
    ∀ message ∈ s.sent c, message ∈ s'.sent c := by
  intro message hmessage
  cases hstep with
  | connect _ _ _ | drop _ | expire _ _ _ _ | request _ _ | pick _ _ _ | beginTick _
    | nextClient _ => exact hmessage
  | @handle d handled rest chat pushed hsent hok =>
      show message ∈ push s.handled d [handled] c ++ Function.update s.worker.messagesOut d rest c
      rw [push_append_pop hsent s.handled c]
      exact hmessage
  | serve now hstage hsent hok =>
      obtain ⟨-, replies, -, hout⟩ := handled_of_ok hsound.tracks hok
      show message ∈ s.handled c ++ _
      rw [hout, push_apply, ← List.append_assoc]
      exact List.mem_append_left _ hmessage
  | @finishTick clients hstage =>
      have hclients : clients.Nodup := hsound.snapshot hstage
      show message ∈ s.handled c ++ _
      rw [finishTick_messagesOut hsound.tracks hclients, ← List.append_assoc]
      exact List.mem_append_left _ hmessage

/-- Every client has asked for the rooms, and is answered when that is handled. -/
def Tavern.Asked (s : Tavern) : Prop :=
  ∀ c < s.next, createRoomListRequest ∈ s.toServer c ∨ s.Answered c

theorem asked_step (hsound : s.Sound) (h : s.Asked) (hstep : TavernStep userName s a s') :
    s'.Asked := by
  have hanswered : ∀ c, s.Answered c → s'.Answered c := fun c ⟨message, hmem, ht⟩ =>
    ⟨message, sent_grows hsound hstep c message hmem, ht⟩
  have hpush : ∀ c d pushed, createRoomListRequest ∈ s.toServer c →
      createRoomListRequest ∈ push s.toServer d pushed c := fun c d pushed hmem => by
    rw [push_apply]
    exact List.mem_append_left _ hmem
  cases hstep with
  | connect _ _ _ =>
      intro c hc
      by_cases hnew : c = s.next
      · refine .inl ?_
        show createRoomListRequest ∈ Function.update s.toServer s.next _ c
        rw [hnew, Function.update_self]
        exact List.mem_singleton_self _
      · rcases h c (Nat.lt_of_le_of_ne (Nat.le_of_lt_succ hc) hnew) with hmem | hdone
        · refine .inl ?_
          show createRoomListRequest ∈ Function.update s.toServer s.next _ c
          rw [Function.update_of_ne hnew]
          exact hmem
        · exact .inr (hanswered c hdone)
  | drop _ | expire _ _ _ _ | beginTick _ | nextClient _ | finishTick _ =>
      exact fun c hc => (h c hc).imp_right (hanswered c)
  | request d message => exact fun c hc => (h c hc).imp (hpush c d _) (hanswered c)
  | handle d hsent hok => exact fun c hc => (h c hc).imp (hpush c d _) (hanswered c)
  | pick d index hok => exact fun c hc => (h c hc).imp (hpush c d _) (hanswered c)
  | @serve now clients waiting d message rest worker hstage hsent hok =>
      intro c hc
      rcases h c hc with hmem | hdone
      · by_cases hcd : c = d
        · subst hcd
          rw [hsent] at hmem
          rcases List.mem_cons.mp hmem with rfl | hmem
          · -- this is the request
            obtain ⟨-, replies, ⟨names, -, -, rfl⟩, hout⟩ := handled_of_ok hsound.tracks hok
            refine .inr ⟨createRoomList names, ?_, rfl⟩
            show _ ∈ s.handled c ++ worker.messagesOut c
            rw [hout, push_self]
            simp
          · refine .inl ?_
            show createRoomListRequest ∈ Function.update s.toServer c rest c
            rw [Function.update_self]
            exact hmem
        · refine .inl ?_
          show createRoomListRequest ∈ Function.update s.toServer d rest c
          rw [Function.update_of_ne hcd]
          exact hmem
      · exact .inr (hanswered c hdone)

theorem asked_reachable (h : (tavern userName initialRooms).Reachable allowed s) : s.Asked := by
  refine h.invariant ?_ ?_
  · rintro s rfl c hc
    cases hc
  · intro s a s' hreach ih _ hstep
    exact asked_step (sound_reachable hreach) ih hstep

theorem settled_agree (h : (tavern userName initialRooms).Reachable LabelledSystem.anyStep s)
    (hsettled : s.Settled) {c : ConnId} (hactive : c ∈ s.active) (r : String) :
    r ∈ (s.chat c).clientRooms.roomNames ↔ r ∈ s.worker.rooms.roomNames := by
  have hsound := sound_reachable h
  have hanswered : s.Answered c := by
    refine (asked_reachable h c (hsound.numbered c (.inl hactive))).resolve_left fun hmem => ?_
    rw [hsettled.server c hactive] at hmem
    cases hmem
  obtain ⟨t, ⟨shown, -, rfl⟩, hreach⟩ :=
    seat_of_reachable c r LabelledSystem.anyStep (fun _ _ _ _ _ _ _ _ => trivial) h
  have hview := view_of_idle hreach (by show s.stage.ticking = false; rw [hsettled.idle]; rfl)
    (decide_eq_true hactive) (answered_seat hanswered)
  have hknows : (s.chat c).knows r = (s.lives r).isSome := by
    have hinbox : noticesOf r (s.worker.messagesOut c) = [] := by
      rw [hsettled.windows c]
      rfl
    refine Eq.trans ?_ hview
    show _ = (noticesOf r (s.worker.messagesOut c)).foldl Notice.knows _
    rw [hinbox]
    rfl
  rw [(hsound.windows c).rooms.mem_roomNames_iff, hsound.tracks.mem_roomNames_iff, ← hknows]
  exact Iff.rfl

/-- **The tavern comes to rest, and everybody agrees.**  After any run in which the users only
typed, picked and connected, a run that nobody disturbs can end with nothing on its way; and
whenever one does, all connected clients have exactly the rooms of the server. -/
theorem conversation_settles (h : (tavern userName initialRooms).Reachable TypedInto s) :
    (∃ as s', (tavern userName initialRooms).Path Unattended s as s' ∧ s'.Settled) ∧
    ∀ as s', (tavern userName initialRooms).Path Unattended s as s' → s'.Settled →
      ∀ c ∈ s'.active, ∀ r,
        r ∈ (s'.chat c).clientRooms.roomNames ↔ r ∈ s'.worker.rooms.roomNames := by
  refine ⟨exists_settled (honest_reachable h), fun as s' hpath hsettled c hactive r => ?_⟩
  have hreach := h.path (hpath.mono fun _ _ => typedInto_of_unattended)
  exact settled_agree (hreach.mono fun _ _ _ => trivial) hsettled hactive r

/-- ann and bob connect. -/
theorem conversation_settles_two : ∃ s : Tavern, s.active = [0, 1] ∧
    s.toServer 1 = [createRoomListRequest] ∧
    ∃ as s', (tavern annAndBob ["inn"]).Path Unattended s as s' ∧ s'.Settled := by
  have hnew : ∀ r room, (RoomManager.new : RoomManager ClientRoom).find? r = some room →
      isDestroyRequested room = false := fun _ _ h => by cases h
  have hann : (tavern annAndBob ["inn"]).Reachable TypedInto _ :=
    .step (.connect .new) (.init rfl) trivial (.connect .new RoomManager.wf_new hnew)
  have hbob := hann.step (Action.connect .new) trivial (.connect .new RoomManager.wf_new hnew)
  exact ⟨_, rfl, rfl, (conversation_settles hbob).1⟩

end Tavernmx.Session
