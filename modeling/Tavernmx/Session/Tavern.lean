/-
# `Tavernmx.Session.Tavern` — the server worker and all the chat windows

The state of everything that takes part in a session: the server's worker, with
the tick it is in, and for every client its chat window and what it sent that the
worker has not popped yet.  Between the two ends messages are neither lost nor
reordered (`Session.Delivery`), so a client's `messages_out` on the server stands
for the whole way from there to the window, and `toServer` for the whole way back.

A tick is not one step: step 1 pops message after message, and meanwhile clients
connect, leave, send and handle what they were sent.  `nextClient` is possible
while a client still has messages on their way.

`lives` and `handled` are records; no step looks at them.

`seat_of_reachable` is the simulation: whatever the system does, client `c` and
room `r` go through a run of `Session.Seat`.
-/
import Tavernmx.Server.Broadcast
import Tavernmx.Session.ClientView
import Tavernmx.Session.Seat

namespace Tavernmx.Session

open Messaging Rooms Server Client

/-! ## States and steps -/

/-- Where the worker is in its loop. -/
inductive Stage where
  | idle
  /-- In step 1, with the snapshot of the tick and the clients still to come. -/
  | gathering (clients waiting : List ConnId)
  deriving DecidableEq, Repr

namespace Stage

def clients : Stage → List ConnId
  | idle => []
  | gathering clients _ => clients

def waiting : Stage → List ConnId
  | idle => []
  | gathering _ waiting => waiting

def ticking : Stage → Bool
  | idle => false
  | gathering _ _ => true

@[simp] theorem clients_idle : idle.clients = [] := rfl

@[simp] theorem ticking_idle : idle.ticking = false := rfl

end Stage

structure Tavern where
  worker : Worker
  /-- The lives of the rooms so far. -/
  lives : Lives
  stage : Stage
  /-- What `get_active_connections()` returns. -/
  active : List ConnId
  expired : ConnId → Bool
  /-- The identity of the next connection. -/
  next : ConnId
  chat : ConnId → ChatWindow
  toServer : ConnId → List Message
  /-- What each window has handled. -/
  handled : ConnId → List Message

namespace Tavern

def start (initialRooms : List String) : Tavern where
  worker := .start initialRooms
  lives := .start initialRooms
  stage := .idle
  active := []
  expired _ := false
  next := 0
  chat _ := ⟨.new, .new⟩
  toServer _ := []
  handled _ := []

/-- Everything that was put into the client's `messages_out`. -/
def sent (s : Tavern) (c : ConnId) : List Message := s.handled c ++ s.worker.messagesOut c

/-- The message that step 1 pops next, and whose it is. -/
def served (s : Tavern) : Option (ConnId × Message) :=
  match s.stage with
  | .gathering _ (c :: _) => (s.toServer c).head?.map fun message => (c, message)
  | .gathering _ [] | .idle => none

end Tavern

inductive Action where
  /-- A connection is accepted; `clientRooms` is what the client's last session left. -/
  | connect (clientRooms : RoomManager ClientRoom)
  | drop (c : ConnId)
  /-- The last pointer to a connection is gone. -/
  | expire (c : ConnId)
  | request (c : ConnId) (message : Message)
  | handle (c : ConnId)
  | pick (c : ConnId) (index : Nat)
  | beginTick
  | serve (now : Int64)
  | nextClient
  | finishTick

inductive TavernStep (userName : ConnId → String) : Tavern → Action → Tavern → Prop where
  | connect {s : Tavern} (clientRooms : RoomManager ClientRoom) (hrooms : clientRooms.WF)
      (hunmarked : ∀ r room, clientRooms.find? r = some room → isDestroyRequested room = false) :
      TavernStep userName s (.connect clientRooms) { s with
        active := s.active ++ [s.next]
        next := s.next + 1
        chat := Function.update s.chat s.next ⟨clientRooms, .new⟩
        toServer := Function.update s.toServer s.next [createRoomListRequest] }
  | drop {s : Tavern} (c : ConnId) :
      TavernStep userName s (.drop c) { s with active := s.active.erase c }
  | expire {s : Tavern} (c : ConnId) (hknown : c < s.next) (hactive : c ∉ s.active)
      (hclients : c ∉ s.stage.clients) :
      TavernStep userName s (.expire c) { s with expired := Function.update s.expired c true }
  | request {s : Tavern} (c : ConnId) (message : Message) :
      TavernStep userName s (.request c message)
        { s with toServer := Mailbox.push s.toServer c [message] }
  | handle {s : Tavern} (c : ConnId) {message : Message} {rest : List Message} {chat : ChatWindow}
      {pushed : List Message} (hsent : s.worker.messagesOut c = message :: rest)
      (hok : (s.chat c).handleMessage message = .ok (chat, pushed)) :
      TavernStep userName s (.handle c) { s with
        worker := { s.worker with messagesOut := Function.update s.worker.messagesOut c rest }
        chat := Function.update s.chat c chat
        toServer := Mailbox.push s.toServer c pushed
        handled := Mailbox.push s.handled c [message] }
  | pick {s : Tavern} (c : ConnId) (index : Nat) {chat : ChatWindow} {pushed : List Message}
      (hok : (s.chat c).changeRoom index = .ok (chat, pushed)) :
      TavernStep userName s (.pick c index) { s with
        chat := Function.update s.chat c chat
        toServer := Mailbox.push s.toServer c pushed }
  | beginTick {s : Tavern} (hidle : s.stage = .idle) :
      TavernStep userName s .beginTick { s with stage := .gathering s.active s.active }
  | serve {s : Tavern} (now : Int64) {clients waiting : List ConnId} {c : ConnId}
      {message : Message}
      {rest : List Message} {worker : Worker} (hstage : s.stage = .gathering clients (c :: waiting))
      (hsent : s.toServer c = message :: rest)
      (hok : s.worker.handleMessage userName ⟨c, message, now⟩ = .ok worker) :
      TavernStep userName s (.serve now) { s with
        worker
        lives := s.lives.receive userName ⟨c, message, now⟩
        toServer := Function.update s.toServer c rest }
  | nextClient {s : Tavern} {clients waiting : List ConnId} {c : ConnId}
      (hstage : s.stage = .gathering clients (c :: waiting)) :
      TavernStep userName s .nextClient { s with stage := .gathering clients waiting }
  | finishTick {s : Tavern} {clients : List ConnId} (hstage : s.stage = .gathering clients []) :
      TavernStep userName s .finishTick { s with
        worker := s.worker.finishTick clients s.expired
        lives := s.lives.endTick s.expired
        stage := .idle }

def tavern (userName : ConnId → String) (initialRooms : List String) :
    LabelledSystem Tavern Action where
  init s := s = Tavern.start initialRooms
  step := TavernStep userName

/-! ## What the server sends -/

variable {userName : ConnId → String} {w : Worker} {lives : Lives} {m : Incoming}

theorem isValidRoomName_of_life (h : Tracks w lives) {r : String} (hr : (lives r).isSome = true) :
    isValidRoomName r = true :=
  h.wf.valid r ((h.mem_roomNames_iff r).mpr hr)

theorem fromServer_of_replies (h : Tracks w lives) {replies : List Message}
    (hreplies : Replies lives m replies) : ∀ reply ∈ replies, FromServer reply := by
  intro reply hreply
  unfold Replies at hreplies
  split at hreplies
  case h_1 =>
    obtain ⟨names, hnodup, hmem, rfl⟩ := hreplies
    obtain rfl := List.mem_singleton.mp hreply
    exact .roomList names hnodup fun name hname => isValidRoomName_of_life h ((hmem name).mp hname)
  case h_2 =>
    subst hreplies
    unfold historyReply at hreply
    split at hreply
    · split at hreply
      · obtain rfl := List.mem_singleton.mp hreply
        exact .roomHistory ..
      · cases hreply
    · cases hreply
  case h_3 =>
    subst hreplies
    cases hreply

theorem fromServer_of_notices (h : Tracks w lives) {clients : List ConnId} {c : ConnId} :
    ∀ message ∈ notices w clients c, FromServer message := by
  intro message hmessage
  unfold notices at hmessage
  split at hmessage
  · rcases List.mem_append.mp hmessage with hmessage | hmessage
    · obtain ⟨name, hname, rfl⟩ := List.mem_map.mp hmessage
      refine .roomCreate name (isValidRoomName_of_life h ?_)
      have hfresh := (h.named name).newRooms.mp hname
      cases hlife : lives name with
      | none =>
          rw [hlife] at hfresh
          cases hfresh
      | some life => rfl
    · obtain ⟨name, -, rfl⟩ := List.mem_map.mp hmessage
      exact .roomDestroy name
  · cases hmessage

theorem fromServer_of_echoes {expired : ConnId → Bool} {c : ConnId} {names : List String} :
    ∀ message ∈ names.flatMap (echoes lives expired c), FromServer message := by
  intro message hmessage
  obtain ⟨name, -, hecho⟩ := List.mem_flatMap.mp hmessage
  unfold echoes at hecho
  split at hecho
  · split at hecho
    · obtain ⟨event, -, rfl⟩ := List.mem_map.mp hecho
      exact .chatEcho name event
    · cases hecho
  · cases hecho

/-! ### And what it says of one room -/

theorem noticesOf_historyReply_of_ne {r : String} (hr : m.roomName ≠ r) :
    noticesOf r (historyReply lives m) = [] := by
  unfold historyReply
  split
  · split
    · rw [noticesOf_cons, noticeOf_historyMessage, if_neg hr]
      rfl
    · rfl
  · rfl

theorem noticesOf_historyReply (lives : Lives) (m : Incoming) :
    noticesOf m.roomName (historyReply lives m) =
      match lives m.roomName with
      | some life =>
          if 0 ≤ m.eventCount ∧ m.eventCount ≤ roomHistoryMaxEntries then
            [.history ((shownLog life.log m.eventCount.toInt.toNat).map asShown)]
          else []
      | none => [] := by
  unfold historyReply
  cases lives m.roomName with
  | none => rfl
  | some life =>
      simp only
      split
      · rw [noticesOf_cons, noticeOf_historyMessage, if_pos rfl]
        rfl
      · rfl

theorem noticesOf_replies {replies : List Message} (h : Replies lives m replies) (r : String) :
    noticesOf r replies = answer r (lives r) m := by
  unfold Replies at h
  split at h
  case h_1 ht =>
    obtain ⟨names, -, hmem, rfl⟩ := h
    have hpresent : decide (r ∈ names) = (lives r).isSome :=
      Bool.eq_iff_iff.mpr (decide_eq_true_iff.trans (hmem r))
    rw [noticesOf_cons, noticeOf_createRoomList, hpresent]
    simp only [answer, ht]
    rfl
  case h_2 ht =>
    subst h
    simp only [answer, ht]
    by_cases hr : m.roomName = r
    · subst hr
      rw [noticesOf_historyReply]
      cases lives m.roomName with
      | none => rfl
      | some life => simp only [true_and]
    · rw [noticesOf_historyReply_of_ne hr]
      cases lives r with
      | none => rfl
      | some life => simp only [hr, false_and, if_false]
  case h_3 hlist hhistory =>
    subst h
    unfold answer
    split
    · exact absurd ‹_› hlist
    · exact absurd ‹_› hhistory
    · rfl

/-- Messages that each name one room. -/
theorem noticesOf_map {r : String} {make : String → Message} {n : Notice}
    (hmake : ∀ name, noticeOf r (make name) = if name = r then some n else none) :
    ∀ names : List String, noticesOf r (names.map make) = List.replicate (names.count r) n
  | [] => rfl
  | name :: names => by
      rw [List.map_cons, noticesOf_cons, hmake, noticesOf_map hmake names]
      by_cases hr : name = r
      · subst hr
        rw [if_pos rfl, List.count_cons_self, List.replicate_succ]
        rfl
      · rw [if_neg hr, List.count_cons_of_ne hr]
        rfl

/-- The notices of step 2a. -/
theorem noticesOf_notices (r : String) (w : Worker) (clients : List ConnId) (c : ConnId) :
    noticesOf r (notices w clients c) =
      announcements (c ∈ clients) (w.newRooms.count r) (w.destroyedRooms.count r) := by
  simp only [notices, announcements, decide_eq_true_eq]
  split
  · rw [noticesOf_append, noticesOf_map (noticeOf_createRoomCreate r),
      noticesOf_map (noticeOf_createRoomDestroy r)]
  · rfl

theorem noticesOf_echoes (r s : String) (lives : Lives) (expired : ConnId → Bool) (c : ConnId) :
    noticesOf r (echoes lives expired c s) =
      if s = r then echoNotices expired c (lives r) else [] := by
  have hevents : ∀ events : List RoomEvent, noticesOf r (events.map (echoOf s))
      = if s = r then events.map fun event => .echo (asShown event) else [] := by
    intro events
    induction events with
    | nil => simp
    | cons event events ih =>
        rw [List.map_cons, noticesOf_cons, noticeOf_echoOf, ih]
        split <;> rfl
  unfold echoes
  by_cases hs : s = r
  · subst hs
    rw [if_pos rfl]
    cases lives s with
    | none => rfl
    | some life =>
        simp only [echoNotices]
        split
        · rw [hevents, if_pos rfl]
        · rfl
  · rw [if_neg hs]
    split
    · split
      · rw [hevents, if_neg hs]
      · rfl
    · rfl

/-- The notices of step 2b. -/
theorem noticesOf_rooms (h : Tracks w lives) (r : String) (expired : ConnId → Bool) (c : ConnId) :
    noticesOf r (w.rooms.roomNames.flatMap (echoes lives expired c))
      = echoNotices expired c (lives r) := by
  rw [noticesOf, List.filterMap_flatMap]
  have hnames : (fun s => (echoes lives expired c s).filterMap (noticeOf r))
      = fun s => if s = r then echoNotices expired c (lives r) else [] := by
    funext s
    exact noticesOf_echoes r s lives expired c
  rw [hnames, flatMap_only (f := fun s => echoNotices expired c (lives r)) h.wf.nodup]
  by_cases hr : r ∈ w.rooms.roomNames
  · rw [if_pos hr]
  · have hnone : lives r = none := by simpa [h.mem_roomNames_iff] using hr
    rw [if_neg hr, hnone]
    rfl

/-! ## What holds in every reachable state -/

structure Tavern.Sound (s : Tavern) : Prop where
  tracks : Tracks s.worker s.lives
  lanes : ∀ c, ∀ message ∈ s.worker.messagesOut c, FromServer message
  handled : ∀ c, ∀ message ∈ s.handled c, FromServer message
  windows : ∀ c, (s.chat c).WF
  active : s.active.Nodup
  clients : s.stage.clients.Nodup
  waiting : ∀ c ∈ s.stage.waiting, c ∈ s.stage.clients
  numbered : ∀ c, c ∈ s.active ∨ c ∈ s.stage.clients → c < s.next
  expired : ∀ c, s.expired c = true → c < s.next ∧ c ∉ s.active ∧ c ∉ s.stage.clients

variable {s s' : Tavern} {a : Action}

theorem sound_start (initialRooms : List String) : (Tavern.start initialRooms).Sound where
  tracks := tracks_start initialRooms
  lanes := fun _ _ hmessage => by cases hmessage
  handled := fun _ _ hmessage => by cases hmessage
  windows := fun _ => ⟨RoomManager.wf_new, (fun _ _ h => by cases h), fun _ => ⟨none, rfl⟩⟩
  active := List.nodup_nil
  clients := List.nodup_nil
  waiting := fun _ h => by cases h
  numbered := fun _ h => by rcases h with h | h <;> cases h
  expired := fun _ h => by cases h

/-- A window and the requests of one client change. -/
theorem windows_update {chat : ConnId → ChatWindow} (h : ∀ c, (chat c).WF) {window : ChatWindow}
    (hwindow : window.WF) (c d : ConnId) : (Function.update chat c window d).WF := by
  by_cases hd : d = c
  · subst hd
    rw [Function.update_self]
    exact hwindow
  · rw [Function.update_of_ne hd]
    exact h d

theorem wf_joins {chat chat' : ChatWindow} {pushed : List Message}
    (hjoins : Joins chat chat' pushed)
    (h : ∀ r, ∃ shown, Shows (chat.screen.chatRoomHistory r) shown) : chat'.WF :=
  ⟨hjoins.rooms, hjoins.unmarked, hjoins.screen ▸ h⟩

/-- The snapshot of a tick names nobody twice. -/
theorem Tavern.Sound.snapshot (h : s.Sound) {clients waiting : List ConnId}
    (hstage : s.stage = .gathering clients waiting) : clients.Nodup := by
  have hclients : s.stage.clients = clients := by rw [hstage]; rfl
  exact hclients ▸ h.clients

/-- A window is only given messages of the server, and believes them. -/
theorem Tavern.Sound.heard (h : s.Sound) {c : ConnId} {message : Message} {rest : List Message}
    {chat : ChatWindow} {pushed : List Message} (hsent : s.worker.messagesOut c = message :: rest)
    (hok : (s.chat c).handleMessage message = .ok (chat, pushed)) :
    FromServer message ∧ Heard (s.chat c) message chat pushed := by
  have hmessage : FromServer message := h.lanes c message (hsent ▸ List.mem_cons_self)
  obtain ⟨chat', pushed', hok', hheard⟩ := handleMessage_heard (h.windows c) hmessage
  obtain ⟨rfl, rfl⟩ := Prod.mk.inj (Except.ok.inj (hok'.symm.trans hok))
  exact ⟨hmessage, hheard⟩

/-- A user who picks a room joins it at most. -/
theorem Tavern.Sound.joins (h : s.Sound) {c : ConnId} {index : Nat} {chat : ChatWindow}
    {pushed : List Message} (hok : (s.chat c).changeRoom index = .ok (chat, pushed)) :
    Joins { s.chat c with screen := (s.chat c).screen.pickRoom index } chat pushed := by
  obtain ⟨chat', pushed', hok', hjoins⟩ := changeRoom_spec (h.windows c) index
  obtain ⟨rfl, rfl⟩ := Prod.mk.inj (Except.ok.inj (hok'.symm.trans hok))
  exact hjoins

theorem sound_step (h : s.Sound) (hstep : TavernStep userName s a s') : s'.Sound := by
  cases hstep with
  | connect clientRooms hrooms hunmarked =>
      have hfresh : s.next ∉ s.active := fun hmem => Nat.lt_irrefl _ (h.numbered _ (Or.inl hmem))
      have hwindow : (⟨clientRooms, .new⟩ : ChatWindow).WF :=
        ⟨hrooms, hunmarked, fun _ => ⟨none, rfl⟩⟩
      refine { h with
        windows := windows_update h.windows hwindow _, active := ?_, numbered := ?_, expired := ?_ }
      · exact h.active.append (List.nodup_singleton _) (List.disjoint_singleton.mpr hfresh)
      · intro c hc
        rcases hc with hc | hc
        · rcases List.mem_append.mp hc with hc | hc
          · exact Nat.lt_succ_of_lt (h.numbered c (Or.inl hc))
          · rw [List.mem_singleton.mp hc]
            exact Nat.lt_succ_self _
        · exact Nat.lt_succ_of_lt (h.numbered c (Or.inr hc))
      · intro c hc
        obtain ⟨hlt, hactive, hclients⟩ := h.expired c hc
        refine ⟨Nat.lt_succ_of_lt hlt, ?_, hclients⟩
        intro hmem
        rcases List.mem_append.mp hmem with hmem | hmem
        · exact hactive hmem
        · exact absurd (List.mem_singleton.mp hmem) (Nat.ne_of_lt hlt)
  | drop c =>
      have hsub : ∀ d, d ∈ s.active.erase c → d ∈ s.active := fun _ => List.mem_of_mem_erase
      refine { h with active := h.active.erase c, numbered := ?_, expired := ?_ }
      · intro d hd
        exact h.numbered d (hd.imp_left (hsub d))
      · intro d hd
        obtain ⟨hlt, hactive, hclients⟩ := h.expired d hd
        exact ⟨hlt, fun hmem => hactive (hsub d hmem), hclients⟩
  | expire c hknown hactive hclients =>
      refine { h with expired := ?_ }
      intro d (hd : Function.update s.expired c true d = true)
      by_cases hdc : d = c
      · subst hdc
        exact ⟨hknown, hactive, hclients⟩
      · rw [Function.update_of_ne hdc] at hd
        exact h.expired d hd
  | request c message => exact { h with }
  | @handle c message rest chat pushed hsent hok =>
      obtain ⟨hmessage, hheard⟩ := h.heard hsent hok
      refine { h with
        tracks := h.tracks.withMessages _, lanes := ?_, handled := ?_
        windows := windows_update h.windows hheard.wf _ }
      · intro d message' (hmessage' : message' ∈ Function.update s.worker.messagesOut c rest d)
        exact h.lanes d message' (Mailbox.mem_of_mem_pop hsent hmessage')
      · intro d message' (hmessage' : message' ∈ Mailbox.push s.handled c [message] d)
        rw [Mailbox.push_apply] at hmessage'
        rcases List.mem_append.mp hmessage' with hmessage' | hmessage'
        · exact h.handled d message' hmessage'
        · split at hmessage'
          · rw [List.mem_singleton.mp hmessage']
            exact hmessage
          · cases hmessage'
  | @pick c index chat pushed hok =>
      exact { h with
        windows := windows_update h.windows (wf_joins (h.joins hok) (h.windows c).histories) _ }
  | beginTick hidle =>
      refine { h with clients := h.active, waiting := fun _ => id, numbered := ?_, expired := ?_ }
      · intro c hc
        exact h.numbered c (Or.inl (hc.elim id id))
      · intro c hc
        obtain ⟨hlt, hactive, -⟩ := h.expired c hc
        exact ⟨hlt, hactive, hactive⟩
  | @serve now clients waiting c message rest worker hstage hsent hok =>
      obtain ⟨htracks, replies, hreplies, hout⟩ := handled_of_ok h.tracks hok
      refine { h with tracks := htracks, lanes := ?_ }
      intro d message' hmessage'
      rw [hout, Mailbox.push_apply] at hmessage'
      rcases List.mem_append.mp hmessage' with hmessage' | hmessage'
      · exact h.lanes d message' hmessage'
      · split at hmessage'
        · exact fromServer_of_replies h.tracks hreplies message' hmessage'
        · cases hmessage'
  | @nextClient clients waiting c hstage =>
      have hclients : s.stage.clients = clients := by rw [hstage]; rfl
      have hwaiting : s.stage.waiting = c :: waiting := by rw [hstage]; rfl
      refine { h with clients := ?_, waiting := ?_, numbered := ?_, expired := ?_ }
      · exact hclients ▸ h.clients
      · intro d hd
        exact hclients ▸ h.waiting d (hwaiting ▸ List.mem_cons_of_mem _ hd)
      · exact hclients ▸ h.numbered
      · exact hclients ▸ h.expired
  | @finishTick clients hstage =>
      have hclients : s.stage.clients = clients := by rw [hstage]; rfl
      have hnodup : clients.Nodup := h.snapshot hstage
      refine { h with
        tracks := h.tracks.finishTick clients s.expired, lanes := ?_, clients := List.nodup_nil,
        waiting := (fun _ h => by cases h), numbered := ?_, expired := ?_ }
      · intro d message' hmessage'
        rw [finishTick_messagesOut h.tracks hnodup] at hmessage'
        rcases List.mem_append.mp hmessage' with hmessage' | hmessage'
        · exact h.lanes d message' hmessage'
        · rcases List.mem_append.mp hmessage' with hmessage' | hmessage'
          · exact fromServer_of_notices h.tracks message' hmessage'
          · exact fromServer_of_echoes message' hmessage'
      · intro c hc
        exact h.numbered c (hc.imp_right fun h => by cases h)
      · intro c hc
        obtain ⟨hlt, hactive, -⟩ := h.expired c hc
        exact ⟨hlt, hactive, fun h => by cases h⟩

variable {initialRooms : List String} {allowed : Tavern → Action → Prop}

theorem sound_reachable (h : (tavern userName initialRooms).Reachable allowed s) : s.Sound := by
  refine h.invariant ?_ ?_
  · rintro s rfl
    exact sound_start initialRooms
  · intro s a s' _ ih _ hstep
    exact sound_step ih hstep

end Tavernmx.Session
