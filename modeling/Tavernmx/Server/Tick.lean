/-
# `Tavernmx.Server.Tick` — whole ticks, and runs of them

`Reachable initialRooms w lives` says that the worker can be in state `w`
between two ticks, with `lives` the rooms' lives so far.  Between ticks the
client connections take messages from the outbound queues, which a run may do at
any time (`drain`).

Three results about every reachable state:

    tick_completes_iff      when the next tick runs to its end
    history_of_reachable    what is stored of every room's history
    reachable_quiet         no event waits, no room is marked or new
-/
import Tavernmx.Server.FinishTick

namespace Tavernmx.Server

open Messaging Rooms

/-! ## One tick -/

/-- The two nested loops of step 1 are one loop over the batch. -/
theorem gatherMessages_eq (t : TickInput) (w : Worker) :
    w.gatherMessages t = t.batch.foldlM (Worker.handleMessage t.userName) w := by
  have hclients : ∀ (clients : List ConnId) (w : Worker),
      clients.foldlM (fun w client =>
          (t.inbox client).foldlM (fun w m => w.handleMessage t.userName ⟨client, m.1, m.2⟩) w) w
        = (clients.flatMap fun client => (t.inbox client).map fun m =>
          (⟨client, m.1, m.2⟩ : Incoming)).foldlM
            (Worker.handleMessage t.userName) w := by
    intro clients
    induction clients with
    | nil => exact fun w => rfl
    | cons client clients ih =>
        intro w
        rw [List.foldlM_cons, List.flatMap_cons, List.foldlM_append, List.foldlM_map]
        exact bind_congr fun w => ih w
  exact hclients t.clients w

/-- The lives of the rooms under the messages of a tick. -/
def Lives.gather (t : TickInput) (lives : Lives) : Lives :=
  t.batch.foldl (Lives.receive t.userName) lives

/-- The lives of the rooms over a tick. -/
def Lives.tick (t : TickInput) (lives : Lives) : Lives := (lives.gather t).endTick t.expired

variable {w w' : Worker} {lives : Lives} {t : TickInput}

theorem tick_ok_iff : w.tick t = .ok w' ↔
    ∃ mid, w.gatherMessages t = .ok mid ∧ w' = mid.finishTick t.clients t.expired := by
  rw [Worker.tick]
  cases w.gatherMessages t with
  | ok mid => simp [bind, Except.bind, pure, Except.pure, eq_comm]
  | error e => simp [bind, Except.bind]

theorem Tracks.gather (h : Tracks w lives) (hok : w.gatherMessages t = .ok w') :
    Tracks w' (lives.gather t) :=
  (handle_refines t.userName).foldlM h (gatherMessages_eq t w ▸ hok)

theorem Tracks.tick (h : Tracks w lives) (hok : w.tick t = .ok w') : Tracks w' (lives.tick t) := by
  obtain ⟨mid, hgather, rfl⟩ := tick_ok_iff.mp hok
  exact (h.gather hgather).finishTick t.clients t.expired

/-! ## Runs -/

/-- The states between ticks, each with the lives of its rooms. -/
inductive Reachable (initialRooms : List String) : Worker → Lives → Prop where
  | start : Reachable initialRooms (Worker.start initialRooms) (Lives.start initialRooms)
  | tick {w w' : Worker} {lives : Lives} (t : TickInput) (h : Reachable initialRooms w lives)
      (hok : w.tick t = .ok w') : Reachable initialRooms w' (lives.tick t)
  | drain {w : Worker} {lives : Lives} (messagesOut : ConnId → List Message)
      (h : Reachable initialRooms w lives) : Reachable initialRooms { w with messagesOut } lives

theorem tracks_start (initialRooms : List String) :
    Tracks (Worker.start initialRooms) (Lives.start initialRooms) := by
  obtain ⟨hwf, hrooms⟩ :=
    RoomManager.createRooms_spec initialRooms (RoomManager.wf_new (T := ServerRoom))
  refine ⟨hwf, fun r => ⟨(hrooms r).trans ?_, ?_, ?_, ?_⟩⟩
  · rw [RoomManager.find?_new, Option.none_or, Lives.start]
    split <;> rfl
  · show StoredFor _ none
    unfold Lives.start
    split <;> simp [logOf, RoomLife.log, StoredFor]
  · unfold Lives.start
    split <;> simp [Worker.start]
  · unfold Lives.start
    split <;> simp [Worker.start]

theorem Tracks.withMessages (h : Tracks w lives) (messagesOut : ConnId → List Message) :
    Tracks { w with messagesOut } lives :=
  ⟨h.wf, fun r => (h.named r).of_same ⟨rfl, rfl, Iff.rfl, Iff.rfl⟩⟩

theorem Reachable.tracks {initialRooms : List String} (h : Reachable initialRooms w lives) :
    Tracks w lives := by
  induction h with
  | start => exact tracks_start initialRooms
  | tick t _ hok ih => exact ih.tick hok
  | drain messagesOut _ ih => exact ih.withMessages messagesOut

/-- A room between two ticks: nothing waits, and it is neither marked nor new. -/
structure RoomLife.Quiet (life : RoomLife) : Prop where
  pending : life.pending = []
  doomed : life.doomed = false
  fresh : life.fresh = false

theorem RoomLife.quiet_of_endTick {expired : ConnId → Bool} {life : Option RoomLife}
    {life' : RoomLife} (h : endTick expired life = some life') : life'.Quiet := by
  cases life with
  | none => cases h
  | some life =>
      cases hdoomed : life.doomed with
      | true => simp [endTick, hdoomed] at h
      | false =>
          simp only [endTick, Option.filter_some, hdoomed, Bool.not_false, if_true,
            Option.map_some, Option.some.injEq] at h
          subst h
          exact ⟨rfl, hdoomed, rfl⟩

theorem reachable_quiet {initialRooms : List String} (h : Reachable initialRooms w lives)
    {r : String} {life : RoomLife} (hlife : lives r = some life) : life.Quiet := by
  induction h with
  | start =>
      unfold Lives.start at hlife
      split at hlife
      · obtain rfl := Option.some.inj hlife
        exact ⟨rfl, rfl, rfl⟩
      · cases hlife
  | tick t _ _ _ => exact RoomLife.quiet_of_endTick hlife
  | drain _ _ ih => exact ih hlife

/-! ## When a tick runs to its end -/

theorem Tracks.completes_iff (h : Tracks w lives) (t : TickInput) :
    (∃ w', w.tick t = .ok w') ↔
      Fallible.Passes SafeMessage (Lives.receive t.userName) lives t.batch := by
  rw [← (handle_guarded t.userName).foldlM (handle_refines t.userName) h t.batch,
    ← gatherMessages_eq]
  constructor
  · rintro ⟨w', hok⟩
    obtain ⟨mid, hgather, -⟩ := tick_ok_iff.mp hok
    exact ⟨mid, hgather⟩
  · rintro ⟨mid, hgather⟩
    exact ⟨_, tick_ok_iff.mpr ⟨mid, hgather, rfl⟩⟩

/-- **A tick runs to its end exactly when every message is safe where it is
handled**: the fields that step 1 reads have a type it can convert, and no
request for 0 entries of history meets a room with more than 100. -/
theorem tick_completes_iff {initialRooms : List String} (h : Reachable initialRooms w lives)
    (t : TickInput) :
    (∃ w', w.tick t = .ok w') ↔
      Fallible.Passes SafeMessage (Lives.receive t.userName) lives t.batch :=
  h.tracks.completes_iff t

/-- A CHAT_SEND with both its fields. -/
def chatSend (roomName text : String) : Message :=
  ⟨.chatSend, .ofPairs [("room_name", .string roomName), ("text", .string text)]⟩

theorem find?_chatSend (roomName text : String) :
    (chatSend roomName text).values.find? "room_name" = some (.string roomName) ∧
      (chatSend roomName text).values.find? "text" = some (.string text) := by
  simp [chatSend, Json.ofPairs]

theorem readable_chatSend (roomName text : String) :
    (chatSend roomName text).readable String "room_name" ∧
      (chatSend roomName text).readable String "text" :=
  ⟨readable_of_ok (messageValueOr_of_find? (find?_chatSend roomName text).1 ""),
    readable_of_ok (messageValueOr_of_find? (find?_chatSend roomName text).2 "")⟩

theorem readable_roomMessage (kind : MessageType) (roomName : String) :
    (roomMessage kind roomName).readable String "room_name" :=
  readable_of_ok (messageValueOr_of_find? (find?_roomMessage kind roomName) "")

/-- A tick in which one client sends `messages`, at times 0, 1, …. -/
def soloTick (messages : List Message) : TickInput where
  clients := [0]
  clients_nodup := List.nodup_singleton 0
  userName := fun _ => "ann"
  inbox := fun _ => messages.zipIdx.map fun m => (m.1, Int64.ofNat m.2)
  expired := fun _ => false

/-- Joining a room and chatting in it. -/
def joinAndChat : TickInput := soloTick [createRoomJoin "den", chatSend "den" "hi"]

theorem joinAndChat_passes :
    Fallible.Passes SafeMessage (Lives.receive joinAndChat.userName) (Lives.start ["den"])
      joinAndChat.batch := by
  obtain ⟨hname, htext⟩ := readable_chatSend "den" "hi"
  exact ⟨readable_roomMessage .roomJoin "den", ⟨hname, fun _ => htext⟩, trivial⟩

theorem tick_completes_joinAndChat : ∃ w', (Worker.start ["den"]).tick joinAndChat = .ok w' :=
  (tick_completes_iff .start joinAndChat).mpr joinAndChat_passes

/-- A ROOM_CREATE whose room name is a number ends the loop. -/
theorem tick_throws_numericRoomName : Reachable [] (Worker.start []) (Lives.start []) ∧
    (Worker.start []).tick (soloTick [⟨.roomCreate, .ofPairs [("room_name", .integer 5)]⟩])
      = .error (.thrown .typeError) :=
  ⟨.start, rfl⟩

/-! ## What is stored -/

/-- **The stored history of every room is the end of its log**, and nothing is
stored under any other name. -/
theorem history_of_reachable {initialRooms : List String} (h : Reachable initialRooms w lives) :
    (∀ r, (w.roomHistory r).isSome → (w.rooms.find? r).isSome) ∧
    ∀ r, (w.rooms.find? r).isSome → ∃ life, lives r = some life ∧
      (life.log = [] → w.roomHistory r = none) ∧
      (life.log ≠ [] → ∃ buffer, w.roomHistory r = some buffer ∧
        buffer.Holds (life.log.drop (life.log.length - min life.log.length 999))) := by
  have hnamed := h.tracks.named
  constructor
  · intro r hkey
    obtain ⟨buffer, hbuffer⟩ := Option.isSome_iff_exists.mp hkey
    have hstored := (hnamed r).stored
    rw [hbuffer] at hstored
    rw [(hnamed r).room, Option.isSome_map]
    cases hlife : lives r with
    | none => exact absurd (by simp [logOf, hlife]) hstored.1
    | some life => rfl
  · intro r hroom
    rw [(hnamed r).room, Option.isSome_map] at hroom
    obtain ⟨life, hlife⟩ := Option.isSome_iff_exists.mp hroom
    have hstored : StoredFor life.log (w.roomHistory r) := by
      simpa [hlife, logOf] using (hnamed r).stored
    refine ⟨life, hlife, ?_, ?_⟩
    · intro hnil
      exact storedFor_nil_iff.mp (hnil ▸ hstored)
    · intro hne
      cases hbuffer : w.roomHistory r with
      | none =>
          rw [hbuffer] at hstored
          exact absurd hstored hne
      | some buffer =>
          rw [hbuffer] at hstored
          have hkept : keptLog life.log
              = life.log.drop (life.log.length - min life.log.length 999) := by
            have hdrop : life.log.length - 999
              = life.log.length - min life.log.length 999 := by omega
            rw [keptLog, List.rtake, ← hdrop]
            rfl
          exact ⟨buffer, rfl, hkept ▸ hstored.2⟩

theorem history_of_joinAndChat : ∃ w lives, Reachable ["den"] w lives ∧
    ∃ buffer, w.roomHistory "den" = some buffer ∧ buffer.Holds [⟨1, "ann", "hi"⟩] := by
  obtain ⟨w, hok⟩ := ((tracks_start ["den"]).completes_iff joinAndChat).mpr joinAndChat_passes
  have hreach : Reachable ["den"] w ((Lives.start ["den"]).tick joinAndChat) := .tick _ .start hok
  obtain ⟨life, hlife, hlog⟩ : ∃ life, (Lives.start ["den"]).tick joinAndChat "den" = some life ∧
      life.log = [⟨1, "ann", "hi"⟩] := ⟨_, rfl, by decide⟩
  have hroom : (w.rooms.find? "den").isSome := by
    rw [(hreach.tracks.named "den").room, hlife]
    rfl
  obtain ⟨life', hlife', -, hstored⟩ := (history_of_reachable hreach).2 "den" hroom
  obtain rfl : life = life' := Option.some.inj (hlife.symm.trans hlife')
  obtain ⟨buffer, hbuffer, hholds⟩ := hstored (by simp [hlog])
  rw [hlog] at hholds
  exact ⟨w, _, hreach, buffer, hbuffer, hholds⟩

end Tavernmx.Server
