/-
# `Tavernmx.Server.Notifications` — who is told of the rooms that come and go

Step 1 collects two lists of names, and step 2a tells every client of the snapshot
about each entry.  So a client is sent as many notifications for a name as the list
has entries for it (`tick_notices`), and the question is what the entries count.

    newRooms         an entry for each room that is created       no name twice
    destroyedRooms   an entry for each request that finds a room  any number of times

A name enters the first list only when `create_room` gives a room, which it does not
do twice.  It enters the second whenever there is a room of that name, and a room
stays where it is until step 3, so a second request finds it again.
-/
import Tavernmx.Server.Broadcast

namespace Tavernmx.Server

open Messaging Rooms

/-- A message of this kind that names the room. -/
def isFor (kind : MessageType) (r : String) (message : Message) : Bool :=
  message.messageType = kind && message.text "room_name" = r

/-- The ROOM_DESTROYs of a batch that find the room `r`, in processing order. -/
def acceptedDestroys (userName : ConnId → String) (r : String) :
    Lives → List Incoming → List Incoming
  | _, [] => []
  | lives, m :: ms =>
    (if m.message.messageType = .roomDestroy ∧ m.roomName = r ∧ (lives r).isSome then [m]
      else []) ++ acceptedDestroys userName r (lives.receive userName m) ms

variable {initialRooms : List String} {w mid w' : Worker} {lives : Lives} {t : TickInput}
  {m : Incoming} {userName : ConnId → String}

/-! ## What is sent -/

theorem countP_roomMessages (kind kind' : MessageType) (r : String) (names : List String) :
    (names.map (roomMessage kind')).countP (isFor kind r)
      = if kind' = kind then names.count r else 0 := by
  rw [List.countP_map]
  split
  case isTrue hkind =>
    refine List.countP_congr fun name _ => ?_
    show isFor kind r (roomMessage kind' name) = true ↔ (name == r) = true
    rw [isFor, text_roomMessage, ← hkind]
    simp [roomMessage]
  case isFalse hkind =>
    refine List.countP_eq_zero.mpr fun name _ => ?_
    simp [isFor, roomMessage, hkind]

theorem countP_notices {clients : List ConnId} {c : ConnId} (hc : c ∈ clients) (r : String) :
    (notices w clients c).countP (isFor .roomCreate r) = w.newRooms.count r ∧
      (notices w clients c).countP (isFor .roomDestroy r) = w.destroyedRooms.count r := by
  have hnew : ∀ kind, (w.newRooms.map createRoomCreate).countP (isFor kind r)
      = if .roomCreate = kind then w.newRooms.count r else 0 :=
    fun kind => countP_roomMessages kind .roomCreate r w.newRooms
  have hdestroyed : ∀ kind, (w.destroyedRooms.map createRoomDestroy).countP (isFor kind r)
      = if .roomDestroy = kind then w.destroyedRooms.count r else 0 :=
    fun kind => countP_roomMessages kind .roomDestroy r w.destroyedRooms
  rw [notices, if_pos hc, List.countP_append, List.countP_append]
  simp only [hnew, hdestroyed]
  exact ⟨rfl, Nat.zero_add _⟩

/-- Messages of other kinds. -/
theorem countP_of_type {kind : MessageType} (r : String) {messages : List Message}
    (h : ∀ message ∈ messages, message.messageType ≠ kind) :
    messages.countP (isFor kind r) = 0 :=
  List.countP_eq_zero.mpr fun message hmessage => by simp [isFor, h message hmessage]

theorem type_of_echoes {expired : ConnId → Bool} {c : ConnId} {s : String} {message : Message}
    (h : message ∈ echoes lives expired c s) : message.messageType = .chatEcho := by
  unfold echoes at h
  split at h
  · split at h
    · obtain ⟨event, -, rfl⟩ := List.mem_map.mp h
      rfl
    · cases h
  · cases h

/-- **A client of the snapshot is sent a notification for each entry of the lists**, and
no others. -/
theorem tick_notices (h : Tracks w lives) (hgather : w.gatherMessages t = .ok mid) {c : ConnId}
    (hc : c ∈ t.clients) : ∃ sent,
      (mid.finishTick t.clients t.expired).messagesOut c = w.messagesOut c ++ sent ∧
      ∀ r, sent.countP (isFor .roomCreate r) = mid.newRooms.count r ∧
        sent.countP (isFor .roomDestroy r) = mid.destroyedRooms.count r := by
  obtain ⟨replies, hreplies, hanswers⟩ := gather_messagesOut h hgather c
  have hmid := h.gather hgather
  refine ⟨replies ++ (notices mid t.clients c ++
    mid.rooms.roomNames.flatMap (echoes (lives.gather t) t.expired c)), ?_, fun r => ?_⟩
  · rw [finishTick_messagesOut hmid t.clients_nodup, hreplies, List.append_assoc]
  · have hothers : ∀ kind, kind = .roomCreate ∨ kind = .roomDestroy →
        replies.countP (isFor kind r) = 0 ∧
        (mid.rooms.roomNames.flatMap (echoes (lives.gather t) t.expired c)).countP (isFor kind r)
          = 0 := by
      intro kind hkind
      constructor
      · refine countP_of_type r fun reply hreply => ?_
        rcases hanswers reply hreply with htype | htype <;> rcases hkind with rfl | rfl <;>
          simp [htype]
      · refine countP_of_type r fun message hmessage => ?_
        obtain ⟨s, -, hecho⟩ := List.mem_flatMap.mp hmessage
        rcases hkind with rfl | rfl <;> simp [type_of_echoes hecho]
    simp only [List.countP_append, hothers _ (Or.inl rfl), hothers _ (Or.inr rfl),
      countP_notices hc, Nat.zero_add, Nat.add_zero, and_self]

/-! ## What the lists count -/

/-- What a message does to the two lists. -/
inductive ListStep (w : Worker) (m : Incoming) (w' : Worker) : Prop where
  | creates (htype : m.message.messageType = .roomCreate)
      (hfresh : m.roomName ∉ w.rooms.roomNames) (hnew : w'.newRooms = w.newRooms ++ [m.roomName])
      (hdestroyed : w'.destroyedRooms = w.destroyedRooms)
  | destroys (htype : m.message.messageType = .roomDestroy)
      (hroom : m.roomName ∈ w.rooms.roomNames) (hnew : w'.newRooms = w.newRooms)
      (hdestroyed : w'.destroyedRooms = w.destroyedRooms ++ [m.roomName])
  | keeps (hother : m.message.messageType = .roomDestroy → m.roomName ∉ w.rooms.roomNames)
      (hnew : w'.newRooms = w.newRooms) (hdestroyed : w'.destroyedRooms = w.destroyedRooms)

/-- A message of another type than ROOM_DESTROY that keeps both lists. -/
theorem ListStep.of_type {kind : MessageType} (ht : m.message.messageType = kind)
    (hkind : kind ≠ .roomDestroy) (hnew : w'.newRooms = w.newRooms)
    (hdestroyed : w'.destroyedRooms = w.destroyedRooms) : ListStep w m w' :=
  .keeps (fun hbad => absurd (ht.symm.trans hbad) hkind) hnew hdestroyed

theorem handle_lists (hwf : w.rooms.WF) (hok : w.handleMessage userName m = .ok w') :
    ListStep w m w' := by
  cases ht : m.message.messageType with
  | roomCreate =>
      simp only [Worker.handleMessage, ht] at hok
      obtain ⟨name, hname, hok⟩ := Fallible.bind_ok.mp hok
      obtain rfl := roomName_of_ok hname
      split at hok
      · cases hok
        exact .of_type ht (by simp) rfl rfl
      · cases hcreate : w.rooms.createRoom m.roomName with
        | none =>
            rw [hcreate] at hok
            cases hok
            exact .of_type ht (by simp) rfl rfl
        | some rooms =>
            rw [hcreate] at hok
            cases hok
            exact .creates ht (RoomManager.createRoom_eq_some hcreate).2.1 rfl rfl
  | roomDestroy =>
      simp only [Worker.handleMessage, ht] at hok
      obtain ⟨name, hname, hok⟩ := Fallible.bind_ok.mp hok
      obtain rfl := roomName_of_ok hname
      cases hroom : w.rooms.find? m.roomName with
      | none =>
          rw [hroom] at hok
          cases hok
          exact .keeps (fun _ => (hwf.find?_eq_none_iff m.roomName).mp hroom) rfl rfl
      | some room =>
          rw [hroom] at hok
          cases hok
          exact .destroys ht ((hwf.mem_roomNames_iff m.roomName).mpr (by rw [hroom]; rfl)) rfl rfl
  | roomJoin =>
      simp only [Worker.handleMessage, ht] at hok
      obtain ⟨name, -, hok⟩ := Fallible.bind_ok.mp hok
      split at hok <;> cases hok <;> exact .of_type ht (by simp) rfl rfl
  | roomHistory =>
      simp only [Worker.handleMessage, ht] at hok
      obtain ⟨name, -, hok⟩ := Fallible.bind_ok.mp hok
      obtain ⟨count, -, hok⟩ := Fallible.bind_ok.mp hok
      split at hok
      · split at hok
        · obtain ⟨reply, -, hok⟩ := Fallible.bind_ok.mp hok
          cases hok
          exact .of_type ht (by simp) rfl rfl
        · cases hok
          exact .of_type ht (by simp) rfl rfl
      · cases hok
        exact .of_type ht (by simp) rfl rfl
  | chatSend =>
      simp only [Worker.handleMessage, ht] at hok
      obtain ⟨name, -, hok⟩ := Fallible.bind_ok.mp hok
      split at hok
      · obtain ⟨text, -, hok⟩ := Fallible.bind_ok.mp hok
        cases hok
        exact .of_type ht (by simp) rfl rfl
      · cases hok
        exact .of_type ht (by simp) rfl rfl
  | roomList | invalid | ack | nak | hello | heartbeat | chatEcho | unlisted c hc =>
      simp only [Worker.handleMessage, ht] at hok
      cases hok
      exact .of_type ht (by simp) rfl rfl

/-- A name enters the first list when there was no room of that name. -/
theorem handle_newRooms (h : Tracks w lives) (hok : w.handleMessage userName m = .ok w')
    (hnodup : w.newRooms.Nodup) : w'.newRooms.Nodup := by
  cases handle_lists h.wf hok with
  | creates htype hfresh hnew hdestroyed =>
      rw [hnew]
      refine hnodup.append (List.nodup_singleton _) (List.disjoint_singleton.mpr ?_)
      -- what the list has is there
      intro hmem
      rw [(h.named m.roomName).newRooms] at hmem
      rw [h.mem_roomNames_iff] at hfresh
      cases hlife : lives m.roomName with
      | none =>
          rw [hlife] at hmem
          cases hmem
      | some life => exact hfresh (by rw [hlife]; rfl)
  | destroys htype hroom hnew hdestroyed =>
      rw [hnew]
      exact hnodup
  | keeps hother hnew hdestroyed =>
      rw [hnew]
      exact hnodup

/-- A name enters the second list with each request that finds its room. -/
theorem handle_destroyedRooms (h : Tracks w lives) (hok : w.handleMessage userName m = .ok w')
    (r : String) : w'.destroyedRooms.count r = w.destroyedRooms.count r +
      (if m.message.messageType = .roomDestroy ∧ m.roomName = r ∧ (lives r).isSome then 1
        else 0) := by
  cases handle_lists h.wf hok with
  | creates htype hfresh hnew hdestroyed =>
      rw [hdestroyed, if_neg, Nat.add_zero]
      rintro ⟨hbad, -⟩
      cases htype.symm.trans hbad
  | destroys htype hroom hnew hdestroyed =>
      rw [hdestroyed, List.count_append, List.count_singleton]
      congr 1
      refine if_congr ?_ rfl rfl
      rw [beq_iff_eq]
      constructor
      · rintro rfl
        exact ⟨htype, rfl, (h.mem_roomNames_iff m.roomName).mp hroom⟩
      · rintro ⟨-, rfl, -⟩
        rfl
  | keeps hother hnew hdestroyed =>
      rw [hdestroyed, if_neg, Nat.add_zero]
      rintro ⟨htype, rfl, hsome⟩
      exact hother htype ((h.mem_roomNames_iff m.roomName).mpr hsome)

/-- What the lists count over a batch. -/
theorem gather_lists (r : String) : ∀ (ms : List Incoming) {w : Worker} {lives : Lives},
    Tracks w lives → w.newRooms.Nodup → ms.foldlM (Worker.handleMessage userName) w = .ok w' →
    w'.newRooms.Nodup ∧ w'.destroyedRooms.count r
      = w.destroyedRooms.count r + (acceptedDestroys userName r lives ms).length
  | [], w, lives, _, hnodup, hok => by
      cases hok
      exact ⟨hnodup, rfl⟩
  | m :: ms, w, lives, h, hnodup, hok => by
      obtain ⟨mid, hstep, hrest⟩ := Fallible.foldlM_cons_ok.mp hok
      obtain ⟨hnodup', hcount⟩ := gather_lists r ms (handle_refines userName h hstep)
        (handle_newRooms h hstep hnodup) hrest
      refine ⟨hnodup', ?_⟩
      rw [hcount, handle_destroyedRooms h hstep, acceptedDestroys, List.length_append,
        ← Nat.add_assoc]
      split <;> rfl

theorem reachable_lists (h : Reachable initialRooms w lives) :
    w.newRooms = [] ∧ w.destroyedRooms = [] := by
  induction h with
  | start => exact ⟨rfl, rfl⟩
  | tick t _ hok _ =>
      obtain ⟨mid, -, rfl⟩ := tick_ok_iff.mp hok
      exact ⟨rfl, rfl⟩
  | drain _ _ ih => exact ih

/-! ## The changes of the rooms -/

/-- A room is fresh once it is there and was not there before; and it stays. -/
theorem fresh_receive (userName : ConnId → String) (m : Incoming) (r : String)
    (life : Option RoomLife) :
    (RoomLife.receive userName r life m).any (·.fresh)
        = (life.any (·.fresh) ||
          (life.isNone && (RoomLife.receive userName r life m).isSome)) ∧
      (life.isSome → (RoomLife.receive userName r life m).isSome) := by
  by_cases hr : m.roomName = r
  · rw [RoomLife.receive, if_pos hr]
    cases ht : m.message.messageType with
    | roomCreate =>
        cases life with
        | none => by_cases hvalid : isValidRoomName r = true <;> simp [RoomLife.born, hvalid]
        | some life => simp
    | roomJoin => cases life <;> simp
    | roomDestroy => cases life <;> simp [RoomLife.doom]
    | chatSend => cases life <;> simp [RoomLife.hear]
    | _ => cases life <;> simp
  · rw [RoomLife.receive_of_ne hr]
    cases life <;> simp

theorem fresh_gather (userName : ConnId → String) (r : String) :
    ∀ (ms : List Incoming) (lives : Lives),
    (ms.foldl (Lives.receive userName) lives r).any (·.fresh)
        = ((lives r).any (·.fresh) ||
          ((lives r).isNone && (ms.foldl (Lives.receive userName) lives r).isSome)) ∧
      ((lives r).isSome → (ms.foldl (Lives.receive userName) lives r).isSome)
  | [], lives => by cases h : lives r <;> simp [h]
  | m :: ms, lives => by
      obtain ⟨hfresh, hstays⟩ := fresh_receive userName m r (lives r)
      obtain ⟨hrest, hrestStays⟩ := fresh_gather userName r ms (lives.receive userName m)
      rw [List.foldl_cons]
      refine ⟨?_, fun hsome => hrestStays (hstays hsome)⟩
      have hthrough : ∀ fresh before now after : Bool, (before → now) → (now → after) →
          (fresh || !before && now || !now && after) = (fresh || !before && after) := by decide
      have hnext : lives.receive userName m r = RoomLife.receive userName r (lives r) m := rfl
      rw [hrest, hnext, hfresh]
      simp only [← Option.not_isSome]
      exact hthrough _ _ _ _ hstays hrestStays

/-- The first list has the names of the rooms that are created. -/
theorem mem_newRooms_iff (h : Reachable initialRooms w lives)
    (hgather : w.gatherMessages t = .ok mid) (r : String) :
    r ∈ mid.newRooms ↔ (w.rooms.find? r).isNone ∧ (mid.rooms.find? r).isSome := by
  have hmid := (h.tracks.gather hgather).named r
  have hquiet : (lives r).any (·.fresh) = false := by
    cases hlife : lives r with
    | none => rfl
    | some life => exact (reachable_quiet h hlife).fresh
  have hfresh : (lives.gather t r).any (·.fresh)
      = ((lives r).isNone && (lives.gather t r).isSome) := by
    have hall := (fresh_gather t.userName r t.batch lives).1
    rwa [hquiet, Bool.false_or] at hall
  rw [hmid.newRooms, hmid.room, (h.tracks.named r).room, hfresh, Option.isNone_map,
    Option.isSome_map, Bool.and_eq_true]

/-- The second list has the names of the rooms that are removed. -/
theorem mem_destroyedRooms_iff (h : Tracks mid lives) (clients : List ConnId)
    (expired : ConnId → Bool) (r : String) : r ∈ mid.destroyedRooms ↔
      (mid.rooms.find? r).isSome ∧ ((mid.finishTick clients expired).rooms.find? r).isNone := by
  have hend := ((h.finishTick clients expired).named r).room
  rw [(h.named r).destroyedRooms, (h.named r).room, hend, Lives.endTick]
  cases lives r with
  | none => simp
  | some life => cases hdoomed : life.doomed <;> simp [RoomLife.endTick, hdoomed]

/-- One notification for each room that a tick creates or removes, and no other. -/
structure Notified (w mid w' : Worker) (sent : List Message) : Prop where
  creations : ∀ r, sent.countP (isFor .roomCreate r)
    = if (w.rooms.find? r).isNone ∧ (mid.rooms.find? r).isSome then 1 else 0
  destructions : ∀ r, sent.countP (isFor .roomDestroy r)
    = if (mid.rooms.find? r).isSome ∧ (w'.rooms.find? r).isNone then 1 else 0

/-- **Every client is notified once of each change exactly when no room is found by two
requests to destroy it.** -/
theorem notified_iff (h : Reachable initialRooms w lives) (hgather : w.gatherMessages t = .ok mid)
    (hok : w.tick t = .ok w') :
    (∀ c ∈ t.clients, ∃ sent, w'.messagesOut c = w.messagesOut c ++ sent ∧
      Notified w mid w' sent) ↔
    ∀ r, (acceptedDestroys t.userName r lives t.batch).length ≤ 1 := by
  obtain ⟨mid', hgather', rfl⟩ := tick_ok_iff.mp hok
  obtain rfl : mid = mid' := Except.ok.inj (hgather.symm.trans hgather')
  have hmid := h.tracks.gather hgather
  obtain ⟨hnew, hdestroyed⟩ := reachable_lists h
  have hbatch := hgather
  rw [gatherMessages_eq] at hbatch
  have hnodup : w.newRooms.Nodup := by rw [hnew]; exact List.nodup_nil
  have hlists := fun r => gather_lists r t.batch h.tracks hnodup hbatch
  have hcount : ∀ r, mid.destroyedRooms.count r
      = (acceptedDestroys t.userName r lives t.batch).length := by
    intro r
    rw [(hlists r).2, hdestroyed]
    exact Nat.zero_add _
  constructor
  · intro hall r
    rw [← hcount]
    cases hclients : t.clients with
    | nil =>
        have hnone : t.batch = [] := by rw [TickInput.batch, hclients]; rfl
        rw [hcount, hnone]
        exact Nat.zero_le 1
    | cons c clients =>
        have hc : c ∈ t.clients := by rw [hclients]; exact List.mem_cons_self
        obtain ⟨sent, hout, hnotified⟩ := hall c hc
        obtain ⟨sent', hout', hcounts⟩ := tick_notices h.tracks hgather hc
        obtain rfl := List.append_cancel_left (hout.symm.trans hout')
        rw [← (hcounts r).2, hnotified.destructions r]
        split <;> decide
  · intro honce c hc
    obtain ⟨sent, hout, hcounts⟩ := tick_notices h.tracks hgather hc
    refine ⟨sent, hout, fun r => ?_, fun r => ?_⟩
    · rw [(hcounts r).1, (hlists r).1.count]
      exact if_congr (mem_newRooms_iff h hgather r) rfl rfl
    · have hmem := mem_destroyedRooms_iff hmid t.clients t.expired r
      rw [(hcounts r).2, ← if_congr hmem rfl rfl]
      have hone : mid.destroyedRooms.count r ≤ 1 := by
        rw [hcount]
        exact honce r
      split
      case isTrue hin => exact Nat.le_antisymm hone (List.count_pos_iff.mpr hin)
      case isFalse hout => exact List.count_eq_zero_of_not_mem hout

/-- One room is created and another is destroyed. -/
def createAndDestroy : TickInput := soloTick [createRoomCreate "hall", createRoomDestroy "den"]

theorem notified_createAndDestroy : ∃ mid w' sent,
    (Worker.start ["den"]).gatherMessages createAndDestroy = .ok mid ∧
    (Worker.start ["den"]).tick createAndDestroy = .ok w' ∧ w'.messagesOut 0 = sent ∧
    Notified (Worker.start ["den"]) mid w' sent := by
  obtain ⟨w', hok⟩ := (tick_completes_iff .start createAndDestroy).mpr
    ⟨readable_roomMessage .roomCreate "hall", readable_roomMessage .roomDestroy "den", trivial⟩
  obtain ⟨mid, hgather, -⟩ := tick_ok_iff.mp hok
  have honce : ∀ r, (acceptedDestroys createAndDestroy.userName r (Lives.start ["den"])
      createAndDestroy.batch).length ≤ 1 := by
    intro r
    have hhall : (⟨0, createRoomCreate "hall", 0⟩ : Incoming).message.messageType
      ≠ .roomDestroy := by decide
    show (acceptedDestroys _ r _ [⟨0, createRoomCreate "hall", 0⟩,
      ⟨0, createRoomDestroy "den", 1⟩]).length ≤ 1
    rw [acceptedDestroys, if_neg (fun hbad => hhall hbad.1), acceptedDestroys, acceptedDestroys]
    split <;> decide
  obtain ⟨sent, hout, hnotified⟩ :=
    (notified_iff .start hgather hok).mpr honce 0 List.mem_cons_self
  exact ⟨mid, w', sent, hgather, hok, hout, hnotified⟩

/-- Both requests find the room. -/
def destroyTwice : TickInput := soloTick [createRoomDestroy "den", createRoomDestroy "den"]

theorem notified_twice : Reachable ["den"] (Worker.start ["den"]) (Lives.start ["den"]) ∧
    ∃ mid w', (Worker.start ["den"]).gatherMessages destroyTwice = .ok mid ∧
      (Worker.start ["den"]).tick destroyTwice = .ok w' ∧
      ∃ sent, w'.messagesOut 0 = sent ∧ sent.countP (isFor .roomDestroy "den") = 2 ∧
        ¬ Notified (Worker.start ["den"]) mid w' sent := by
  obtain ⟨w', hok⟩ := (tick_completes_iff .start destroyTwice).mpr
    ⟨readable_roomMessage .roomDestroy "den", readable_roomMessage .roomDestroy "den", trivial⟩
  obtain ⟨mid, hgather, hend⟩ := tick_ok_iff.mp hok
  obtain ⟨sent, hout, hcounts⟩ := tick_notices (tracks_start ["den"]) hgather
    (c := 0) List.mem_cons_self
  have hlists := gather_lists "den" destroyTwice.batch (tracks_start ["den"]) List.nodup_nil
    (gatherMessages_eq destroyTwice _ ▸ hgather)
  have haccepted : (acceptedDestroys destroyTwice.userName "den" (Lives.start ["den"])
      destroyTwice.batch).length = 2 := by decide
  have htwice : sent.countP (isFor .roomDestroy "den") = 2 := by
    rw [(hcounts "den").2, hlists.2, haccepted]
    rfl
  refine ⟨.start, mid, w', hgather, hok, sent, hend ▸ hout, htwice, ?_⟩
  intro hnotified
  have honce := hnotified.destructions "den"
  rw [htwice] at honce
  split at honce <;> cases honce

end Tavernmx.Server
