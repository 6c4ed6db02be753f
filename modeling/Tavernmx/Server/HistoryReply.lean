/-
# `Tavernmx.Server.HistoryReply` — which events a ROOM_HISTORY is answered with

A request can be popped at any point of step 1, so the state in which it is answered
is one in the middle of a tick: `Popping` has these states, each with the messages
of the tick that are still to be popped.

What is stored under a name is what the loop from `begin()` to `end()` reads
(`storedEvents`).  `get_room_history` takes its entries from the beginning of that,
the oldest first, and it compares the count with the number asked for after it has
added an entry:

* of a longer history the oldest entries are sent (`roomHistory_recent_iff`);
* asked for none, it sends all of them (`roomHistory_bounded_iff`).

The number is cast to 32 bits before it is compared with anything.
-/
import Tavernmx.Server.Tick
import Tavernmx.Shared.RingTraversal

namespace Tavernmx.Server

open Messaging Rooms

/-! ## In the middle of a tick -/

/-- The worker in step 1 of a tick, and the messages that are still to be popped. -/
inductive Popping (initialRooms : List String) (t : TickInput) :
    Worker → Lives → List Incoming → Prop where
  | start {w : Worker} {lives : Lives} (h : Reachable initialRooms w lives) :
      Popping initialRooms t w lives t.batch
  | pop {w w' : Worker} {lives : Lives} {m : Incoming} {ms : List Incoming}
      (h : Popping initialRooms t w lives (m :: ms))
      (hok : w.handleMessage t.userName m = .ok w') :
      Popping initialRooms t w' (lives.receive t.userName m) ms

variable {initialRooms : List String} {t : TickInput} {w : Worker} {lives : Lives}
  {m : Incoming} {ms : List Incoming}

theorem Popping.tracks (h : Popping initialRooms t w lives ms) : Tracks w lives := by
  induction h with
  | start h => exact h.tracks
  | pop _ hok ih => exact handle_refines t.userName ih hok

/-- The events that a loop over the stored history of a room reads. -/
def storedEvents (roomHistory : RoomHistory) (r : String) : List RoomEvent :=
  match roomHistory r with
  | some buffer => buffer.forward.getD []
  | none => []

theorem StoredFor.storedEvents_eq {log : List RoomEvent} {roomHistory : RoomHistory} {r : String}
    (h : StoredFor log (roomHistory r)) : storedEvents roomHistory r = keptLog log := by
  rw [storedEvents]
  cases hstored : roomHistory r with
  | none =>
      rw [hstored] at h
      obtain rfl : log = [] := h
      rfl
  | some buffer =>
      rw [hstored] at h
      simp only [h.2.forward_eq, Option.getD_some]

/-- Between one and a hundred entries: the oldest that are stored. -/
theorem Tracks.getRoomHistory_eq (h : Tracks w lives) (r : String) {n : Nat} (hpos : 1 ≤ n)
    (hmax : n ≤ 100) : getRoomHistory w.roomHistory r n
      = .ok (historyMessage r (((storedEvents w.roomHistory r).take n).map historyJson)) := by
  have hstored := (h.named r).stored
  have hzero : ¬ n = 0 := by omega
  rw [Server.getRoomHistory_eq hstored hmax, if_neg (fun hbad => hzero hbad.1), shownLog,
    if_neg hzero, hstored.storedEvents_eq]

/-! ## Recent events -/

/-- The events in a ROOM_HISTORY message. -/
def messageEvents (message : Message) : List Json :=
  match message.values.find? "events" with
  | some (.array events) => events
  | _ => []

theorem messageEvents_historyMessage (r : String) (events : List Json) :
    messageEvents (historyMessage r events) = events := by
  rw [messageEvents]
  cases events with
  | nil => rfl
  | cons event events => simp [historyMessage, Json.lookup_cons]

/-- **The most recent events are sent exactly when no others are stored**, or when the
stored events repeat themselves so that the oldest look like the most recent. -/
theorem roomHistory_recent_iff (h : Popping initialRooms t w lives ms) (r : String) {n : Nat}
    (hpos : 1 ≤ n) (hmax : n ≤ 100) :
    (∃ message, getRoomHistory w.roomHistory r n = .ok message ∧
      messageEvents message = ((storedEvents w.roomHistory r).rtake n).map historyJson) ↔
    (storedEvents w.roomHistory r).length ≤ n ∨
      BoundedLog.Periodic ((storedEvents w.roomHistory r).length - n)
        ((storedEvents w.roomHistory r).map historyJson) := by
  have hreply := h.tracks.getRoomHistory_eq r hpos hmax
  have hrtake : ((storedEvents w.roomHistory r).rtake n).map historyJson
      = ((storedEvents w.roomHistory r).map historyJson).rtake n := by
    rw [List.rtake, List.map_drop, List.rtake, List.length_map]
  have hiff := BoundedLog.take_eq_rtake_iff n ((storedEvents w.roomHistory r).map historyJson)
  rw [List.length_map] at hiff
  rw [← hiff, hrtake, ← List.map_take]
  constructor
  · rintro ⟨message, hok, hevents⟩
    obtain rfl := Except.ok.inj (hreply.symm.trans hok)
    rwa [messageEvents_historyMessage] at hevents
  · intro hsame
    exact ⟨_, hreply, (messageEvents_historyMessage _ _).trans hsame⟩

/-- A tick in which the room is joined and two lines are chatted in it. -/
def chatTwice : TickInput :=
  soloTick [createRoomJoin "den", chatSend "den" "one", chatSend "den" "two"]

theorem chatTwice_passes :
    Fallible.Passes SafeMessage (Lives.receive chatTwice.userName) (Lives.start ["den"])
      chatTwice.batch := by
  obtain ⟨hone, honeText⟩ := readable_chatSend "den" "one"
  obtain ⟨htwo, htwoText⟩ := readable_chatSend "den" "two"
  exact ⟨readable_roomMessage .roomJoin "den", ⟨hone, fun _ => honeText⟩,
    ⟨htwo, fun _ => htwoText⟩, trivial⟩

theorem chatTwice_reachable : ∃ w, Reachable ["den"] w ((Lives.start ["den"]).tick chatTwice) ∧
    storedEvents w.roomHistory "den" = [⟨1, "ann", "one"⟩, ⟨2, "ann", "two"⟩] := by
  obtain ⟨w, hok⟩ := (tick_completes_iff .start chatTwice).mpr chatTwice_passes
  have hreach : Reachable ["den"] w ((Lives.start ["den"]).tick chatTwice) := .tick _ .start hok
  refine ⟨w, hreach, ?_⟩
  rw [(hreach.tracks.named "den").stored.storedEvents_eq]
  decide

/-- Asked for two events, the room has no others. -/
theorem roomHistory_recent_two : ∃ (w : Worker) (message : Message),
    getRoomHistory w.roomHistory "den" 2 = .ok message ∧
      messageEvents message = [historyJson ⟨1, "ann", "one"⟩, historyJson ⟨2, "ann", "two"⟩] := by
  obtain ⟨w, hreach, hstored⟩ := chatTwice_reachable
  have hrecent := (roomHistory_recent_iff (.start (t := chatTwice) hreach) "den" (n := 2)
    (by decide) (by decide)).mpr (Or.inl (by rw [hstored]; decide))
  obtain ⟨message, hok, hevents⟩ := hrecent
  rw [hstored] at hevents
  exact ⟨w, message, hok, hevents⟩

/-- Asked for one event, the server sends the older one. -/
theorem roomHistory_oldest : ∃ (w : Worker) (lives : Lives), Reachable ["den"] w lives ∧
    storedEvents w.roomHistory "den" = [⟨1, "ann", "one"⟩, ⟨2, "ann", "two"⟩] ∧
    ∃ message, getRoomHistory w.roomHistory "den" 1 = .ok message ∧
      messageEvents message = [historyJson ⟨1, "ann", "one"⟩] ∧
      messageEvents message ≠ ((storedEvents w.roomHistory "den").rtake 1).map historyJson := by
  obtain ⟨w, hreach, hstored⟩ := chatTwice_reachable
  have hreply := hreach.tracks.getRoomHistory_eq "den" (n := 1) (by decide) (by decide)
  rw [hstored] at hreply
  refine ⟨w, _, hreach, hstored, _, hreply, messageEvents_historyMessage _ _, ?_⟩
  rw [messageEvents_historyMessage, hstored]
  intro hsame
  have htext := congrArg (List.map fun event : Json =>
    (event.valueOr Json.getString "text" "").toOption) hsame
  revert htext
  decide

/-! ## How many events -/

/-- The number that a request asks for, before it is cast: 0 when there is none. -/
def requestedCount (message : Message) : Option Int :=
  match message.values.find? "event_count" with
  | none => some 0
  | some (.integer n) => some n
  | _ => none

theorem eventCount_of_requested {n : Int} (h : requestedCount m.message = some n) :
    m.message.readable Int32 "event_count" ∧ m.eventCount = Int32.ofInt n := by
  have hok : messageValueOr Int32 m.message "event_count" 0 = .ok (Int32.ofInt n) := by
    rw [requestedCount] at h
    cases hfield : m.message.values.find? "event_count" with
    | none =>
        rw [hfield] at h
        obtain rfl : 0 = n := Option.some.inj h
        rw [messageValueOr, hfield]
        rfl
    | some value =>
        rw [hfield] at h
        cases value with
        | integer k =>
            obtain rfl : k = n := Option.some.inj h
            rw [messageValueOr, hfield]
            rfl
        | null | boolean | float | string | binary | array | object => cases h
  obtain ⟨hcount, hread⟩ := eventCount_of_ok hok
  exact ⟨hread, hcount.symm⟩

/-- The cast keeps the number modulo 2³², so numbers past 2³² can come into range. -/
theorem cast_inRange_iff (n : Int) :
    (0 ≤ Int32.ofInt n ∧ Int32.ofInt n ≤ roomHistoryMaxEntries) ↔ n % 2 ^ 32 ≤ 100 := by
  have hzero : (0 : Int32).toInt = 0 := rfl
  have hmax : roomHistoryMaxEntries.toInt = 100 := rfl
  have hsize : (Int32.size : Int) = 2 ^ 32 := rfl
  rw [Int32.le_iff_toInt_le, Int32.le_iff_toInt_le, hzero, hmax, Int32.toInt_ofInt, Int.bmod_def,
    hsize]
  split <;> omega

/-- What the replies to one request for `n` events should be, when `stored` are stored. -/
structure CountBound (stored : Nat) (n : Int) (replies : List Message) : Prop where
  single : replies.length ≤ 1
  replied : replies ≠ [] ↔ 0 ≤ n ∧ n ≤ 100
  counted : ∀ reply ∈ replies, (messageEvents reply).length = min n.toNat stored ∧
    reply.values.find? "event_count" = some (.integer (messageEvents reply).length)

/-- A message is answered with what the specification says, if it is handled at all. -/
theorem Tracks.answered_iff (h : Tracks w lives) {userName : ConnId → String}
    (htype : m.message.messageType = .roomHistory) (P : List Message → Prop) :
    (∃ w' replies, w.handleMessage userName m = .ok w' ∧
      w'.messagesOut = Mailbox.push w.messagesOut m.client replies ∧ P replies) ↔
    SafeMessage lives m ∧ P (historyReply lives m) := by
  have hreplies : ∀ w', w.handleMessage userName m = .ok w' →
      w'.messagesOut = Mailbox.push w.messagesOut m.client (historyReply lives m) := by
    intro w' hok
    obtain ⟨replies, hreplies, hout⟩ := (handled_of_ok h hok).replies
    simp only [Replies, htype] at hreplies
    rw [hout, hreplies]
  rw [← handle_guarded userName h]
  constructor
  · rintro ⟨w', replies, hok, hout, hP⟩
    have hsame := congrFun (hout.symm.trans (hreplies w' hok)) m.client
    rw [Mailbox.push_self, Mailbox.push_self] at hsame
    exact ⟨⟨w', hok⟩, List.append_cancel_left hsame ▸ hP⟩
  · rintro ⟨⟨w', hok⟩, hP⟩
    exact ⟨w', _, hok, hreplies w' hok, hP⟩

theorem counted_historyMessage (r : String) (events : List Json) :
    (historyMessage r events).values.find? "event_count" = some (.integer events.length) := by
  simp [historyMessage]

/-- No reply is right for the numbers out of range. -/
theorem countBound_nil_iff (stored : Nat) (n : Int) :
    CountBound stored n [] ↔ ¬ (0 ≤ n ∧ n ≤ 100) := by
  constructor
  · intro h hrange
    exact h.replied.mpr hrange rfl
  · intro hrange
    exact ⟨Nat.zero_le 1, iff_of_false (fun hbad => hbad rfl) hrange,
      fun reply hreply => absurd hreply List.not_mem_nil⟩

/-- One reply is right for the others, when it has the right number of events. -/
theorem countBound_singleton_iff (stored : Nat) (n : Int) (r : String) (events : List Json) :
    CountBound stored n [historyMessage r events] ↔
      (0 ≤ n ∧ n ≤ 100) ∧ events.length = min n.toNat stored := by
  constructor
  · intro h
    obtain ⟨hlen, -⟩ := h.counted _ (List.mem_singleton_self _)
    rw [messageEvents_historyMessage] at hlen
    exact ⟨h.replied.mp (List.cons_ne_nil _ _), hlen⟩
  · rintro ⟨hrange, hlen⟩
    refine ⟨Nat.le_refl 1, iff_of_true (List.cons_ne_nil _ _) hrange, ?_⟩
    intro reply hreply
    obtain rfl := List.mem_singleton.mp hreply
    rw [messageEvents_historyMessage, counted_historyMessage]
    exact ⟨hlen, rfl⟩

theorem length_shownLog (log : List RoomEvent) (n : Nat) :
    (shownLog log n).length = if n = 0 then log.length else min n (keptLog log).length := by
  rw [shownLog]
  split
  · rfl
  · exact List.length_take

/-- The requests that are answered as they should be. -/
theorem countBound_iff {life : RoomLife} {n : Int} (hlife : lives m.roomName = some life)
    (hcount : m.eventCount = Int32.ofInt n) :
    ((m.eventCount = 0 → life.log.length ≤ 100) ∧
      CountBound (keptLog life.log).length n (historyReply lives m)) ↔
    100 < n % 2 ^ 32 ∨ (1 ≤ n ∧ n ≤ 100) ∨ (n = 0 ∧ keptLog life.log = []) := by
  have hkept : (keptLog life.log).length = min 999 life.log.length := BoundedLog.length_rtake _ _
  have hzero : Int32.ofInt n = 0 ↔ (Int32.ofInt n).toInt = 0 := by
    rw [← Int32.toInt_inj]
    rfl
  have hrange := cast_inRange_iff n
  rw [historyReply, hlife, hcount, ← List.length_eq_zero_iff, hkept]
  by_cases hin : n % 2 ^ 32 ≤ 100
  · -- the number comes into range, and there is one reply
    have hcast : 0 ≤ n ∧ n ≤ 100 → (Int32.ofInt n).toInt = n := by
      rintro ⟨hmin, hmax⟩
      exact Int32.toInt_ofInt_of_le (by omega) (by omega)
    simp only [if_pos (hrange.mpr hin), countBound_singleton_iff, List.length_map, length_shownLog,
      hkept]
    constructor
    · rintro ⟨-, hn, hlen⟩
      rw [hcast hn] at hlen
      split at hlen <;> omega
    · intro hgood
      have hn : 0 ≤ n ∧ n ≤ 100 := by omega
      rw [hzero, hcast hn]
      refine ⟨by omega, hn, ?_⟩
      split <;> omega
  · -- it does not, and there is none
    simp only [if_neg fun hbad => hin (hrange.mp hbad), countBound_nil_iff]
    refine iff_of_true ⟨fun hnone => ?_, by omega⟩ (Or.inl (Int.not_le.mp hin))
    exact absurd (hrange.mp (by rw [hnone]; decide)) hin

theorem Tracks.safe_and_bounded_iff {n : Int} (h : Tracks w lives)
    (htype : m.message.messageType = .roomHistory)
    (hname : m.message.readable String "room_name")
    (hroom : (w.rooms.find? m.roomName).isSome) (hcount : requestedCount m.message = some n) :
    (SafeMessage lives m ∧
      CountBound (storedEvents w.roomHistory m.roomName).length n (historyReply lives m)) ↔
    100 < n % 2 ^ 32 ∨ (1 ≤ n ∧ n ≤ 100) ∨
      (n = 0 ∧ storedEvents w.roomHistory m.roomName = []) := by
  obtain ⟨hread, hcast⟩ := eventCount_of_requested hcount
  have hnamed := h.named m.roomName
  rw [hnamed.room, Option.isSome_map] at hroom
  obtain ⟨life, hlife⟩ := Option.isSome_iff_exists.mp hroom
  have hlog : logOf (lives m.roomName) = life.log := by rw [hlife]; rfl
  rw [hnamed.stored.storedEvents_eq, hlog, ← countBound_iff hlife hcast]
  simp only [SafeMessage, htype, hname, hread, hlog, true_and]

/-- **The bound on the number of events is kept exactly when the number stays out of range
under the cast, or is between 1 and 100, or is 0 while nothing is stored.** -/
theorem roomHistory_bounded_iff {n : Int} (h : Popping initialRooms t w lives (m :: ms))
    (htype : m.message.messageType = .roomHistory)
    (hname : m.message.readable String "room_name")
    (hroom : (w.rooms.find? m.roomName).isSome) (hcount : requestedCount m.message = some n) :
    (∃ w' replies, w.handleMessage t.userName m = .ok w' ∧
      w'.messagesOut = Mailbox.push w.messagesOut m.client replies ∧
      CountBound (storedEvents w.roomHistory m.roomName).length n replies) ↔
    100 < n % 2 ^ 32 ∨ (1 ≤ n ∧ n ≤ 100) ∨
      (n = 0 ∧ storedEvents w.roomHistory m.roomName = []) := by
  rw [h.tracks.answered_iff htype]
  exact h.tracks.safe_and_bounded_iff htype hname hroom hcount

/-- A request for the history of the room, with what is given of its count. -/
def askHistory (count : List (String × Json)) : Message :=
  ⟨.roomHistory, .ofPairs (("room_name", .string "den") :: count)⟩

/-- The state after the two lines, and a request popped in it. -/
theorem askHistory_popped (count : List (String × Json))
    (hname : (askHistory count).values.find? "room_name" = some (.string "den")) :
    ∃ (w : Worker) (lives : Lives),
      Popping ["den"] (soloTick [askHistory count]) w lives [⟨0, askHistory count, 0⟩] ∧
      (askHistory count).readable String "room_name" ∧ Incoming.roomName ⟨0, askHistory count, 0⟩
        = "den" ∧ (w.rooms.find? "den").isSome ∧
      storedEvents w.roomHistory "den" = [⟨1, "ann", "one"⟩, ⟨2, "ann", "two"⟩] := by
  obtain ⟨w, hreach, hstored⟩ := chatTwice_reachable
  have hroom : (w.rooms.find? "den").isSome := by
    rw [(hreach.tracks.named "den").room]
    rfl
  exact ⟨w, _, .start hreach, readable_of_ok (messageValueOr_of_find? hname ""),
    text_of_find? hname, hroom, hstored⟩

/-- Asked for one event, the server sends one. -/
theorem roomHistory_bounded_one : ∃ (w w' : Worker) (replies : List Message),
    w.handleMessage (fun _ => "ann") ⟨0, askHistory [("event_count", .integer 1)], 0⟩ = .ok w' ∧
      w'.messagesOut = Mailbox.push w.messagesOut 0 replies ∧ CountBound 2 1 replies := by
  obtain ⟨w, lives, hpop, hread, hname, hroom, hstored⟩ :=
    askHistory_popped [("event_count", .integer 1)] (by simp [askHistory, Json.ofPairs])
  have hcount : requestedCount (askHistory [("event_count", .integer 1)]) = some 1 := by
    simp [requestedCount, askHistory, Json.ofPairs]
  have hbound := (roomHistory_bounded_iff hpop rfl hread (hname ▸ hroom) hcount).mpr
    (Or.inr (Or.inl (by decide)))
  rw [hname, hstored] at hbound
  exact ⟨w, hbound⟩

/-- A request without a count asks for no events, and is sent both. -/
theorem roomHistory_unbounded : ∃ (w : Worker) (lives : Lives) (m : Incoming),
    Popping ["den"] (soloTick [askHistory []]) w lives [m] ∧
    m.message.messageType = .roomHistory ∧ requestedCount m.message = some 0 ∧
    (w.rooms.find? m.roomName).isSome ∧
    ¬ ∃ w' replies, w.handleMessage (fun _ => "ann") m = .ok w' ∧
      w'.messagesOut = Mailbox.push w.messagesOut m.client replies ∧
      CountBound (storedEvents w.roomHistory m.roomName).length 0 replies := by
  obtain ⟨w, lives, hpop, hread, hname, hroom, hstored⟩ :=
    askHistory_popped [] (find?_roomMessage .roomHistory "den")
  have hcount : requestedCount (askHistory []) = some 0 := by
    simp [requestedCount, askHistory, Json.ofPairs, Json.lookup_cons]
  refine ⟨w, lives, _, hpop, rfl, hcount, hname ▸ hroom, ?_⟩
  rw [hpop.tracks.answered_iff rfl,
    hpop.tracks.safe_and_bounded_iff rfl hread (hname ▸ hroom) hcount]
  rintro (hbig | ⟨hpos, -⟩ | ⟨-, hnone⟩)
  · exact absurd hbig (by decide)
  · exact absurd hpos (by decide)
  · rw [hname, hstored] at hnone
    cases hnone

end Tavernmx.Server
