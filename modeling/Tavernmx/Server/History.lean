/-
# `Tavernmx.Server.History` — the stored history of one room

The server stores a room's chat events in a ring buffer of capacity 1000 and
answers ROOM_HISTORY from it.  `StoredFor` relates what is stored under a name to
the log of everything ever chatted in the room: no buffer for an empty log, and
otherwise a buffer that shows the last 999 entries.

`getRoomHistory` starts with the oldest entry shown and stops when the message
has as many entries as were asked for.  It compares after it added one, so a
request for 0 entries never stops it: with more than 100 entries shown it runs
into the assertion of `add_room_history_event`.
-/
import Tavernmx.Server.Worker

namespace Tavernmx.Server

open Messaging Rooms

/-- What a bounded store keeps of a log. -/
def keptLog (log : List RoomEvent) : List RoomEvent := log.rtake (chatRoomHistorySize - 1)

/-- What is stored under a name, when `log` was chatted in the room of that name. -/
def StoredFor (log : List RoomEvent) : Option (RingBuffer RoomEvent chatRoomHistorySize) → Prop
  | none => log = []
  | some buffer => log ≠ [] ∧ buffer.Holds (keptLog log)

/-- A store that keeps the right events for the empty log has no entry. -/
theorem storedFor_nil_iff {stored : Option (RingBuffer RoomEvent chatRoomHistorySize)} :
    StoredFor [] stored ↔ stored = none := by
  cases stored <;> simp [StoredFor]

/-! ## Insertion -/

theorem insertEvent_self {roomHistory : RoomHistory} {r : String} {log : List RoomEvent}
    (h : StoredFor log (roomHistory r)) (event : RoomEvent) :
    StoredFor (log ++ [event]) (insertEventIntoRoomHistory roomHistory r event r) := by
  unfold insertEventIntoRoomHistory
  cases hstored : roomHistory r with
  | none =>
      -- the first event: a new buffer
      rw [hstored] at h
      obtain rfl : log = [] := h
      simp only [Option.isSome_none, Bool.false_eq_true, if_false, Function.update_self,
        Option.map_some]
      exact ⟨by simp, RingBuffer.holds_new.insert event⟩
  | some buffer =>
      rw [hstored] at h
      obtain ⟨-, hholds⟩ := h
      simp only [Option.isSome_some, if_true, Function.update_self, hstored, Option.map_some]
      refine ⟨by simp, ?_⟩
      have := hholds.insert event
      rwa [keptLog, BoundedLog.rtake_rtake_append] at this

theorem insertEvent_of_ne {roomHistory : RoomHistory} {r s : String} (h : r ≠ s)
    (event : RoomEvent) : insertEventIntoRoomHistory roomHistory s event r = roomHistory r := by
  unfold insertEventIntoRoomHistory
  split <;> simp [Function.update_of_ne h]

/-! ## Reading -/

/-- The JSON of a stored event in a ROOM_HISTORY message. -/
def historyJson (event : RoomEvent) : Json :=
  eventJson event.timestamp.toInt32 event.originUserName event.eventText

/-- The events a request for `n` of them is answered with. -/
def shownLog (log : List RoomEvent) (n : Nat) : List RoomEvent :=
  if n = 0 then log else (keptLog log).take n

/-- While less than `n` entries are in the message, the loop adds what is missing. -/
theorem fillRoomHistory_eq {buffer : RingBuffer RoomEvent chatRoomHistorySize} {r : String}
    {n : Nat} (hn : n ≤ 100) : ∀ (ps : List (Fin chatRoomHistorySize)) (xs : List RoomEvent)
      (entries : List Json), ps.map buffer.deref = xs.map Except.ok → entries.length < n →
      fillRoomHistory buffer n ps (historyMessage r entries) =
        .ok (historyMessage r (entries ++ (xs.take (n - entries.length)).map historyJson))
  | [], xs, entries, hxs, _ => by
      obtain rfl : xs = [] := by cases xs with
        | nil => rfl
        | cons x xs => cases hxs
      simp [fillRoomHistory, pure, Except.pure]
  | p :: ps, [], entries, hxs, _ => by cases hxs
  | p :: ps, x :: xs, entries, hxs, hlt => by
      simp only [List.map_cons, List.cons.injEq] at hxs
      have hroom : entries.length < 100 := by omega
      have hcount : (Int32.ofInt (entries.length + 1 : Nat)).toInt
        = ((entries.length + 1 : Nat) : Int) :=
        Int32.toInt_ofInt_small (by omega)
      have htake : (x :: xs).take (n - entries.length)
        = x :: xs.take (n - (entries.length + 1)) := by
        rw [show n - entries.length = (n - (entries.length + 1)) + 1 by omega, List.take_succ_cons]
      rw [fillRoomHistory, hxs.1]
      simp only [bind, Except.bind, addRoomHistoryEvent_historyMessage (Nat.le_of_lt hroom),
        if_pos hroom, hcount, htake, List.map_cons]
      by_cases hlast : entries.length + 1 = n
      · rw [if_pos (by omega), hlast]
        simp [historyJson, pure, Except.pure]
      · rw [if_neg (by omega)]
        have ih := fillRoomHistory_eq (r := r) hn ps xs (entries ++ [historyJson x]) hxs.2
          (by simp; omega)
        rw [List.length_append, List.length_singleton, List.append_assoc] at ih
        exact ih

/-- Asked for no entry, the loop adds them all, if they fit into one message. -/
theorem fillRoomHistory_zero {buffer : RingBuffer RoomEvent chatRoomHistorySize} {r : String} :
    ∀ (ps : List (Fin chatRoomHistorySize)) (xs : List RoomEvent) (entries : List Json),
      ps.map buffer.deref = xs.map Except.ok → entries.length ≤ 100 →
      fillRoomHistory buffer 0 ps (historyMessage r entries) =
        if entries.length + xs.length ≤ 100 then
          .ok (historyMessage r (entries ++ xs.map historyJson))
        else .error .assertion
  | [], xs, entries, hxs, hlen => by
      obtain rfl : xs = [] := by cases xs with
        | nil => rfl
        | cons x xs => cases hxs
      simp [fillRoomHistory, pure, Except.pure, hlen]
  | p :: ps, [], entries, hxs, _ => by cases hxs
  | p :: ps, x :: xs, entries, hxs, hlen => by
      simp only [List.map_cons, List.cons.injEq] at hxs
      rw [fillRoomHistory, hxs.1]
      by_cases hroom : entries.length < 100
      · have hcount : (Int32.ofInt (entries.length + 1 : Nat)).toInt
            = ((entries.length + 1 : Nat) : Int) := Int32.toInt_ofInt_small (by omega)
        simp only [bind, Except.bind, addRoomHistoryEvent_historyMessage hlen, if_pos hroom, hcount]
        rw [if_neg (by omega)]
        have ih := fillRoomHistory_zero ps xs (entries ++ [historyJson x]) (r := r) hxs.2
          (by simp; omega)
        rw [List.length_append, List.length_singleton, List.append_assoc] at ih
        rw [show entries.length + (x :: xs).length = entries.length + 1 + xs.length by simp; omega]
        exact ih
      · simp only [bind, Except.bind, addRoomHistoryEvent_historyMessage hlen, if_neg hroom,
          List.length_cons]
        rw [if_neg (by omega)]

/-- **What `get_room_history` returns**, in terms of the room's log. -/
theorem getRoomHistory_eq {roomHistory : RoomHistory} {r : String} {log : List RoomEvent}
    (h : StoredFor log (roomHistory r)) {n : Nat} (hn : n ≤ 100) :
    getRoomHistory roomHistory r n =
      if n = 0 ∧ 100 < log.length then .error .assertion
      else .ok (historyMessage r ((shownLog log n).map historyJson)) := by
  rw [getRoomHistory, createRoomHistory_zero]
  simp only [bind, Except.bind]
  cases hstored : roomHistory r with
  | none =>
      rw [hstored] at h
      obtain rfl : log = [] := h
      simp [shownLog, keptLog, List.rtake, pure, Except.pure]
  | some buffer =>
      rw [hstored] at h
      obtain ⟨-, hholds⟩ := h
      have hlen : (keptLog log).length = min 999 log.length := BoundedLog.length_rtake _ _
      by_cases hzero : n = 0
      · subst hzero
        simp only [fillRoomHistory_zero _ _ [] hholds.mapM_deref (by simp), List.length_nil,
          Nat.zero_add, hlen, List.nil_append, shownLog, true_and, if_true]
        by_cases hfew : log.length ≤ 100
        · rw [if_pos (by omega), if_neg (by omega), keptLog,
            BoundedLog.rtake_of_length_le (by simp [chatRoomHistorySize]; omega)]
        · rw [if_neg (by omega), if_pos (by omega)]
      · simp only [fillRoomHistory_eq hn _ _ [] hholds.mapM_deref (by simp; omega),
          List.nil_append, List.length_nil, Nat.sub_zero, shownLog, hzero, false_and,
          if_false]

end Tavernmx.Server
