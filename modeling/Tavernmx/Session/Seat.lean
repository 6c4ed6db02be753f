/-
# `Tavernmx.Session.Seat` — one client and one room

Whether a client and the server agree about a room depends on that room, on the
messages between the two, and on little else.  A `Seat` is this much of the whole
system: the life of the room `r` on the server, whether the client `c` is
connected and takes part in the tick, the requests it sent that are not handled
yet, what was announced to it about `r`, and what its window has of `r`.

    connect   the client connects, with whatever rooms its last session left
    leave     its connection ends
    begin     a tick begins; the connected clients take part in it
    serve     step 1 handles one message, of this client or of another
    finish    steps 2 and 3
    hear      the window handles a message, or the user picks a room
    ask       the client sends something else

`Seat.Basic` holds in every reachable state.  The later modules add one invariant
for each property, and `Session.Tavern` shows that the whole system, looked at
from one seat, is a run of this one.
-/
import Tavernmx.Lib.Runs
import Tavernmx.Server.Tick
import Tavernmx.Session.Notice

namespace Tavernmx.Session

open Messaging Rooms Server Client

/-! ## How the life of a room goes on -/

/-- What one message can do to a room that exists. -/
structure Grows (r : String) (m : Incoming) (life life' : RoomLife) : Prop where
  told : life'.told = life.told
  doomed : life.doomed = true → life'.doomed = true
  fresh : life'.fresh = life.fresh
  members : ∀ x ∈ life.members, x ∈ life'.members
  newMembers : ∀ x ∈ life'.members, x ∈ life.members ∨ x = m.client
  joined : m.message = createRoomJoin r → m.client ∈ life'.members
  log : life.log.length ≤ life'.log.length

variable {userName : ConnId → String} {r : String} {m : Incoming}

theorem grows_refl (r : String) (m : Incoming) (life : RoomLife)
    (h : m.message ≠ createRoomJoin r) : Grows r m life life :=
  ⟨rfl, id, rfl, fun _ => id, fun _ => Or.inl, fun hjoin => absurd hjoin h, Nat.le_refl _⟩

theorem grows_join (r : String) (m : Incoming) (life : RoomLife) :
    Grows r m life (life.join m.client) := by
  unfold RoomLife.join
  split
  case isTrue h => exact ⟨rfl, id, rfl, fun _ => id, fun _ => Or.inl, fun _ => h, Nat.le_refl _⟩
  case isFalse h =>
    refine ⟨rfl, id, rfl, ?_, ?_, fun _ => List.mem_append_right _ List.mem_cons_self,
      Nat.le_refl _⟩
    · intro x hx
      exact List.mem_append_left _ hx
    · intro x hx
      rcases List.mem_append.mp hx with hx | hx
      · exact Or.inl hx
      · exact Or.inr (List.mem_singleton.mp hx)

/-- A room that exists goes on existing. -/
theorem receive_some (userName : ConnId → String) (r : String) (m : Incoming) (life : RoomLife) :
    ∃ life', RoomLife.receive userName r (some life) m = some life' ∧ Grows r m life life' := by
  by_cases hr : m.roomName = r
  · cases ht : m.message.messageType with
    | roomJoin =>
        exact ⟨life.join m.client, by simp [RoomLife.receive, hr, ht], grows_join r m life⟩
    | roomDestroy =>
        have hjoin : m.message ≠ createRoomJoin r := by
          intro h
          rw [h] at ht
          cases ht
        exact ⟨life.doom, by simp [RoomLife.receive, hr, ht], rfl, fun _ => rfl, rfl, fun _ => id,
          fun _ => Or.inl, fun h => absurd h hjoin, Nat.le_refl _⟩
    | chatSend =>
        have hjoin : m.message ≠ createRoomJoin r := by
          intro h
          rw [h] at ht
          cases ht
        exact ⟨life.hear (m.event userName), by simp [RoomLife.receive, hr, ht], rfl, id, rfl,
          fun _ => id, fun _ => Or.inl, fun h => absurd h hjoin, by simp⟩
    | _ =>
        refine ⟨life, by simp [RoomLife.receive, hr, ht], grows_refl r m life ?_⟩
        intro h
        rw [h] at ht
        cases ht
  · refine ⟨life, RoomLife.receive_of_ne hr _, grows_refl r m life ?_⟩
    intro h
    rw [Incoming.roomName, h, createRoomJoin, text_roomMessage] at hr
    exact hr rfl

/-- A room that does not exist stays away, or is created by the sender. -/
theorem receive_none (userName : ConnId → String) (r : String) (m : Incoming) :
    RoomLife.receive userName r none m = none ∨
      RoomLife.receive userName r none m = some (.born m.client) := by
  unfold RoomLife.receive
  split
  · split
    · split
      · exact Or.inr rfl
      · exact Or.inl rfl
    all_goals exact Or.inl rfl
  · exact Or.inl rfl

theorem endTick_doomed {expired : ConnId → Bool} {life : RoomLife} (h : life.doomed = true) :
    RoomLife.endTick expired (some life) = none := by
  simp [RoomLife.endTick, h]

theorem endTick_kept {expired : ConnId → Bool} {life : RoomLife} (h : life.doomed = false) :
    RoomLife.endTick expired (some life) = some (life.settle expired) := by
  simp [RoomLife.endTick, h]

/-! ## The system of one seat -/

/-- What the sender of a message is answered about the room. -/
def answer (r : String) (life : Option RoomLife) (m : Incoming) : List Notice :=
  match m.message.messageType with
  | .roomList => [.listed life.isSome]
  | .roomHistory =>
      match life with
      | some life =>
          if m.roomName = r ∧ 0 ≤ m.eventCount ∧ m.eventCount ≤ roomHistoryMaxEntries then
            [.history ((shownLog life.log m.eventCount.toInt.toNat).map asShown)]
          else []
      | none => []
  | _ => []

/-- The events of the room as `c` is sent them at the end of the tick. -/
def echoNotices (expired : ConnId → Bool) (c : ConnId) : Option RoomLife → List Notice
  | some life =>
      if c ∈ life.members ∧ expired c = false then
        life.pending.map fun event => .echo (asShown event)
      else []
  | none => []

/-- What step 2a announces of the room, to a client that takes part in the tick. -/
def announcements (attends : Bool) (creations destructions : Nat) : List Notice :=
  if attends then
    List.replicate creations .created ++ List.replicate destructions .destroyed
  else []

structure Seat where
  /-- The room on the server. -/
  life : Option RoomLife
  ticking : Bool
  /-- The client has connected, at some time. -/
  arrived : Bool
  /-- Its connection is active. -/
  present : Bool
  /-- It takes part in the tick. -/
  attends : Bool
  /-- What it sent and the server has not handled. -/
  requests : List Message
  /-- What its window has handled of what it was sent about the room. -/
  heard : List Notice
  /-- What it has not handled yet. -/
  inbox : List Notice
  known : Bool
  joined : Bool
  shown : Option (List RoomEvent)

namespace Seat

/-- Everything the client was sent about the room. -/
def sent (s : Seat) : List Notice := s.heard ++ s.inbox

/-- A ROOM_LIST request of the client has been answered. -/
def Answered (s : Seat) : Prop := ∃ present, Notice.listed present ∈ s.sent

/-- The client is connected, or was when the tick began. -/
def Counts (s : Seat) : Prop := s.present = true ∨ s.attends = true

end Seat

inductive SeatAction where
  | connect
  | leave
  | begin
  | serve (m : Incoming)
  | finish
  | hear
  | ask (message : Message)

inductive SeatStep (userName : ConnId → String) (c : ConnId) (r : String) :
    Seat → SeatAction → Seat → Prop where
  | connect {s : Seat} (known joined : Bool) (harrived : s.arrived = false)
      (hjoined : joined = true → known = true) :
      SeatStep userName c r s .connect { s with
        arrived := true
        present := true
        requests := [createRoomListRequest]
        known
        joined
        shown := none }
  | leave {s : Seat} : SeatStep userName c r s .leave { s with present := false }
  | begin {s : Seat} (hidle : s.ticking = false) :
      SeatStep userName c r s .begin { s with ticking := true, attends := s.present }
  | serveOther {s : Seat} (m : Incoming) (hticking : s.ticking = true) (hother : m.client ≠ c) :
      SeatStep userName c r s (.serve m) { s with life := RoomLife.receive userName r s.life m }
  | serveOwn {s : Seat} (m : Incoming) (rest : List Message) (hticking : s.ticking = true)
      (hattends : s.attends = true) (hown : m.client = c)
      (hrequests : s.requests = m.message :: rest) :
      SeatStep userName c r s (.serve m) { s with
        life := RoomLife.receive userName r s.life m
        requests := rest
        inbox := s.inbox ++ answer r s.life m }
  | finish {s : Seat} (expired : ConnId → Bool) (creations destructions : Nat)
      (hticking : s.ticking = true) (hlive : s.Counts → expired c = false)
      (hcreations : 0 < creations ↔ s.life.any (·.fresh) = true)
      (hdestructions : 0 < destructions ↔ s.life.any (·.doomed) = true) :
      SeatStep userName c r s .finish { s with
        life := RoomLife.endTick expired s.life
        ticking := false
        attends := false
        inbox := s.inbox ++
          (announcements s.attends creations destructions ++ echoNotices expired c s.life) }
  | hear {s : Seat} (notice : Option Notice) (rest : List Notice) (known joined : Bool)
      (shown : Option (List RoomEvent)) (pushed : List Message)
      (hinbox : s.inbox = notice.toList ++ rest)
      (hknown : known = notice.toList.foldl Notice.knows s.known)
      (hjoinedKnown : joined = true → known = true)
      (hjoined : joined = true →
        (s.joined = true ∧ ∀ n ∈ notice, n.resets = false) ∨ pushed = joinRequests r)
      (hshown : known = true → (∀ n ∈ notice, n.resets = false) →
        shown = notice.toList.foldl Notice.shows s.shown)
      (hpushed : pushed = [] ∨ ∃ name, pushed = joinRequests name) :
      SeatStep userName c r s .hear { s with
        requests := s.requests ++ pushed
        heard := s.heard ++ notice.toList
        inbox := rest
        known
        joined
        shown }
  | ask {s : Seat} (message : Message) :
      SeatStep userName c r s (.ask message) { s with requests := s.requests ++ [message] }

/-- Nobody has connected yet, and no tick is running. -/
structure SeatStarts (s : Seat) : Prop where
  idle : s.ticking = false
  quiet : ∀ life ∈ s.life, life.Quiet ∧ life.members = []
  arrived : s.arrived = false
  present : s.present = false
  attends : s.attends = false
  requests : s.requests = []
  sent : s.sent = []
  joined : s.joined = true → s.known = true

def seating (userName : ConnId → String) (c : ConnId) (r : String) :
    LabelledSystem Seat SeatAction where
  init := SeatStarts
  step := SeatStep userName c r

/-! ## What holds at every seat -/

/-- `c` has not joined the room, if there is one. -/
def Outside (c : ConnId) (life : Option RoomLife) : Prop := ∀ l ∈ life, c ∉ l.members

variable {c : ConnId} {life : Option RoomLife}

/-- Nobody but the sender of a message joins by it. -/
theorem Outside.receive (h : Outside c life) (hother : m.client ≠ c) :
    Outside c (RoomLife.receive userName r life m) := by
  intro l hl hmem
  cases life with
  | none =>
      rcases receive_none userName r m with hnone | hborn
      · rw [hnone] at hl
        cases hl
      · rw [hborn] at hl
        obtain rfl := Option.some.inj hl
        exact hother (List.mem_singleton.mp hmem).symm
  | some old =>
      obtain ⟨new, hnew, hgrows⟩ := receive_some userName r m old
      rw [hnew] at hl
      obtain rfl := Option.some.inj hl
      rcases hgrows.newMembers c hmem with hold | hsender
      · exact h old rfl hold
      · exact hother hsender.symm

theorem Outside.endTick (h : Outside c life) (expired : ConnId → Bool) :
    Outside c (RoomLife.endTick expired life) := by
  intro l hl hmem
  cases life with
  | none => cases hl
  | some old =>
      cases hdoomed : old.doomed with
      | true =>
          rw [endTick_doomed hdoomed] at hl
          cases hl
      | false =>
          rw [endTick_kept hdoomed] at hl
          obtain rfl := Option.some.inj hl
          exact h old rfl (List.mem_filter.mp hmem).1

theorem Outside.echoNotices (h : Outside c life) (expired : ConnId → Bool) :
    echoNotices expired c life = [] := by
  cases life with
  | none => rfl
  | some l => exact if_neg fun hc => h l rfl hc.1

structure Seat.Basic (c : ConnId) (s : Seat) : Prop where
  attends : s.attends = true → s.ticking = true
  quiet : s.ticking = false → ∀ life ∈ s.life, life.Quiet
  absent : s.arrived = false →
    s.present = false ∧ s.attends = false ∧ s.sent = [] ∧ Outside c s.life
  /-- Who connects while a tick runs is sent nothing in it. -/
  newcomer : s.present = true → s.attends = false → s.ticking = true →
    s.sent = [] ∧ Outside c s.life
  joined : s.joined = true → s.known = true

variable {s s' : Seat} {a : SeatAction}

theorem basic_of_starts (h : SeatStarts s) : s.Basic c := by
  have houtside : Outside c s.life := by
    intro l hl
    rw [(h.quiet l hl).2]
    exact List.not_mem_nil
  refine ⟨?_, fun _ l hl => (h.quiet l hl).1, ?_, ?_, h.joined⟩
  · intro hattends
    rw [h.attends] at hattends
    cases hattends
  · intro _
    exact ⟨h.present, h.attends, h.sent, houtside⟩
  · intro _ _ _
    exact ⟨h.sent, houtside⟩

/-- Handling a message does not change what was sent. -/
theorem sent_hear {notice : Option Notice} {rest : List Notice}
    (hinbox : s.inbox = notice.toList ++ rest) :
    (s.heard ++ notice.toList) ++ rest = s.sent := by
  rw [Seat.sent, hinbox, List.append_assoc]

theorem basic_step (h : s.Basic c) (hstep : SeatStep userName c r s a s') : s'.Basic c := by
  cases hstep with
  | connect known joined harrived hjoined =>
      obtain ⟨-, -, hsent, houtside⟩ := h.absent harrived
      exact ⟨h.attends, h.quiet, (fun h => by cases h), fun _ _ _ => ⟨hsent, houtside⟩, hjoined⟩
  | leave =>
      refine ⟨h.attends, h.quiet, ?_, (fun h => by cases h), h.joined⟩
      intro harrived
      exact ⟨rfl, (h.absent harrived).2⟩
  | begin hidle =>
      refine ⟨fun _ => rfl, (fun h => by cases h), ?_, ?_, h.joined⟩
      · intro harrived
        obtain ⟨hpresent, -, hrest⟩ := h.absent harrived
        exact ⟨hpresent, hpresent, hrest⟩
      · intro hpresent hattends
        exact absurd (hpresent.symm.trans hattends) (by decide)
  | serveOther m hticking hother =>
      refine ⟨h.attends, ?_, ?_, ?_, h.joined⟩
      · intro hidle
        exact absurd (hticking.symm.trans hidle) (by decide)
      · intro harrived
        obtain ⟨hpresent, hattends, hsent, houtside⟩ := h.absent harrived
        exact ⟨hpresent, hattends, hsent, houtside.receive hother⟩
      · intro hpresent hattends _
        obtain ⟨hsent, houtside⟩ := h.newcomer hpresent hattends hticking
        exact ⟨hsent, houtside.receive hother⟩
  | serveOwn m rest hticking hattends hown hrequests =>
      refine ⟨fun _ => hticking, ?_, ?_, ?_, h.joined⟩
      · intro hidle
        exact absurd (hticking.symm.trans hidle) (by decide)
      · intro harrived
        obtain ⟨-, hnot, -⟩ := h.absent harrived
        exact absurd (hattends.symm.trans hnot) (by decide)
      · intro _ hnot
        exact absurd (hattends.symm.trans hnot) (by decide)
  | finish expired creations destructions hticking hlive hcreations hdestructions =>
      refine ⟨(fun h => by cases h), ?_, ?_, ?_, h.joined⟩
      · intro _ l hl
        exact RoomLife.quiet_of_endTick hl
      · intro harrived
        obtain ⟨hpresent, hattends, hsent, houtside⟩ := h.absent harrived
        refine ⟨hpresent, rfl, ?_, houtside.endTick expired⟩
        obtain ⟨hheard, hinbox⟩ := List.append_eq_nil_iff.mp hsent
        simp [Seat.sent, hheard, hinbox, hattends, announcements, houtside.echoNotices]
      · intro _ _ hticking'
        cases hticking'
  | hear notice rest known joined shown pushed hinbox hknown hjoinedKnown hjoined hshown hpushed =>
      have hsent := sent_hear hinbox
      refine ⟨h.attends, h.quiet, ?_, ?_, hjoinedKnown⟩
      · intro harrived
        obtain ⟨hpresent, hattends, hnothing, houtside⟩ := h.absent harrived
        exact ⟨hpresent, hattends, hsent.trans hnothing, houtside⟩
      · intro hpresent hattends hticking
        obtain ⟨hnothing, houtside⟩ := h.newcomer hpresent hattends hticking
        exact ⟨hsent.trans hnothing, houtside⟩
  | ask message => exact ⟨h.attends, h.quiet, h.absent, h.newcomer, h.joined⟩

variable {allowed : Seat → SeatAction → Prop}

theorem basic_reachable (h : (seating userName c r).Reachable allowed s) : s.Basic c := by
  refine h.invariant ?_ ?_
  · intro s hs
    exact basic_of_starts hs
  · intro s a s' _ ih _ hstep
    exact basic_step ih hstep

end Tavernmx.Session
