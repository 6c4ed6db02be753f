/-
# `Tavernmx.Session.Agreement` — client and server agree on the rooms

The server answers a ROOM_LIST in the middle of a tick and announces creations
and destructions at its end, so what is on its way to a client overlaps.  What
cancels out is said by `Agrees`: once a client was answered, what it will think
of a room when it has handled everything is right, up to what this tick is still
going to announce, a room marked for destruction or a room that is new.
-/
import Tavernmx.Session.Execution
import Tavernmx.Session.Projection

namespace Tavernmx.Session

open Messaging Rooms Server Client

variable {userName : ConnId → String} {c : ConnId} {r : String} {s s' : Seat} {a : SeatAction}
  {allowed : Seat → SeatAction → Prop}

/-! ## What a list of notices says in the end -/

/-- What the client will think when it has handled its inbox. -/
def Seat.view (s : Seat) : Bool := s.inbox.foldl Notice.knows s.known

theorem echoNotices_are_echoes {expired : ConnId → Bool} {life : Option RoomLife} :
    ∀ n ∈ echoNotices expired c life, ∃ event, n = .echo event := by
  intro n hn
  unfold echoNotices at hn
  split at hn
  · split at hn
    · obtain ⟨event, -, rfl⟩ := List.mem_map.mp hn
      exact ⟨_, rfl⟩
    · cases hn
  · cases hn

/-- An answer says whether the room is there, or shows what was said in it. -/
theorem answer_cases (r : String) (life : Option RoomLife) (m : Incoming) :
    (m.message.messageType = .roomList ∧ answer r life m = [.listed life.isSome]) ∨
      (m.message.messageType ≠ .roomList ∧ ∀ n ∈ answer r life m, ∃ events,
        n = .history events) := by
  unfold answer
  split
  case h_1 ht => exact Or.inl ⟨ht, rfl⟩
  case h_2 ht =>
    refine Or.inr ⟨(fun hlist => by cases ht.symm.trans hlist), ?_⟩
    intro n hn
    split at hn
    · split at hn
      · exact ⟨_, List.mem_singleton.mp hn⟩
      · cases hn
    · cases hn
  case h_3 hlist _ => exact Or.inr ⟨hlist, fun n hn => by cases hn⟩

theorem receive_roomList {m : Incoming} (ht : m.message.messageType = .roomList)
    (life : Option RoomLife) : RoomLife.receive userName r life m = life := by
  simp [RoomLife.receive, ht]

theorem announcements_cases {attends : Bool} {creations destructions : Nat} :
    ∀ n ∈ announcements attends creations destructions, n = .created ∨ n = .destroyed := by
  intro n hn
  unfold announcements at hn
  split at hn
  · rcases List.mem_append.mp hn with hn | hn
    · exact Or.inl (List.eq_of_mem_replicate hn)
    · exact Or.inr (List.eq_of_mem_replicate hn)
  · cases hn

/-! ## Who was answered before

A step that sends no ROOM_LIST reply answers nobody. -/

theorem answered_before {new : List Notice} (hnew : ∀ present, Notice.listed present ∉ new)
    (h : ∃ present, Notice.listed present ∈ s.heard ++ (s.inbox ++ new)) : s.Answered := by
  obtain ⟨present, hlisted⟩ := h
  refine ⟨present, ?_⟩
  rw [← List.append_assoc] at hlisted
  exact (List.mem_append.mp hlisted).resolve_right (hnew present)

/-- Who is answered after the end of a tick took part in it, and was answered before. -/
theorem answered_before_finish (hbasic : s.Basic c) (hticking : s.ticking = true)
    {expired : ConnId → Bool} {creations destructions : Nat} (hpresent : s.present = true)
    (h : ∃ present, Notice.listed present ∈ s.heard ++
      (s.inbox ++ (announcements s.attends creations destructions ++
        echoNotices expired c s.life))) :
    s.attends = true ∧ s.Answered := by
  have hanswered : s.Answered := by
    refine answered_before ?_ h
    intro present hmem
    rcases List.mem_append.mp hmem with hmem | hmem
    · rcases announcements_cases _ hmem with heq | heq <;> cases heq
    · obtain ⟨event, heq⟩ := echoNotices_are_echoes _ hmem
      cases heq
  rcases Bool.eq_false_or_eq_true s.attends with hattends | hattends
  · exact ⟨hattends, hanswered⟩
  · -- a client that connected during the tick was sent nothing
    obtain ⟨present, hlisted⟩ := hanswered
    obtain ⟨hsent, -⟩ := hbasic.newcomer hpresent hattends hticking
    exact absurd (hsent ▸ hlisted) List.not_mem_nil

/-! ## The invariant -/

def Agrees (s : Seat) : Prop :=
  s.Counts → s.Answered → (s.life = none → s.view = false) ∧
    ∀ life ∈ s.life, life.doomed = true ∨ life.fresh = true ∨ s.view = true

/-- What step 1 does to the room does not disturb the agreement. -/
theorem agrees_receive (userName : ConnId → String) (r : String) (m : Incoming)
    {life : Option RoomLife} {view : Bool}
    (hnone : life = none → view = false)
    (hsome : ∀ l ∈ life, l.doomed = true ∨ l.fresh = true ∨ view = true) :
    (RoomLife.receive userName r life m = none → view = false) ∧
      ∀ l ∈ RoomLife.receive userName r life m, l.doomed = true ∨ l.fresh = true ∨ view = true := by
  cases life with
  | none =>
      refine ⟨fun _ => hnone rfl, ?_⟩
      intro l hl
      rcases receive_none userName r m with hstill | hborn
      · rw [hstill] at hl
        cases hl
      · rw [hborn] at hl
        obtain rfl := Option.some.inj hl
        exact Or.inr (Or.inl rfl)
  | some old =>
      obtain ⟨new, hnew, hgrows⟩ := receive_some userName r m old
      rw [hnew]
      refine ⟨(fun h => by cases h), ?_⟩
      intro l hl
      obtain rfl := Option.some.inj hl
      rw [hgrows.fresh]
      exact (hsome old rfl).imp_left hgrows.doomed

/-- The end of a tick announces what was missing. -/
theorem agrees_finish {expired : ConnId → Bool} {life : Option RoomLife} {view : Bool}
    {creations destructions : Nat} (hnone : life = none → view = false)
    (hsome : ∀ l ∈ life, l.doomed = true ∨ l.fresh = true ∨ view = true)
    (hcreations : 0 < creations ↔ life.any (·.fresh) = true)
    (hdestructions : 0 < destructions ↔ life.any (·.doomed) = true) :
    (announcements true creations destructions).foldl Notice.knows view
      = (RoomLife.endTick expired life).isSome := by
  rw [announcements, if_pos rfl, List.foldl_append]
  cases life with
  | none =>
      obtain rfl : creations = 0 := Nat.eq_zero_of_not_pos fun h => by cases hcreations.mp h
      obtain rfl : destructions = 0 := Nat.eq_zero_of_not_pos fun h => by cases hdestructions.mp h
      exact hnone rfl
  | some l =>
      cases hdoomed : l.doomed with
      | true =>
          rw [endTick_doomed hdoomed]
          exact foldl_replicate_of_settles (fun _ => rfl) _ _ (hdestructions.mpr hdoomed)
      | false =>
          obtain rfl : destructions = 0 :=
            Nat.eq_zero_of_not_pos fun h => by cases hdoomed.symm.trans (hdestructions.mp h)
          rw [endTick_kept hdoomed, List.replicate_zero, List.foldl_nil]
          rcases hsome l rfl with hdoomed' | hfresh | hview
          · cases hdoomed.symm.trans hdoomed'
          · exact foldl_replicate_of_settles (fun _ => rfl) _ _ (hcreations.mpr hfresh)
          · rw [hview]
            rcases Nat.eq_zero_or_pos creations with hzero | hpos
            · rw [hzero]
              rfl
            · exact foldl_replicate_of_settles (fun _ => rfl) _ _ hpos

theorem agrees_step (hbasic : s.Basic c) (h : Agrees s) (hstep : SeatStep userName c r s a s') :
    Agrees s' := by
  cases hstep with
  | connect known joined harrived hjoined =>
      -- nothing was sent to a client that has just connected
      rintro - ⟨present, hlisted⟩
      obtain ⟨-, -, hsent, -⟩ := hbasic.absent harrived
      exact absurd (hsent ▸ hlisted) List.not_mem_nil
  | leave =>
      intro hcounts hanswered
      exact h (hcounts.elim (fun h => by cases h) Or.inr) hanswered
  | begin hidle =>
      intro hcounts hanswered
      exact h (Or.inl (hcounts.elim id id)) hanswered
  | serveOther m hticking hother =>
      intro hcounts hanswered
      obtain ⟨hnone, hsome⟩ := h hcounts hanswered
      exact agrees_receive userName r m hnone hsome
  | serveOwn m rest hticking hattends hown hrequests =>
      intro hcounts hanswered
      rcases answer_cases r s.life m with ⟨ht, hanswer⟩ | ⟨-, hhistory⟩
      · -- a ROOM_LIST reply is right when it is sent
        have hview : (s.inbox ++ answer r s.life m).foldl Notice.knows s.known = s.life.isSome := by
          rw [hanswer, List.foldl_append]
          rfl
        show (RoomLife.receive userName r s.life m = none → (s.inbox ++ _).foldl _ _ = false) ∧ _
        rw [receive_roomList ht, hview]
        constructor
        · intro hnone
          rw [hnone]
          rfl
        · intro l hl
          have hlife : s.life = some l := hl
          refine Or.inr (Or.inr ?_)
          show (s.inbox ++ answer r s.life m).foldl Notice.knows s.known = true
          rw [hview, hlife]
          rfl
      · have hview : (s.inbox ++ answer r s.life m).foldl Notice.knows s.known = s.view := by
          rw [List.foldl_append]
          refine foldl_of_neutral ?_ _
          intro n hn
          obtain ⟨events, rfl⟩ := hhistory n hn
          exact fun _ => rfl
        have hanswered' : s.Answered := by
          refine answered_before ?_ hanswered
          intro present hmem
          obtain ⟨events, hevents⟩ := hhistory _ hmem
          cases hevents
        obtain ⟨hnone, hsome⟩ := h hcounts hanswered'
        have hnext := agrees_receive userName r m hnone hsome
        rw [← hview] at hnext
        exact hnext
  | finish expired creations destructions hticking hlive hcreations hdestructions =>
      intro hcounts hanswered
      have hpresent : s.present = true := hcounts.elim id fun h => by cases h
      obtain ⟨hattends, hanswered'⟩ := answered_before_finish hbasic hticking hpresent hanswered
      obtain ⟨hnone, hsome⟩ := h (Or.inr hattends) hanswered'
      have hview : (s.inbox ++ (announcements s.attends creations destructions ++
          echoNotices expired c s.life)).foldl Notice.knows s.known
            = (RoomLife.endTick expired s.life).isSome := by
        rw [hattends, ← agrees_finish hnone hsome hcreations hdestructions, List.foldl_append,
          List.foldl_append]
        refine foldl_of_neutral ?_ _
        intro n hn
        obtain ⟨event, rfl⟩ := echoNotices_are_echoes n hn
        exact fun _ => rfl
      constructor
      · intro hnone'
        exact hview.trans (congrArg Option.isSome hnone')
      · intro l hl
        exact Or.inr (Or.inr (hview.trans (congrArg Option.isSome hl)))
  | hear notice rest known joined shown pushed hinbox hknown hjoinedKnown hjoined hshown hpushed =>
      intro hcounts hanswered
      have hview : rest.foldl Notice.knows known = s.view := by
        rw [hknown, Seat.view, hinbox, List.foldl_append]
      have hanswered' : s.Answered := by
        obtain ⟨present, hlisted⟩ := hanswered
        exact ⟨present, sent_hear hinbox ▸ hlisted⟩
      have hagrees := h hcounts hanswered'
      rw [← hview] at hagrees
      exact hagrees
  | ask message => exact h

theorem agrees_reachable (h : (seating userName c r).Reachable allowed s) : Agrees s := by
  refine h.invariant ?_ ?_
  · rintro s hs - ⟨present, hlisted⟩
    exact absurd (hs.sent ▸ hlisted) List.not_mem_nil
  · intro s a s' hreach ih _ hstep
    exact agrees_step (basic_reachable hreach) ih hstep

/-! ## Between two ticks -/

theorem view_of_idle (h : (seating userName c r).Reachable allowed s) (hidle : s.ticking = false)
    (hpresent : s.present = true) (hanswered : s.Answered) : s.view = s.life.isSome := by
  obtain ⟨hnone, hsome⟩ := agrees_reachable h (Or.inl hpresent) hanswered
  cases hlife : s.life with
  | none => exact hnone hlife
  | some life =>
      have hquiet := (basic_reachable h).quiet hidle life hlife
      rcases hsome life hlife with hdoomed | hfresh | hview
      · cases hquiet.doomed.symm.trans hdoomed
      · cases hquiet.fresh.symm.trans hfresh
      · exact hview

/-- A ROOM_LIST request of the client has been answered. -/
def Tavern.Answered (s : Tavern) (c : ConnId) : Prop :=
  ∃ message ∈ s.sent c, message.messageType = .roomList

theorem answered_seat {s : Tavern} {shown : Option (List RoomEvent)} (h : s.Answered c) :
    (s.seat c r shown).Answered := by
  obtain ⟨message, hmem, ht⟩ := h
  refine ⟨decide (r ∈ listedNames message), ?_⟩
  have hnotice : noticeOf r message = some (.listed (decide (r ∈ listedNames message))) := by
    rw [noticeOf, ht]
  have hmem' : Notice.listed (decide (r ∈ listedNames message)) ∈
      noticesOf r (s.sent c) := List.mem_filterMap.mpr ⟨message, hmem, hnotice⟩
  rw [Tavern.sent, noticesOf_append] at hmem'
  exact hmem'

instance (s : Tavern) (c : ConnId) : Decidable (s.Answered c) :=
  inferInstanceAs (Decidable (∃ message ∈ _, _))

/-- **Between two ticks, a client that handles everything it was sent knows
exactly the rooms of the server.** -/
theorem client_rooms_agree {initialRooms : List String} {s : Tavern}
    (h : (tavern userName initialRooms).Reachable LabelledSystem.anyStep s)
    (hidle : s.stage = .idle)
    (hactive : c ∈ s.active) (hanswered : s.Answered c) :
    ∃ chat pushed, (s.chat c).handleMessages (s.worker.messagesOut c) = .ok (chat, pushed) ∧
      ∀ r, r ∈ chat.clientRooms.roomNames ↔ r ∈ s.worker.rooms.roomNames := by
  have hsound := sound_reachable h
  obtain ⟨chat, pushed, hok, hwf, hknows⟩ :=
    handleMessages_heard (s.worker.messagesOut c) (hsound.windows c) (hsound.lanes c)
  refine ⟨chat, pushed, hok, ?_⟩
  intro r
  obtain ⟨t, ⟨shown, -, rfl⟩, hreach⟩ :=
    seat_of_reachable c r LabelledSystem.anyStep (fun _ _ _ _ _ _ _ _ => trivial) h
  have hview := view_of_idle hreach (by show s.stage.ticking = false; rw [hidle]; rfl)
    (decide_eq_true hactive) (answered_seat hanswered)
  have hknown : chat.knows r = (s.lives r).isSome := (hknows r).trans hview
  rw [hwf.rooms.mem_roomNames_iff, hsound.tracks.mem_roomNames_iff, ← hknown]
  exact Iff.rfl

/-- A client connects and is answered, while it also creates a room and asks for
another one to be destroyed. -/
def opening : List Action :=
  [.connect .new, .request 0 (createRoomCreate "attic"), .request 0 (createRoomDestroy "den"),
    .beginTick, .serve 0, .serve 1, .serve 2, .nextClient, .finishTick]

theorem client_rooms_agree_opening : ∃ (s : Tavern) (chat : ChatWindow) (pushed : List Message),
    (tavern (fun _ => "ann") ["den"]).Reachable LabelledSystem.anyStep s ∧
      (s.chat 0).handleMessages (s.worker.messagesOut 0) = .ok (chat, pushed) ∧
      ∀ r, r ∈ chat.clientRooms.roomNames ↔ r ∈ s.worker.rooms.roomNames := by
  obtain ⟨s, hreach, htest⟩ := exists_of_run LabelledSystem.anyStep (fun _ => "ann") ["den"] opening
    (fun s => decide (s.stage = .idle ∧ 0 ∈ s.active ∧ s.Answered 0)) (by decide +kernel)
  obtain ⟨hidle, hactive, hanswered⟩ := of_decide_eq_true htest
  obtain ⟨chat, pushed, hok, hrooms⟩ := client_rooms_agree hreach hidle hactive hanswered
  exact ⟨s, chat, pushed, hreach, hok, hrooms⟩

end Tavernmx.Session
