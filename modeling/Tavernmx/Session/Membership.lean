/-
# `Tavernmx.Session.Membership` — who believes to have joined is a member

The client sets `is_joined` when it sends ROOM_JOIN, without an acknowledgement.
By the time the request is handled the room may be gone, marked for destruction,
or another one of the same name.  What saves the client is the order of the
messages it is sent: whenever its room goes, a ROOM_DESTROY is on its way to it,
and handling that drops the room object with its `is_joined`.

So the belief to be justified is that of a client which has neither a ROOM_LIST
nor a ROOM_DESTROY for the room still to handle (`Seat.Believes`).  Its room
exists, by the agreement on rooms, and unless the room is marked, the client is a
member of it or its ROOM_JOIN is on its way (`Seated`).

`believes_step` says once what a step can do to such a client; this invariant and
that of `Session.Joining` are case analyses over it.
-/
import Tavernmx.Session.Agreement

namespace Tavernmx.Session

open Messaging Rooms Server Client

variable {userName : ConnId → String} {c : ConnId} {r : String} {s s' : Seat} {a : SeatAction}
  {allowed : Seat → SeatAction → Prop}

/-! ## The belief -/

/-- The client counts as joined, and will when it has handled its inbox. -/
structure Seat.Believes (s : Seat) : Prop where
  answered : s.Answered
  joined : s.joined = true
  stands : ∀ n ∈ s.inbox, n.resets = false

theorem knows_of_not_resets {n : Notice} (h : n.resets = false) : n.knows true = true := by
  cases n with
  | listed present => cases h
  | created => rfl
  | destroyed => cases h
  | history events => rfl
  | echo event => rfl

theorem foldl_knows_true : ∀ {ns : List Notice}, (∀ n ∈ ns, n.resets = false) →
    ns.foldl Notice.knows true = true
  | [], _ => rfl
  | n :: ns, h => by
      rw [List.foldl_cons, knows_of_not_resets (h n List.mem_cons_self)]
      exact foldl_knows_true fun m hm => h m (List.mem_cons_of_mem _ hm)

/-- A room that the client believes to have joined exists. -/
theorem Seat.Believes.exists_life (h : s.Believes) (hbasic : s.Basic c) (hagrees : Agrees s)
    (hcounts : s.Counts) : ∃ life, s.life = some life := by
  have hview : s.view = true := by
    rw [Seat.view, hbasic.joined h.joined]
    exact foldl_knows_true h.stands
  cases hlife : s.life with
  | none => cases hview.symm.trans ((hagrees hcounts h.answered).1 hlife)
  | some life => exact ⟨life, rfl⟩

/-- The belief was there before an own message was handled. -/
theorem believes_before_serve {m : Incoming} {rest : List Message} {life : Option RoomLife}
    (h : Seat.Believes { s with
      life, requests := rest, inbox := s.inbox ++ answer r s.life m }) :
    s.Believes ∧ ∀ n ∈ answer r s.life m, ∃ events, n = .history events := by
  have hstands : ∀ n ∈ s.inbox ++ answer r s.life m, n.resets = false := h.stands
  have hhistory : ∀ n ∈ answer r s.life m, ∃ events, n = .history events := by
    rcases answer_cases r s.life m with ⟨-, hlist⟩ | ⟨-, hhistory⟩
    · have hreset := hstands (.listed s.life.isSome)
        (List.mem_append_right _ (hlist ▸ List.mem_cons_self))
      cases hreset
    · exact hhistory
  refine ⟨⟨answered_before ?_ h.answered, h.joined, ?_⟩, hhistory⟩
  · intro present hmem
    obtain ⟨events, heq⟩ := hhistory _ hmem
    cases heq
  · intro n hn
    exact hstands n (List.mem_append_left _ hn)

/-- The belief was there before the tick ended, and the room is not among those
that were announced as destroyed. -/
theorem believes_before_finish (hbasic : s.Basic c) (hticking : s.ticking = true)
    {expired : ConnId → Bool} {creations destructions : Nat} {life : Option RoomLife}
    (hdestructions : 0 < destructions ↔ s.life.any (·.doomed) = true) (hpresent : s.present = true)
    (h : Seat.Believes { s with
      life, ticking := false, attends := false
      inbox := s.inbox ++
        (announcements s.attends creations destructions ++ echoNotices expired c s.life) }) :
    s.attends = true ∧ s.Believes ∧ ∀ l ∈ s.life, l.doomed = false := by
  obtain ⟨hattends, hanswered⟩ := answered_before_finish hbasic hticking hpresent h.answered
  have hstands : ∀ n ∈ s.inbox ++ (announcements s.attends creations destructions ++
      echoNotices expired c s.life), n.resets = false := h.stands
  refine ⟨hattends, ⟨hanswered, h.joined, ?_⟩, ?_⟩
  · intro n hn
    exact hstands n (List.mem_append_left _ hn)
  · intro l hl
    cases hdoomed : l.doomed with
    | false => rfl
    | true =>
        have hpos : 0 < destructions := by
          rw [hdestructions, show s.life = some l from hl]
          exact hdoomed
        have hmem : Notice.destroyed ∈ announcements s.attends creations destructions := by
          rw [announcements, hattends, if_pos rfl]
          exact List.mem_append_right _ (List.mem_replicate.mpr ⟨Nat.ne_of_gt hpos, rfl⟩)
        have hreset := hstands .destroyed
          (List.mem_append_right _ (List.mem_append_left _ hmem))
        cases hreset

/-- The belief was there before the window handled a message, or the join has
just been issued. -/
theorem believes_before_hear {notice : Option Notice} {rest : List Notice} {known joined : Bool}
    {shown : Option (List RoomEvent)} {pushed : List Message}
    (hinbox : s.inbox = notice.toList ++ rest)
    (hjoined : joined = true →
      (s.joined = true ∧ ∀ n ∈ notice, n.resets = false) ∨ pushed = joinRequests r)
    (h : Seat.Believes { s with
      requests := s.requests ++ pushed, heard := s.heard ++ notice.toList, inbox := rest
      known, joined, shown }) :
    (s.Believes ∧ ∀ n ∈ notice, n.resets = false) ∨ pushed = joinRequests r := by
  rcases hjoined h.joined with ⟨hold, hnotice⟩ | hpushed
  · refine Or.inl ⟨⟨?_, hold, ?_⟩, hnotice⟩
    · obtain ⟨present, hlisted⟩ := h.answered
      exact ⟨present, sent_hear hinbox ▸ hlisted⟩
    · intro n hn
      rw [hinbox] at hn
      rcases List.mem_append.mp hn with hn | hn
      · exact hnotice n (Option.mem_toList.mp hn)
      · exact h.stands n hn
  · exact Or.inr hpushed

/-- What a step is at the seat of a client that believes to have joined, before
the step and after it, while the room `life` becomes `life'`. -/
inductive Believing (c : ConnId) (r : String) (s : Seat) (life : RoomLife) :
    SeatAction → Seat → RoomLife → Prop where
  /-- Somebody comes or goes. -/
  | aside {a : SeatAction} {s' : Seat} (hrequests : s'.requests = s.requests)
      (hinbox : s'.inbox = s.inbox) (hshown : s'.shown = s.shown) : Believing c r s life a s' life
  | serveOther {m : Incoming} {life' : RoomLife} (hgrows : Grows r m life life') :
      Believing c r s life (.serve m) { s with life := some life' } life'
  | serveOwn {m : Incoming} {rest : List Message} {life' : RoomLife} (hown : m.client = c)
      (hrequests : s.requests = m.message :: rest) (hgrows : Grows r m life life')
      (hhistory : ∀ n ∈ answer r (some life) m, ∃ events, n = .history events) :
      Believing c r s life (.serve m) { s with
        life := some life'
        requests := rest
        inbox := s.inbox ++ answer r (some life) m } life'
  | finish {expired : ConnId → Bool} (creations : Nat) (hlive : expired c = false)
      (hkept : life.doomed = false) :
      Believing c r s life .finish { s with
        life := some (life.settle expired)
        ticking := false
        attends := false
        inbox := s.inbox ++
          (List.replicate creations .created ++ echoNotices expired c (some life)) }
            (life.settle expired)
  | hear {notice : Option Notice} {rest : List Notice} {known joined : Bool}
      {shown : Option (List RoomEvent)} {pushed : List Message}
      (hinbox : s.inbox = notice.toList ++ rest)
      (hshown : shown = notice.toList.foldl Notice.shows s.shown) :
      Believing c r s life .hear { s with
        requests := s.requests ++ pushed
        heard := s.heard ++ notice.toList
        inbox := rest
        known
        joined
        shown } life
  | ask (message : Message) :
      Believing c r s life (.ask message) { s with requests := s.requests ++ [message] } life

/-- **What a step does to a client that believes, after it, to have joined.**  The
join was just issued, or the client believed so before. -/
theorem believes_step (hbasic : s.Basic c) (hagrees : Agrees s)
    (hstep : SeatStep userName c r s a s') (hcounts : s'.Counts) (hbelieves' : s'.Believes)
    {life' : RoomLife} (hlife' : s'.life = some life') :
    s'.requests = s.requests ++ joinRequests r ∨
      (s.Counts ∧ s.Believes ∧ ∃ life, s.life = some life ∧ Believing c r s life a s' life') := by
  cases hstep with
  | connect known joined harrived hjoined =>
      obtain ⟨⟨present, hlisted⟩, -, -⟩ := hbelieves'
      obtain ⟨-, -, hsent, -⟩ := hbasic.absent harrived
      exact absurd (hsent ▸ hlisted) List.not_mem_nil
  | leave =>
      obtain ⟨hanswered, hjoined, hstands⟩ := hbelieves'
      have hbefore : s.Counts := hcounts.elim (fun h => by cases h) Or.inr
      exact Or.inr ⟨hbefore, ⟨hanswered, hjoined, hstands⟩, life', hlife', .aside rfl rfl rfl⟩
  | begin hidle =>
      obtain ⟨hanswered, hjoined, hstands⟩ := hbelieves'
      have hbefore : s.Counts := Or.inl (hcounts.elim id id)
      exact Or.inr ⟨hbefore, ⟨hanswered, hjoined, hstands⟩, life', hlife', .aside rfl rfl rfl⟩
  | serveOther m hticking hother =>
      obtain ⟨hanswered, hjoined, hstands⟩ := hbelieves'
      have hbelieves : s.Believes := ⟨hanswered, hjoined, hstands⟩
      obtain ⟨old, hold⟩ := hbelieves.exists_life hbasic hagrees hcounts
      obtain ⟨new, hnew, hgrows⟩ := receive_some userName r m old
      obtain rfl : new = life' := Option.some.inj (hnew.symm.trans (hold ▸ hlife'))
      refine Or.inr ⟨hcounts, hbelieves, old, hold, ?_⟩
      rw [hold, hnew]
      exact .serveOther hgrows
  | serveOwn m rest hticking hattends hown hrequests =>
      obtain ⟨hbelieves, hhistory⟩ := believes_before_serve hbelieves'
      obtain ⟨old, hold⟩ := hbelieves.exists_life hbasic hagrees hcounts
      obtain ⟨new, hnew, hgrows⟩ := receive_some userName r m old
      obtain rfl : new = life' := Option.some.inj (hnew.symm.trans (hold ▸ hlife'))
      refine Or.inr ⟨hcounts, hbelieves, old, hold, ?_⟩
      rw [hold] at hhistory ⊢
      rw [hnew]
      exact .serveOwn hown hrequests hgrows hhistory
  | finish expired creations destructions hticking hlive hcreations hdestructions =>
      have hpresent : s.present = true := hcounts.elim id fun h => by cases h
      obtain ⟨hattends, hbelieves, hkept⟩ :=
        believes_before_finish hbasic hticking hdestructions hpresent hbelieves'
      obtain ⟨old, hold⟩ := hbelieves.exists_life hbasic hagrees (Or.inl hpresent)
      have hsettle : RoomLife.endTick expired s.life = some (old.settle expired) := by
        rw [hold, endTick_kept (hkept old hold)]
      obtain rfl : old.settle expired = life' := Option.some.inj (hsettle.symm.trans hlife')
      obtain rfl : destructions = 0 := by
        refine Nat.eq_zero_of_not_pos fun hpos => ?_
        have hdoomed := hdestructions.mp hpos
        rw [hold] at hdoomed
        cases (hkept old hold).symm.trans hdoomed
      refine Or.inr ⟨Or.inl hpresent, hbelieves, old, hold, ?_⟩
      rw [hsettle, hold, announcements, hattends, if_pos rfl, List.replicate_zero, List.append_nil]
      exact .finish creations (hlive (Or.inl hpresent)) (hkept old hold)
  | hear notice rest known joined shown pushed hinbox hknown hjoinedKnown hjoined hshown hpushed =>
      rcases believes_before_hear hinbox hjoined hbelieves' with ⟨hbelieves, hnotice⟩ | hissued
      · exact Or.inr ⟨hcounts, hbelieves, life', hlife',
          .hear hinbox (hshown (hjoinedKnown hbelieves'.joined) hnotice)⟩
      · exact Or.inl (congrArg (s.requests ++ ·) hissued)
  | ask message =>
      obtain ⟨hanswered, hjoined, hstands⟩ := hbelieves'
      exact Or.inr ⟨hcounts, ⟨hanswered, hjoined, hstands⟩, life', hlife', .ask message⟩

/-! ## The invariant -/

def Seated (c : ConnId) (r : String) (s : Seat) : Prop :=
  s.Counts → s.Believes → ∀ life ∈ s.life,
    life.doomed = true ∨ c ∈ life.members ∨ createRoomJoin r ∈ s.requests

theorem seated_step (hbasic : s.Basic c) (hagrees : Agrees s) (h : Seated c r s)
    (hstep : SeatStep userName c r s a s') : Seated c r s' := by
  intro hcounts' hbelieves' life' hlife'
  rcases believes_step hbasic hagrees hstep hcounts' hbelieves' hlife' with
    hissued | ⟨hcounts, hbelieves, life, hlife, hcase⟩
  · -- the join has just been issued
    refine Or.inr (Or.inr ?_)
    rw [hissued]
    exact List.mem_append_right _ List.mem_cons_self
  have hseated := h hcounts hbelieves life hlife
  cases hcase with
  | aside hrequests hinbox hshown =>
      rw [hrequests]
      exact hseated
  | serveOther hgrows => exact hseated.imp hgrows.doomed (Or.imp_left (hgrows.members c))
  | @serveOwn m rest _ hown hrequests hgrows hhistory =>
      rcases hseated with hdoomed | hmember | hjoin
      · exact Or.inl (hgrows.doomed hdoomed)
      · exact Or.inr (Or.inl (hgrows.members c hmember))
      · rw [hrequests] at hjoin
        rcases List.mem_cons.mp hjoin with hjoin | hjoin
        · -- the ROOM_JOIN meets the room
          exact Or.inr (Or.inl (hown ▸ hgrows.joined hjoin.symm))
        · exact Or.inr (Or.inr hjoin)
  | finish creations hlive hkept =>
      rcases hseated with hdoomed | hmember | hjoin
      · cases hkept.symm.trans hdoomed
      · exact Or.inr (Or.inl (List.mem_filter.mpr ⟨hmember, by rw [hlive]; rfl⟩))
      · exact Or.inr (Or.inr hjoin)
  | hear hinbox hshown =>
      exact hseated.imp_right (Or.imp_right fun hjoin => List.mem_append_left _ hjoin)
  | ask message =>
      exact hseated.imp_right (Or.imp_right fun hjoin => List.mem_append_left _ hjoin)

theorem seated_reachable (h : (seating userName c r).Reachable allowed s) : Seated c r s := by
  refine h.invariant ?_ ?_
  · rintro s hs - ⟨⟨present, hlisted⟩, -, -⟩
    exact absurd (hs.sent ▸ hlisted) List.not_mem_nil
  · intro s a s' hreach ih _ hstep
    exact seated_step (basic_reachable hreach) (agrees_reachable hreach) ih hstep

/-! ## Between two ticks -/

/-- **Between two ticks, with nothing on its way in either direction, a client
that believes to have joined a room is in the `joined_clients` of the server's
room of that name, once.** -/
theorem joined_client_is_member {initialRooms : List String} {s : Tavern}
    (h : (tavern userName initialRooms).Reachable LabelledSystem.anyStep s)
    (hidle : s.stage = .idle)
    (hactive : c ∈ s.active) (hanswered : s.Answered c) (hsent : s.worker.messagesOut c = [])
    (hrequests : s.toServer c = []) :
    ∀ clientRoom ∈ (s.chat c).clientRooms.activeRooms, clientRoom.isJoined = true →
      ∃ room, s.worker.rooms.find? clientRoom.roomName = some room ∧
        room.joinedClients.count c = 1 := by
  intro clientRoom hmem hjoined
  have hsound := sound_reachable h
  have hfind : (s.chat c).clientRooms.find? clientRoom.roomName = some clientRoom :=
    ((hsound.windows c).rooms.find?_eq_some_iff _ _).mpr ⟨hmem, rfl⟩
  obtain ⟨t, ⟨shown, -, rfl⟩, hreach⟩ := seat_of_reachable c clientRoom.roomName
    LabelledSystem.anyStep (fun _ _ _ _ _ _ _ _ => trivial) h
  have hpresent : (s.seat c clientRoom.roomName shown).present = true := decide_eq_true hactive
  have hbelieves : (s.seat c clientRoom.roomName shown).Believes := by
    refine ⟨answered_seat hanswered, ?_, ?_⟩
    · show (s.chat c).joined clientRoom.roomName = true
      rw [ChatWindow.joined, hfind]
      exact hjoined
    · intro n hn
      have hnone : n ∈ noticesOf clientRoom.roomName (s.worker.messagesOut c) := hn
      rw [hsent] at hnone
      cases hnone
  obtain ⟨life, hlife⟩ :=
    hbelieves.exists_life (basic_reachable hreach) (agrees_reachable hreach) (Or.inl hpresent)
  have hquiet := (basic_reachable hreach).quiet
    (by show s.stage.ticking = false; rw [hidle]; rfl) life hlife
  have hmember : c ∈ life.members := by
    rcases seated_reachable hreach (Or.inl hpresent) hbelieves life hlife with
      hdoomed | hmember | hjoin
    · cases hquiet.doomed.symm.trans hdoomed
    · exact hmember
    · have hnone : createRoomJoin clientRoom.roomName ∈ s.toServer c := hjoin
      rw [hrequests] at hnone
      cases hnone
  have hroom := (hsound.tracks.named clientRoom.roomName).room
  rw [show s.lives clientRoom.roomName = some life from hlife] at hroom
  exact ⟨_, hroom, List.count_eq_one_of_mem life.members_nodup hmember⟩

/-- A client connects, is answered, and its window joins the first room. -/
def joiningTheDen : List Action :=
  [.connect .new, .beginTick, .serve 0, .nextClient, .finishTick, .handle 0, .beginTick, .serve 1,
    .serve 2, .nextClient, .finishTick, .handle 0]

theorem joined_client_is_member_den : ∃ s : Tavern,
    (tavern (fun _ => "ann") ["den"]).Reachable LabelledSystem.anyStep s ∧
      ∃ room, s.worker.rooms.find? "den" = some room ∧ room.joinedClients.count 0 = 1 := by
  obtain ⟨s, hreach, htest⟩ := exists_of_run LabelledSystem.anyStep (fun _ => "ann") ["den"]
    joiningTheDen (fun s => decide (s.stage = .idle ∧ 0 ∈ s.active ∧ s.Answered 0 ∧
      (s.worker.messagesOut 0).isEmpty ∧ (s.toServer 0).isEmpty ∧
      ∃ clientRoom ∈ (s.chat 0).clientRooms.activeRooms,
        clientRoom.roomName = "den" ∧ clientRoom.isJoined = true)) (by decide +kernel)
  obtain ⟨hidle, hactive, hanswered, hsent, hrequests, clientRoom, hmem, hname, hjoined⟩ :=
    of_decide_eq_true htest
  have hmember := joined_client_is_member hreach hidle hactive hanswered
    (List.isEmpty_iff.mp hsent) (List.isEmpty_iff.mp hrequests) clientRoom hmem hjoined
  rw [hname] at hmember
  exact ⟨s, hreach, hmember⟩

end Tavernmx.Session
