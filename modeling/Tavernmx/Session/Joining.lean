/-
# `Tavernmx.Session.Joining` — what a client that joins is shown

The reply to ROOM_HISTORY is taken from a store that already has the events of
the running tick, and the same events are sent again at its end.  A client that
asks for the history in a tick in which something was said in the room before
sees that twice (`shown_twice`).

When no event waits at the moment the request is handled (`NoEventWaits`), the
reply and the echoes fit together: `Current` says that the client is shown what
was distributed so far once it has handled its inbox, or that its request for the
history is still on its way, behind the ROOM_JOIN or with that one handled.
-/
import Tavernmx.Session.Membership

namespace Tavernmx.Session

open Messaging Rooms Server Client

variable {userName : ConnId → String} {c : ConnId} {r : String} {s s' : Seat} {a : SeatAction}

/-! ## The condition -/

/-- The requests for the history of the room come from the handler alone, and are
handled when no event of the room waits. -/
def SeatNoEventWaits (c : ConnId) (r : String) (s : Seat) : SeatAction → Prop
  | .serve m => m.client = c → m.message.messageType = .roomHistory → m.roomName = r →
      pendingOf s.life = []
  | .ask message => message.messageType ≠ .roomHistory
  | _ => True

/-! ## The requests -/

/-- Only the handler asks for histories. -/
def AsksAsWindow (s : Seat) : Prop :=
  ∀ message ∈ s.requests, message.messageType = .roomHistory → ∃ name, message = historyRequest name

theorem asksAsWindow_step (h : AsksAsWindow s) (hallowed : SeatNoEventWaits c r s a)
    (hstep : SeatStep userName c r s a s') : AsksAsWindow s' := by
  cases hstep with
  | connect known joined harrived hjoined =>
      intro message hmem ht
      rw [List.mem_singleton.mp hmem] at ht
      cases ht
  | leave => exact h
  | begin hidle => exact h
  | serveOther m hticking hother => exact h
  | serveOwn m rest hticking hattends hown hrequests =>
      intro message hmem ht
      exact h message (hrequests ▸ List.mem_cons_of_mem _ hmem) ht
  | finish expired creations destructions hticking hlive hcreations hdestructions => exact h
  | hear notice rest known joined shown pushed hinbox hknown hjoinedKnown hjoined hshown hpushed =>
      intro message hmem ht
      rcases List.mem_append.mp hmem with hmem | hmem
      · exact h message hmem ht
      · rcases hpushed with rfl | ⟨name, rfl⟩
        · cases hmem
        · rcases List.mem_cons.mp hmem with rfl | hmem
          · cases ht
          · exact ⟨name, List.mem_singleton.mp hmem⟩
  | ask message =>
      intro other hmem ht
      rcases List.mem_append.mp hmem with hmem | hmem
      · exact h other hmem ht
      · rw [List.mem_singleton.mp hmem] at ht
        exact absurd ht hallowed

theorem asksAsWindow_reachable (h : (seating userName c r).Reachable (SeatNoEventWaits c r) s) :
    AsksAsWindow s := by
  refine h.invariant ?_ ?_
  · intro s hs message hmem
    rw [hs.requests] at hmem
    cases hmem
  · intro s a s' _ ih hallowed hstep
    exact asksAsWindow_step ih hallowed hstep

/-! ## The reply -/

theorem roomName_historyRequest {m : Incoming} (h : m.message = historyRequest r) :
    m.roomName = r := by
  rw [Incoming.roomName, h]
  exact text_of_find? (by simp [historyRequest, Json.ofPairs])

theorem eventCount_historyRequest {m : Incoming} (h : m.message = historyRequest r) :
    m.eventCount = 100 := by
  have hread : messageValueOr Int32 (historyRequest r) "event_count" 0 = .ok 100 := by
    simp [historyRequest, Json.ofPairs, messageValueOr, Json.isPrimitive, Json.isNull, JsonGet.get,
      Json.getInt32, pure, Except.pure]
  rw [Incoming.eventCount, h, hread]

theorem shownLog_max {log : List RoomEvent} (h : log.length ≤ 100) : shownLog log 100 = log := by
  have hkept : keptLog log = log :=
    BoundedLog.rtake_of_length_le (Nat.le_trans h (by decide))
  rw [shownLog, if_neg (by decide), hkept, List.take_of_length_le h]

/-- The reply to the window's request is the whole log, while that is short. -/
theorem answer_historyRequest {m : Incoming} {life : RoomLife} (h : m.message = historyRequest r)
    (hlog : life.log.length ≤ 100) :
    answer r (some life) m = [.history (life.log.map asShown)] := by
  have hcount : m.eventCount.toInt.toNat = 100 := by
    rw [eventCount_historyRequest h]
    rfl
  have hrange : m.roomName = r ∧ 0 ≤ m.eventCount ∧ m.eventCount ≤ roomHistoryMaxEntries := by
    rw [roomName_historyRequest h, eventCount_historyRequest h]
    exact ⟨rfl, by decide, by decide⟩
  unfold answer
  rw [h]
  show (if m.roomName = r ∧ 0 ≤ m.eventCount ∧ m.eventCount ≤ roomHistoryMaxEntries then _
    else _) = _
  rw [if_pos hrange, hcount, shownLog_max hlog]

/-- Another message of the client shows it nothing of the room. -/
theorem answer_other {m : Incoming} {life : Option RoomLife}
    (hhistory : ∀ n ∈ answer r life m, ∃ events, n = .history events)
    (h : m.message.messageType = .roomHistory → m.roomName ≠ r) : answer r life m = [] := by
  rcases answer_cases r life m with ⟨-, hlist⟩ | ⟨hlist, -⟩
  · obtain ⟨events, heq⟩ := hhistory (.listed life.isSome) (hlist ▸ List.mem_cons_self)
    cases heq
  · unfold answer
    split
    case h_1 ht => exact absurd ht hlist
    case h_2 ht =>
      split
      · rw [if_neg fun hrange => h ht hrange.1]
      · rfl
    case h_3 => rfl

/-! ## The invariant -/

/-- The request for the history is on its way, and the client will be a member
when it is handled. -/
def AsksSoon (c : ConnId) (r : String) (life : RoomLife) (requests : List Message) : Prop :=
  ∃ earlier later, requests = earlier ++ historyRequest r :: later ∧
    (createRoomJoin r ∈ earlier ∨ c ∈ life.members)

/-- The client is a member, and its inbox leads to what was distributed so far. -/
structure UpToDate (c : ConnId) (life : RoomLife) (shown : Option (List RoomEvent))
    (inbox : List Notice) : Prop where
  member : c ∈ life.members
  shows : inbox.foldl Notice.shows shown = some (life.told.map asShown)

def Current (c : ConnId) (r : String) (s : Seat) : Prop :=
  s.Counts → s.Believes → ∀ life ∈ s.life, life.log.length ≤ 100 →
    life.doomed = true ∨ AsksSoon c r life s.requests ∨ UpToDate c life s.shown s.inbox

theorem AsksSoon.grows {m : Incoming} {life life' : RoomLife} {requests : List Message}
    (h : AsksSoon c r life requests) (hgrows : Grows r m life life') :
    AsksSoon c r life' requests := by
  obtain ⟨earlier, later, heq, hjoin⟩ := h
  exact ⟨earlier, later, heq, hjoin.imp_right (hgrows.members c)⟩

theorem UpToDate.grows {m : Incoming} {life life' : RoomLife} {shown : Option (List RoomEvent)}
    {inbox : List Notice} (h : UpToDate c life shown inbox) (hgrows : Grows r m life life') :
    UpToDate c life' shown inbox :=
  ⟨hgrows.members c h.member, hgrows.told ▸ h.shows⟩

/-- A reply with everything distributed so far makes the client up to date. -/
theorem upToDate_of_reply {life : RoomLife} {shown : Option (List RoomEvent)} {inbox : List Notice}
    (hmember : c ∈ life.members) :
    UpToDate c life shown (inbox ++ [.history (life.told.map asShown)]) :=
  ⟨hmember, by rw [List.foldl_append]; rfl⟩

/-- The echoes at the end of a tick keep the client up to date. -/
theorem UpToDate.finish {life : RoomLife} {shown : Option (List RoomEvent)} {inbox : List Notice}
    {expired : ConnId → Bool} (h : UpToDate c life shown inbox) (hlive : expired c = false)
    (creations : Nat) :
    UpToDate c (life.settle expired) shown
      (inbox ++ (List.replicate creations .created ++ echoNotices expired c (some life))) := by
  have hechoes : ∀ (events told : List RoomEvent),
      (events.map fun event => Notice.echo (asShown event)).foldl Notice.shows
        (some (told.map asShown))
        = some ((told ++ events).map asShown) := by
    intro events
    induction events with
    | nil =>
        intro told
        rw [List.append_nil]
        rfl
    | cons event events ih =>
        intro told
        have ih' := ih (told ++ [event])
        rw [List.append_assoc, List.map_append] at ih'
        exact ih'
  have hcreated : ∀ shown, (List.replicate creations Notice.created).foldl Notice.shows shown
      = shown := by
    refine foldl_of_neutral ?_
    intro n hn
    rw [List.eq_of_mem_replicate hn]
    exact fun _ => rfl
  refine ⟨List.mem_filter.mpr ⟨h.member, ?_⟩, ?_⟩
  · rw [hlive]
    rfl
  · rw [List.foldl_append, h.shows, List.foldl_append, hcreated, echoNotices,
      if_pos ⟨h.member, hlive⟩, hechoes]
    rfl

theorem AsksSoon.more {life : RoomLife} {requests : List Message} (h : AsksSoon c r life requests)
    (pushed : List Message) : AsksSoon c r life (requests ++ pushed) := by
  obtain ⟨earlier, later, heq, hjoin⟩ := h
  exact ⟨earlier, later ++ pushed, by rw [heq, List.append_assoc]; rfl, hjoin⟩

/-- The server handles the first request. -/
theorem AsksSoon.serve {m : Incoming} {rest : List Message} {life life' : RoomLife}
    (h : AsksSoon c r life (m.message :: rest)) (hown : m.client = c)
    (hgrows : Grows r m life life') :
    (m.message = historyRequest r ∧ c ∈ life.members) ∨ AsksSoon c r life' rest := by
  obtain ⟨earlier, later, hsplit, hjoin⟩ := h
  cases earlier with
  | nil => exact Or.inl ⟨(List.cons.inj hsplit).1, hjoin.resolve_left List.not_mem_nil⟩
  | cons first earlier =>
      obtain ⟨hm, hrest⟩ := List.cons.inj hsplit
      refine Or.inr ⟨earlier, later, hrest, ?_⟩
      rcases hjoin with hjoin | hmember
      · rcases List.mem_cons.mp hjoin with hfirst | hjoin
        · exact Or.inr (hown ▸ hgrows.joined (hm.trans hfirst.symm))
        · exact Or.inl hjoin
      · exact Or.inr (hgrows.members c hmember)

theorem current_step (hbasic : s.Basic c) (hagrees : Agrees s) (hasks : AsksAsWindow s)
    (h : Current c r s) (hallowed : SeatNoEventWaits c r s a)
    (hstep : SeatStep userName c r s a s') : Current c r s' := by
  intro hcounts' hbelieves' life' hlife' hlog
  rcases believes_step hbasic hagrees hstep hcounts' hbelieves' hlife' with
    hissued | ⟨hcounts, hbelieves, life, hlife, hcase⟩
  · -- the join has just been issued
    refine Or.inr (Or.inl ⟨s.requests ++ [createRoomJoin r], [], ?_, ?_⟩)
    · rw [hissued, List.append_assoc]
      rfl
    · exact Or.inl (List.mem_append_right _ List.mem_cons_self)
  have hcurrent : life.log.length ≤ 100 →
      life.doomed = true ∨ AsksSoon c r life s.requests ∨ UpToDate c life s.shown s.inbox :=
    h hcounts hbelieves life hlife
  cases hcase with
  | aside hrequests hinbox hshown =>
      rw [hrequests, hinbox, hshown]
      exact hcurrent hlog
  | serveOther hgrows =>
      exact (hcurrent (Nat.le_trans hgrows.log hlog)).imp hgrows.doomed
        (Or.imp (·.grows hgrows) (·.grows hgrows))
  | @serveOwn m rest _ hown hrequests hgrows hhistory =>
      have hlog' : life.log.length ≤ 100 := Nat.le_trans hgrows.log hlog
      -- the window's own request: nothing waits, so the reply is what was distributed
      have hreply : m.message = historyRequest r → c ∈ life.members →
          UpToDate c life' s.shown (s.inbox ++ answer r (some life) m) := by
        intro hm hmember
        have hwaits : life.pending = [] := by
          have hnone := hallowed hown (by rw [hm]; rfl) (roomName_historyRequest hm)
          rw [hlife] at hnone
          exact hnone
        have htold : life.log = life.told := by rw [RoomLife.log, hwaits, List.append_nil]
        rw [answer_historyRequest hm hlog', htold]
        exact (upToDate_of_reply hmember).grows hgrows
      rcases hcurrent hlog' with hdoomed | hsoon | hupToDate
      · exact Or.inl (hgrows.doomed hdoomed)
      · rw [hrequests] at hsoon
        rcases hsoon.serve hown hgrows with ⟨hm, hmember⟩ | hsoon
        · exact Or.inr (Or.inr (hreply hm hmember))
        · exact Or.inr (Or.inl hsoon)
      · refine Or.inr (Or.inr ?_)
        by_cases hasked : m.message.messageType = .roomHistory ∧ m.roomName = r
        · obtain ⟨name, hname⟩ := hasks m.message (hrequests ▸ List.mem_cons_self) hasked.1
          obtain rfl : name = r := (roomName_historyRequest hname).symm.trans hasked.2
          exact hreply hname hupToDate.member
        · show UpToDate c life' s.shown (s.inbox ++ answer r (some life) m)
          rw [answer_other hhistory fun ht hr => hasked ⟨ht, hr⟩, List.append_nil]
          exact hupToDate.grows hgrows
  | finish creations hlive hkept =>
      rw [RoomLife.log_settle] at hlog
      rcases hcurrent hlog with hdoomed | ⟨earlier, later, hsplit, hjoin⟩ | hupToDate
      · cases hkept.symm.trans hdoomed
      · refine Or.inr (Or.inl ⟨earlier, later, hsplit, hjoin.imp_right ?_⟩)
        intro hmember
        exact List.mem_filter.mpr ⟨hmember, by rw [hlive]; rfl⟩
      · exact Or.inr (Or.inr (hupToDate.finish hlive creations))
  | @hear notice rest known joined shown pushed hinbox hshown =>
      refine (hcurrent hlog).imp_right (Or.imp (·.more pushed) ?_)
      rintro ⟨hmember, hshows⟩
      refine ⟨hmember, ?_⟩
      show rest.foldl Notice.shows shown = _
      rw [hshown, ← List.foldl_append, ← hinbox]
      exact hshows
  | ask message => exact (hcurrent hlog).imp_right (Or.imp_left (·.more [message]))

theorem current_reachable (h : (seating userName c r).Reachable (SeatNoEventWaits c r) s) :
    Current c r s := by
  refine h.invariant ?_ ?_
  · rintro s hs - ⟨⟨present, hlisted⟩, -, -⟩
    exact absurd (hs.sent ▸ hlisted) List.not_mem_nil
  · intro s a s' hreach ih hallowed hstep
    exact current_step (basic_reachable hreach) (agrees_reachable hreach)
      (asksAsWindow_reachable hreach) ih hallowed hstep

/-! ## Between two ticks -/

/-- The client asks for histories as its window does, and whenever its request
for the history of the room is handled, no event waits in the room. -/
def NoEventWaits (c : ConnId) (r : String) (s : Tavern) : Action → Prop
  | .serve _ => ∀ p ∈ s.served, p.1 = c → p.2.messageType = .roomHistory →
      p.2.text "room_name" = r → ∀ room ∈ s.worker.rooms.find? r, room.events = []
  | .request d message => d = c → message.messageType ≠ .roomHistory
  | .connect _ | .drop _ | .expire _ | .handle _ | .pick _ _ | .beginTick | .nextClient
  | .finishTick => True

instance (c : ConnId) (r : String) (s : Tavern) : ∀ a, Decidable (NoEventWaits c r s a)
  | .serve _ => inferInstanceAs (Decidable (∀ p ∈ s.served, _))
  | .request _ _ => inferInstanceAs (Decidable (_ → _))
  | .connect _ | .drop _ | .expire _ | .handle _ | .pick _ _ | .beginTick | .nextClient
  | .finishTick => inferInstanceAs (Decidable True)

theorem seatNoEventWaits {s : Tavern} {a : Action} {b : SeatAction} {t : Seat} (hsound : s.Sound)
    (ht : SeatOf c r s t) (h : NoEventWaits c r s a) (hmatches : Matches c s a b) :
    SeatNoEventWaits c r t b := by
  obtain ⟨shown, -, rfl⟩ := ht
  cases hmatches with
  | @serve now clients waiting sender message rest hstage hsent =>
      intro hsender htype hname
      have hserved : s.served = some (sender, message) := by
        rw [Tavern.served, hstage]
        show (s.toServer sender).head?.map _ = _
        rw [hsent]
        rfl
      have hroom := (hsound.tracks.named r).room
      show pendingOf (s.lives r) = []
      cases hlife : s.lives r with
      | none => rfl
      | some life =>
          rw [hlife] at hroom
          exact h _ hserved hsender htype hname _ hroom
  | request message => exact h rfl
  | connect clientRooms => trivial
  | drop => trivial
  | handle => trivial
  | pick index => trivial
  | beginTick => trivial
  | finishTick => trivial

/-- **Between two ticks, a client that joined the room and has handled what it
was sent is shown everything that was said in the room, once and in order**, if
that is at most 100 events and no event waited when its request for the history
was handled. -/
theorem joining_client_sees_log {initialRooms : List String} {s : Tavern}
    (h : (tavern userName initialRooms).Reachable (NoEventWaits c r) s) (hidle : s.stage = .idle)
    (hactive : c ∈ s.active) (hanswered : s.Answered c) (hsent : s.worker.messagesOut c = [])
    (hasked : historyRequest r ∉ s.toServer c) (hjoined : (s.chat c).joined r = true) :
    ∃ life, s.lives r = some life ∧ (life.log.length ≤ 100 →
      ∃ buffer, (s.chat c).screen.chatRoomHistory r = some buffer ∧
        buffer.Holds (life.log.map asShown)) := by
  obtain ⟨t, ⟨shown, hshown, rfl⟩, hreach⟩ := seat_of_reachable c r (SeatNoEventWaits c r)
    (fun _ _ _ _ hsound ht ha hmatches => seatNoEventWaits hsound ht ha hmatches) h
  have hpresent : (s.seat c r shown).present = true := decide_eq_true hactive
  have hinbox : (s.seat c r shown).inbox = [] := by
    show noticesOf r (s.worker.messagesOut c) = []
    rw [hsent]
    rfl
  have hbelieves : (s.seat c r shown).Believes := by
    refine ⟨answered_seat hanswered, hjoined, ?_⟩
    intro n hn
    rw [hinbox] at hn
    cases hn
  obtain ⟨life, hlife⟩ :=
    hbelieves.exists_life (basic_reachable hreach) (agrees_reachable hreach) (Or.inl hpresent)
  refine ⟨life, hlife, ?_⟩
  intro hlog
  have hquiet := (basic_reachable hreach).quiet
    (by show s.stage.ticking = false; rw [hidle]; rfl) life hlife
  rcases current_reachable hreach (Or.inl hpresent) hbelieves life hlife hlog with
    hdoomed | ⟨earlier, later, hsplit, -⟩ | ⟨-, hshows⟩
  · cases hquiet.doomed.symm.trans hdoomed
  · have hrequests : s.toServer c = earlier ++ historyRequest r :: later := hsplit
    exact absurd (hrequests ▸ List.mem_append_right _ List.mem_cons_self) hasked
  · have htold : life.told = life.log := by rw [RoomLife.log, hquiet.pending, List.append_nil]
    rw [hinbox, htold] at hshows
    have hbuffer : Shows ((s.chat c).screen.chatRoomHistory r) (some (life.log.map asShown)) :=
      hshows ▸ hshown
    cases hstored : (s.chat c).screen.chatRoomHistory r with
    | none =>
        rw [hstored] at hbuffer
        cases hbuffer
    | some buffer =>
        rw [hstored] at hbuffer
        obtain ⟨events, heq, hholds⟩ := hbuffer
        obtain rfl := Option.some.inj heq
        have hshort : (life.log.map asShown).length ≤ Client.chatRoomHistorySize - 1 := by
          rw [List.length_map]
          exact Nat.le_trans hlog (by decide)
        rw [BoundedLog.rtake_of_length_le hshort] at hholds
        exact ⟨buffer, rfl, hholds⟩

/-- Who is who in the runs below. -/
def annAndBob (c : ConnId) : String := if c = 0 then "ann" else "bob"

/-- A client joins and chats. -/
def joiningFirst : List Action :=
  [.connect .new, .beginTick, .serve 0, .nextClient, .finishTick, .handle 0, .beginTick, .serve 1,
    .serve 2, .nextClient, .finishTick, .handle 0, .request 0 (chatSend "den" "hi"), .beginTick,
    .serve 3, .nextClient, .finishTick, .handle 0]

theorem joining_client_sees_log_den : ∃ s : Tavern,
    (tavern annAndBob ["den"]).Reachable (NoEventWaits 0 "den") s ∧
      ∃ buffer, (s.chat 0).screen.chatRoomHistory "den" = some buffer ∧
        buffer.Holds [⟨3, "ann", "hi"⟩] := by
  obtain ⟨s, hreach, htest⟩ := exists_of_run (NoEventWaits 0 "den") annAndBob ["den"] joiningFirst
    (fun s => decide (s.stage = .idle ∧ 0 ∈ s.active ∧ s.Answered 0 ∧
      (s.worker.messagesOut 0).isEmpty ∧ (s.toServer 0).isEmpty ∧ (s.chat 0).joined "den" = true ∧
      (s.lives "den").map RoomLife.log = some [⟨3, "ann", "hi"⟩])) (by decide +kernel)
  obtain ⟨hidle, hactive, hanswered, hsent, hrequests, hjoined, hlog⟩ := of_decide_eq_true htest
  have hasked : historyRequest "den" ∉ s.toServer 0 := by
    rw [List.isEmpty_iff.mp hrequests]
    exact List.not_mem_nil
  obtain ⟨life, hlife, hsees⟩ := joining_client_sees_log hreach hidle hactive hanswered
    (List.isEmpty_iff.mp hsent) hasked hjoined
  rw [hlife] at hlog
  have hlog' : life.log = [⟨3, "ann", "hi"⟩] := Option.some.inj hlog
  obtain ⟨buffer, hbuffer, hholds⟩ := hsees (by rw [hlog']; decide)
  rw [hlog'] at hholds
  exact ⟨s, hreach, buffer, hbuffer, hholds⟩

/-- Two clients are answered.  One chats, and the other asks for the history in
the same tick. -/
def joiningLate : List Action :=
  [.connect .new, .connect .new, .beginTick, .serve 0, .nextClient, .serve 0, .nextClient,
    .finishTick, .handle 0, .request 0 (chatSend "den" "hi"), .handle 1, .beginTick, .serve 1,
    .serve 2, .serve 3, .nextClient, .serve 4, .serve 5, .nextClient, .finishTick, .handle 1,
    .handle 1]

/-- The event that was said in the same tick is shown twice. -/
theorem shown_twice : ∃ s, run LabelledSystem.anyStep annAndBob joiningLate (.start ["den"])
    = some s ∧
    s.stage = .idle ∧ 1 ∈ s.active ∧ s.Answered 1 ∧ s.worker.messagesOut 1 = [] ∧
      s.toServer 1 = [] ∧
    (s.chat 1).joined "den" = true ∧ (s.lives "den").map RoomLife.log = some [⟨3, "ann", "hi"⟩] ∧
    ∃ buffer, (s.chat 1).screen.chatRoomHistory "den" = some buffer ∧
      buffer.Holds [⟨3, "ann", "hi"⟩, ⟨3, "ann", "hi"⟩] ∧ ¬ buffer.Holds [⟨3, "ann", "hi"⟩] := by
  obtain ⟨s, hrun, htest⟩ := Option.any_eq_true _ _ |>.mp
    (show (run LabelledSystem.anyStep annAndBob
    joiningLate (.start ["den"])).any (fun s => decide (s.stage = .idle ∧ 1 ∈ s.active ∧
      s.Answered 1 ∧ (s.worker.messagesOut 1).isEmpty ∧ (s.toServer 1).isEmpty ∧
      (s.chat 1).joined "den" = true ∧
      (s.lives "den").map RoomLife.log = some [⟨3, "ann", "hi"⟩] ∧
      ∃ buffer ∈ (s.chat 1).screen.chatRoomHistory "den",
        buffer.Holds [⟨3, "ann", "hi"⟩, ⟨3, "ann", "hi"⟩] ∧ ¬ buffer.Holds [⟨3, "ann", "hi"⟩]))
          = true
      by decide +kernel)
  obtain ⟨hidle, hactive, hanswered, hsent, hrequests, hjoined, hlog, hbuffer⟩ :=
    of_decide_eq_true htest
  exact ⟨s, hrun, hidle, hactive, hanswered, List.isEmpty_iff.mp hsent,
    List.isEmpty_iff.mp hrequests,
    hjoined, hlog, hbuffer⟩

end Tavernmx.Session
