/-
# `Tavernmx.Session.Closing` — no chat after a room's destruction

A ROOM_DESTROY is announced in step 2a, the events of the tick follow in step 2b,
and the room goes in step 3.  So a client in a room that is destroyed in the tick
in which something was said there is sent the CHAT_ECHO after the ROOM_DESTROY
(`echo_after_destroy`).

Without that (`NoLastWords`), a room that is announced as gone to a client is
gone, or it is back and the client has still to be told so in the tick, or the
client has left and is not in it (`Closed`).
-/
import Tavernmx.Session.Joining

namespace Tavernmx.Session

open Messaging Rooms Server Client

variable {userName : ConnId → String} {c : ConnId} {r : String} {s s' : Seat} {a : SeatAction}

/-! ## Notices in order -/

def Notice.isEcho : Notice → Bool
  | .echo _ => true
  | .listed _ | .created | .destroyed | .history _ => false

/-- No echo while the room is announced as gone. -/
def Obeys (closed : Bool) : List Notice → Prop
  | [] => True
  | n :: ns => (n.isEcho = true → closed = false) ∧ Obeys (n.closes closed) ns

theorem obeys_append {ns ms : List Notice} : ∀ {closed : Bool},
    Obeys closed (ns ++ ms) ↔ Obeys closed ns ∧ Obeys (ns.foldl Notice.closes closed) ms := by
  induction ns with
  | nil => exact ⟨fun h => ⟨trivial, h⟩, fun h => h.2⟩
  | cons n ns ih =>
      intro closed
      constructor
      · rintro ⟨hn, hrest⟩
        obtain ⟨hns, hms⟩ := ih.mp hrest
        exact ⟨⟨hn, hns⟩, hms⟩
      · rintro ⟨⟨hn, hns⟩, hms⟩
        exact ⟨hn, ih.mpr ⟨hns, hms⟩⟩

theorem obeys_of_no_echo {ns : List Notice} (h : ∀ n ∈ ns, n.isEcho = false) :
    ∀ closed, Obeys closed ns := by
  induction ns with
  | nil => exact fun _ => trivial
  | cons n ns ih =>
      intro closed
      refine ⟨?_, ih (fun m hm => h m (List.mem_cons_of_mem _ hm)) _⟩
      intro hecho
      cases (h n List.mem_cons_self).symm.trans hecho

theorem closes_of_isEcho {n : Notice} (h : n.isEcho = true) (closed : Bool) :
    n.closes closed = closed := by
  cases n with
  | echo event => rfl
  | listed present => cases h
  | created => cases h
  | destroyed => cases h
  | history events => cases h

/-- Echoes are fine where the room is not announced as gone. -/
theorem obeys_echoes {ns : List Notice} (h : ∀ n ∈ ns, n.isEcho = true) : Obeys false ns := by
  induction ns with
  | nil => exact trivial
  | cons n ns ih =>
      refine ⟨fun _ => rfl, ?_⟩
      rw [closes_of_isEcho (h n List.mem_cons_self)]
      exact ih fun m hm => h m (List.mem_cons_of_mem _ hm)

theorem echoNotices_isEcho {expired : ConnId → Bool} {life : Option RoomLife} :
    ∀ n ∈ echoNotices expired c life, n.isEcho = true := by
  intro n hn
  obtain ⟨event, rfl⟩ := echoNotices_are_echoes n hn
  rfl

/-! ## The condition -/

/-- At the end of the tick the room is not both marked for destruction and with
something to send to the client. -/
def SeatNoLastWords (c : ConnId) (s : Seat) : SeatAction → Prop
  | .finish => s.attends = true → ∀ life ∈ s.life, life.doomed = true → c ∈ life.members →
      life.pending = []
  | .connect | .leave | .begin | .serve _ | .hear | .ask _ => True

/-! ## The invariant -/

/-- The room is announced as gone to the client. -/
def Seat.closed (s : Seat) : Bool := s.sent.foldl Notice.closes false

/-- A room that is announced as gone is gone, or new, or the client has left. -/
def Closed (c : ConnId) (s : Seat) : Prop :=
  s.closed = true → s.life = none ∨
    ((∀ life ∈ s.life, life.fresh = true) ∧ s.attends = true) ∨
    (Outside c s.life ∧ s.present = false ∧ s.attends = false)

theorem open_of_not_sent (h : s.sent = []) : s.closed = false := by
  rw [Seat.closed, h]
  rfl

/-- Step 1 creates only rooms that are new. -/
theorem fresh_receive {m : Incoming} {life : Option RoomLife}
    (h : ∀ l ∈ life, l.fresh = true) :
    ∀ l ∈ RoomLife.receive userName r life m, l.fresh = true := by
  intro l hl
  cases life with
  | none =>
      rcases receive_none userName r m with hnone | hborn
      · rw [hnone] at hl
        cases hl
      · rw [hborn] at hl
        obtain rfl := Option.some.inj hl
        rfl
  | some old =>
      obtain ⟨new, hnew, hgrows⟩ := receive_some userName r m old
      rw [hnew] at hl
      obtain rfl := Option.some.inj hl
      exact hgrows.fresh.trans (h old rfl)

/-- What can be announced as gone when the announcements of a tick are made. -/
theorem closed_after_announcements (h : Closed c s) {creations destructions : Nat}
    (hcreations : 0 < creations ↔ s.life.any (·.fresh) = true)
    (hdestructions : 0 < destructions ↔ s.life.any (·.doomed) = true)
    (hfold : (announcements s.attends creations destructions).foldl Notice.closes s.closed = true) :
    s.life = none ∨ (∃ life, s.life = some life ∧ life.doomed = true ∧ s.attends = true) ∨
      (Outside c s.life ∧ s.present = false ∧ s.attends = false) := by
  cases hlife : s.life with
  | none => exact Or.inl rfl
  | some life =>
      rw [hlife] at hcreations hdestructions
      rcases Bool.eq_false_or_eq_true s.attends with hattends | hattends
      · cases hdoomed : life.doomed with
        | true => exact Or.inr (Or.inl ⟨life, rfl, hdoomed, hattends⟩)
        | false =>
            obtain rfl : destructions = 0 :=
              Nat.eq_zero_of_not_pos fun hpos => by cases hdoomed.symm.trans (hdestructions.mp hpos)
            rw [announcements, hattends, if_pos rfl, List.replicate_zero, List.append_nil] at hfold
            rcases Nat.eq_zero_or_pos creations with hzero | hpos
            · -- neither new nor announced as gone
              rw [hzero] at hfold
              rcases h hfold with hgone | ⟨hnew, -⟩ | ⟨-, -, hnot⟩
              · cases hlife.symm.trans hgone
              · have hcreated := hcreations.mpr (hnew life hlife)
                rw [hzero] at hcreated
                exact absurd hcreated (Nat.lt_irrefl 0)
              · cases hattends.symm.trans hnot
            · rw [foldl_replicate_of_settles (y := false) (fun _ => rfl) _ _ hpos] at hfold
              cases hfold
      · rw [announcements, hattends, if_neg Bool.false_ne_true] at hfold
        rcases h hfold with hgone | ⟨-, hnot⟩ | houtside
        · cases hlife.symm.trans hgone
        · cases hattends.symm.trans hnot
        · exact Or.inr (Or.inr (hlife ▸ houtside))

theorem closed_step (hbasic : s.Basic c) (h : Closed c s) (hstep : SeatStep userName c r s a s') :
    Closed c s' := by
  cases hstep with
  | connect known joined harrived hjoined =>
      intro hclosed
      obtain ⟨-, -, hsent, -⟩ := hbasic.absent harrived
      cases (open_of_not_sent hsent).symm.trans hclosed
  | leave =>
      intro hclosed
      rcases h hclosed with hgone | hnew | ⟨houtside, -, hattends⟩
      · exact Or.inl hgone
      · exact Or.inr (Or.inl hnew)
      · exact Or.inr (Or.inr ⟨houtside, rfl, hattends⟩)
  | begin hidle =>
      intro hclosed
      rcases h hclosed with hgone | ⟨hnew, -⟩ | ⟨houtside, hpresent, -⟩
      · exact Or.inl hgone
      · -- between ticks no room is new
        cases hlife : s.life with
        | none => exact Or.inl rfl
        | some life =>
            cases (hbasic.quiet hidle life hlife).fresh.symm.trans (hnew life hlife)
      · exact Or.inr (Or.inr ⟨houtside, hpresent, hpresent⟩)
  | serveOther m hticking hother =>
      intro hclosed
      rcases h hclosed with hgone | ⟨hnew, hattends⟩ | ⟨houtside, hleft⟩
      · rcases Bool.eq_false_or_eq_true s.attends with hattends | hattends
        · refine Or.inr (Or.inl ⟨?_, hattends⟩)
          exact fresh_receive fun l hl => by cases hgone.symm.trans hl
        · cases hpresent : s.present with
          | true =>
              -- a client that connected during the tick was sent nothing
              obtain ⟨hsent, -⟩ := hbasic.newcomer hpresent hattends hticking
              cases (open_of_not_sent hsent).symm.trans hclosed
          | false =>
              have houtside : Outside c s.life := fun l hl => by cases hgone.symm.trans hl
              exact Or.inr (Or.inr ⟨houtside.receive hother, rfl, hattends⟩)
      · exact Or.inr (Or.inl ⟨fresh_receive hnew, hattends⟩)
      · exact Or.inr (Or.inr ⟨houtside.receive hother, hleft⟩)
  | serveOwn m rest hticking hattends hown hrequests =>
      intro hclosed
      have hfold : (answer r s.life m).foldl Notice.closes s.closed = true := by
        rw [Seat.closed, ← List.foldl_append, Seat.sent, List.append_assoc]
        exact hclosed
      have hbefore : s.closed = true := by
        rcases answer_cases r s.life m with ⟨-, hlist⟩ | ⟨-, hhistory⟩
        · rw [hlist] at hfold
          exact (Bool.and_eq_true_iff.mp hfold).1
        · rw [foldl_of_neutral] at hfold
          · exact hfold
          · intro n hn
            obtain ⟨events, rfl⟩ := hhistory n hn
            exact fun _ => rfl
      rcases h hbefore with hgone | ⟨hnew, -⟩ | ⟨-, -, hnot⟩
      · refine Or.inr (Or.inl ⟨?_, hattends⟩)
        exact fresh_receive fun l hl => by cases hgone.symm.trans hl
      · exact Or.inr (Or.inl ⟨fresh_receive hnew, hattends⟩)
      · cases hattends.symm.trans hnot
  | finish expired creations destructions hticking hlive hcreations hdestructions =>
      intro hclosed
      have hfold : (announcements s.attends creations destructions).foldl Notice.closes s.closed
          = true := by
        have hall : (s.heard ++ (s.inbox ++ (announcements s.attends creations destructions ++
            echoNotices expired c s.life))).foldl Notice.closes false = true := hclosed
        rwa [← List.append_assoc, List.foldl_append, List.foldl_append,
          foldl_of_neutral fun n hn => closes_of_isEcho (echoNotices_isEcho n hn)] at hall
      rcases closed_after_announcements h hcreations hdestructions hfold with
        hgone | ⟨life, hlife, hdoomed, -⟩ | ⟨houtside, hpresent, -⟩
      · refine Or.inl ?_
        show RoomLife.endTick expired s.life = none
        rw [hgone]
        rfl
      · refine Or.inl ?_
        show RoomLife.endTick expired s.life = none
        rw [hlife, endTick_doomed hdoomed]
      · exact Or.inr (Or.inr ⟨houtside.endTick expired, hpresent, rfl⟩)
  | hear notice rest known joined shown pushed hinbox hknown hjoinedKnown hjoined hshown hpushed =>
      intro hclosed
      have hsame : s.closed = true := by
        rw [Seat.closed, ← sent_hear hinbox]
        exact hclosed
      exact h hsame
  | ask message => exact h

variable {allowed : Seat → SeatAction → Prop}

theorem closed_reachable (h : (seating userName c r).Reachable allowed s) : Closed c s := by
  refine h.invariant ?_ ?_
  · intro s hs hclosed
    cases (open_of_not_sent hs.sent).symm.trans hclosed
  · intro s a s' hreach ih _ hstep
    exact closed_step (basic_reachable hreach) ih hstep

theorem obeys_step (hclosed : Closed c s) (h : Obeys false s.sent)
    (hallowed : SeatNoLastWords c s a)
    (hstep : SeatStep userName c r s a s') : Obeys false s'.sent := by
  cases hstep with
  | connect known joined harrived hjoined => exact h
  | leave => exact h
  | begin hidle => exact h
  | serveOther m hticking hother => exact h
  | serveOwn m rest hticking hattends hown hrequests =>
      show Obeys false (s.heard ++ (s.inbox ++ answer r s.life m))
      rw [← List.append_assoc]
      refine obeys_append.mpr ⟨h, obeys_of_no_echo ?_ _⟩
      intro n hn
      rcases answer_cases r s.life m with ⟨-, hlist⟩ | ⟨-, hhistory⟩
      · rw [hlist] at hn
        rw [List.mem_singleton.mp hn]
        rfl
      · obtain ⟨events, rfl⟩ := hhistory n hn
        rfl
  | finish expired creations destructions hticking hlive hcreations hdestructions =>
      show Obeys false (s.heard ++ (s.inbox ++
        (announcements s.attends creations destructions ++ echoNotices expired c s.life)))
      rw [← List.append_assoc]
      refine obeys_append.mpr ⟨h, obeys_append.mpr ⟨obeys_of_no_echo ?_ _, ?_⟩⟩
      · intro n hn
        rcases announcements_cases n hn with rfl | rfl <;> rfl
      · rcases Bool.eq_false_or_eq_true
          ((announcements s.attends creations destructions).foldl Notice.closes s.closed) with
          hfold | hfold
        · -- announced as gone: nothing is sent
          have hnothing : echoNotices expired c s.life = [] := by
            rcases closed_after_announcements hclosed hcreations hdestructions hfold with
              hgone | ⟨life, hlife, hdoomed, hattends⟩ | ⟨houtside, -⟩
            · rw [hgone]
              rfl
            · rw [hlife, echoNotices]
              split
              · next hmember => rw [hallowed hattends life hlife hdoomed hmember.1, List.map_nil]
              · rfl
            · exact houtside.echoNotices expired
          rw [hnothing]
          exact trivial
        · show Obeys
            ((announcements s.attends creations destructions).foldl Notice.closes s.closed) _
          rw [hfold]
          exact obeys_echoes echoNotices_isEcho
  | hear notice rest known joined shown pushed hinbox hknown hjoinedKnown hjoined hshown hpushed =>
      show Obeys false ((s.heard ++ notice.toList) ++ rest)
      rw [sent_hear hinbox]
      exact h
  | ask message => exact h

theorem obeys_reachable (h : (seating userName c r).Reachable (SeatNoLastWords c) s) :
    Obeys false s.sent := by
  refine h.invariant ?_ ?_
  · intro s hs
    rw [hs.sent]
    exact trivial
  · intro s a s' hreach ih hallowed hstep
    exact obeys_step (closed_reachable hreach) ih hallowed hstep

/-! ## What a client is sent -/

/-- A message that announces the room as there. -/
def Reopens (r : String) (message : Message) : Prop :=
  (message.messageType = .roomCreate ∧ message.text "room_name" = r) ∨
    (message.messageType = .roomList ∧ r ∈ listedNames message)

/-- Between a ROOM_DESTROY and a CHAT_ECHO for the room, it is announced as there. -/
def NoChatAfterDestroy (r : String) (messages : List Message) : Prop :=
  ∀ before destroy between echo after, messages = before ++ destroy :: (between ++ echo :: after) →
    destroy.messageType = .roomDestroy → destroy.text "room_name" = r → isEchoFor r echo = true →
    ∃ message ∈ between, Reopens r message

theorem noticeOf_destroy {message : Message} (ht : message.messageType = .roomDestroy)
    (hr : message.text "room_name" = r) : noticeOf r message = some .destroyed := by
  simp only [noticeOf, ht, hr, if_true]

theorem noticeOf_isEchoFor {message : Message} (hmessage : FromServer message)
    (h : isEchoFor r message = true) : ∃ event, noticeOf r message = some (.echo event) := by
  cases hmessage with
  | chatEcho name event =>
      have hname : name = r := by
        rw [isEchoFor_echoOf] at h
        exact of_decide_eq_true h
      exact ⟨asShown event, by rw [noticeOf_echoOf, if_pos hname]⟩
  | roomList names hnodup hvalid => cases h
  | roomCreate name hvalid => cases h
  | roomDestroy name => cases h
  | roomHistory name events => cases h

/-- What does not announce the room as there leaves it announced as gone. -/
theorem foldl_closes_of_not_reopens : ∀ {messages : List Message},
    (∀ message ∈ messages, ¬ Reopens r message) →
    (noticesOf r messages).foldl Notice.closes true = true
  | [], _ => rfl
  | message :: messages, h => by
      have hstep : (noticeOf r message).toList.foldl Notice.closes true = true := by
        cases hn : noticeOf r message with
        | none => rfl
        | some n =>
            have hnot := h message List.mem_cons_self
            cases n with
            | listed present =>
                unfold noticeOf at hn
                split at hn
                case h_1 ht =>
                  have hpresent : present = false := by
                    rw [← Notice.listed.inj (Option.some.inj hn)]
                    exact decide_eq_false fun hmem => hnot (Or.inr ⟨ht, hmem⟩)
                  rw [hpresent]
                  rfl
                all_goals simp at hn
            | created =>
                unfold noticeOf at hn
                split at hn
                case h_2 ht =>
                  split at hn
                  next hname => exact absurd (Or.inl ⟨ht, hname⟩) hnot
                  next => cases hn
                all_goals simp at hn
            | destroyed => rfl
            | history events => rfl
            | echo event => rfl
      rw [noticesOf_cons, List.foldl_append, hstep]
      exact foldl_closes_of_not_reopens fun m hm => h m (List.mem_cons_of_mem _ hm)

/-- At the end of a tick the room is not both marked for destruction and with
events for the client. -/
def NoLastWords (c : ConnId) (r : String) (s : Tavern) : Action → Prop
  | .finishTick => c ∈ s.stage.clients → ∀ room ∈ s.worker.rooms.find? r,
      room.destroyRequested = true → c ∈ room.joinedClients → room.events = []
  | .connect _ | .drop _ | .expire _ | .request _ _ | .handle _ | .pick _ _ | .beginTick | .serve _
  | .nextClient => True

instance (c : ConnId) (r : String) (s : Tavern) : ∀ a, Decidable (NoLastWords c r s a)
  | .finishTick => inferInstanceAs (Decidable (_ → _))
  | .connect _ | .drop _ | .expire _ | .request _ _ | .handle _ | .pick _ _ | .beginTick | .serve _
  | .nextClient => inferInstanceAs (Decidable True)

theorem seatNoLastWords {s : Tavern} {a : Action} {b : SeatAction} {t : Seat} (hsound : s.Sound)
    (ht : SeatOf c r s t) (h : NoLastWords c r s a) (hmatches : Matches c s a b) :
    SeatNoLastWords c t b := by
  obtain ⟨shown, -, rfl⟩ := ht
  cases hmatches with
  | finishTick =>
      intro hattends life hlife hdoomed hmember
      have hroom := (hsound.tracks.named r).room
      have hlife' : s.lives r = some life := hlife
      rw [hlife'] at hroom
      exact h (of_decide_eq_true hattends) _ hroom hdoomed hmember
  | connect clientRooms => trivial
  | drop => trivial
  | request message => trivial
  | handle => trivial
  | pick index => trivial
  | beginTick => trivial
  | serve now hstage hsent => trivial

/-- **A client is sent no CHAT_ECHO for a room that it was told is gone**, if no
room is destroyed in a tick in which something was said in it. -/
theorem no_chat_after_destroy {initialRooms : List String} {s : Tavern}
    (h : (tavern userName initialRooms).Reachable (NoLastWords c r) s) :
    NoChatAfterDestroy r (s.sent c) := by
  obtain ⟨t, ⟨shown, -, rfl⟩, hreach⟩ := seat_of_reachable c r (SeatNoLastWords c)
    (fun _ _ _ _ hsound ht ha hmatches => seatNoLastWords hsound ht ha hmatches) h
  have hsound := sound_reachable h
  have hobeys : Obeys false (noticesOf r (s.sent c)) := by
    rw [Tavern.sent, noticesOf_append]
    exact obeys_reachable hreach
  intro before destroy between echo after heq hdestroy hroom hecho
  by_contra hnone
  have hquiet : ∀ message ∈ between, ¬ Reopens r message :=
    fun message hmem hreopens => hnone ⟨message, hmem, hreopens⟩
  have hserver : FromServer echo := by
    have hmem : echo ∈ s.handled c ++ s.worker.messagesOut c := by
      show echo ∈ s.sent c
      rw [heq]
      simp
    exact (List.mem_append.mp hmem).elim (hsound.handled c echo) (hsound.lanes c echo)
  obtain ⟨event, hevent⟩ := noticeOf_isEchoFor hserver hecho
  -- the room is announced as gone, and stays so up to the echo
  rw [heq, noticesOf_append, noticesOf_cons, noticeOf_destroy hdestroy hroom, noticesOf_append,
    noticesOf_cons, hevent] at hobeys
  obtain ⟨-, hrest⟩ := obeys_append.mp hobeys
  have hgone : Obeys true
      (noticesOf r between ++ ((some (Notice.echo event)).toList ++ noticesOf r after)) := hrest.2
  have hclosed : (noticesOf r between).foldl Notice.closes true = false :=
    (obeys_append.mp hgone).2.1 rfl
  cases hclosed.symm.trans (foldl_closes_of_not_reopens hquiet)

/-- A client joins, chats, and destroys the room in the next tick. -/
def chatThenDestroy : List Action :=
  [.connect .new, .beginTick, .serve 0, .nextClient, .finishTick, .handle 0, .beginTick, .serve 1,
    .serve 2, .nextClient, .finishTick, .request 0 (chatSend "den" "hi"), .beginTick, .serve 3,
    .nextClient, .finishTick, .request 0 (createRoomDestroy "den"), .beginTick, .serve 4,
    .nextClient, .finishTick]

theorem no_chat_after_destroy_den : ∃ s : Tavern,
    (tavern annAndBob ["den"]).Reachable (NoLastWords 0 "den") s ∧
      (s.sent 0).map Message.messageType = [.roomList, .roomHistory, .chatEcho, .roomDestroy] ∧
      NoChatAfterDestroy "den" (s.sent 0) := by
  obtain ⟨s, hreach, htest⟩ := exists_of_run (NoLastWords 0 "den") annAndBob ["den"] chatThenDestroy
    (fun s => decide ((s.sent 0).map Message.messageType
      = [.roomList, .roomHistory, .chatEcho, .roomDestroy])) (by decide +kernel)
  exact ⟨s, hreach, of_decide_eq_true htest, no_chat_after_destroy hreach⟩

/-- The same in one tick. -/
def chatAndDestroy : List Action :=
  [.connect .new, .beginTick, .serve 0, .nextClient, .finishTick, .handle 0, .beginTick, .serve 1,
    .serve 2, .nextClient, .finishTick, .handle 0, .request 0 (chatSend "den" "hi"),
    .request 0 (createRoomDestroy "den"), .beginTick, .serve 3, .serve 4, .nextClient, .finishTick]

/-- The client is sent the event of a room that it was told is gone. -/
theorem echo_after_destroy : ∃ s : Tavern,
    (tavern annAndBob ["den"]).Reachable LabelledSystem.anyStep s ∧
      ¬ NoChatAfterDestroy "den" (s.sent 0) := by
  obtain ⟨s, hreach, htest⟩ := exists_of_run LabelledSystem.anyStep annAndBob ["den"] chatAndDestroy
    (fun s => decide ((s.worker.messagesOut 0).map (fun m => (m.messageType, m.text "room_name"))
      = [(.roomDestroy, "den"), (.chatEcho, "den")])) (by decide +kernel)
  have hsent := of_decide_eq_true htest
  obtain ⟨destroy, rest, hout, hdestroy, hrest⟩ := List.map_eq_cons_iff.mp hsent
  obtain ⟨echo, nothing, rfl, hecho, hnothing⟩ := List.map_eq_cons_iff.mp hrest
  obtain rfl := List.map_eq_nil_iff.mp hnothing
  obtain ⟨hdestroyType, hdestroyRoom⟩ := Prod.mk.inj hdestroy
  obtain ⟨hechoType, hechoRoom⟩ := Prod.mk.inj hecho
  refine ⟨s, hreach, ?_⟩
  intro hnever
  obtain ⟨message, hmem, -⟩ := hnever (s.handled 0) destroy [] echo []
    (by rw [Tavern.sent, hout]; rfl)
    hdestroyType hdestroyRoom (by simp [isEchoFor, hechoType, hechoRoom])
  cases hmem

end Tavernmx.Session
