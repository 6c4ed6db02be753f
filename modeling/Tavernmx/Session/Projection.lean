/-
# `Tavernmx.Session.Projection` — the system seen from one seat

`Tavern.seat s c r` is what the state `s` is at the seat of client `c` and room
`r`.  One thing is not a function of the state: a ring buffer does not tell which
events it has dropped, so what was `shown` comes as a parameter, related to the
buffer by `Shows`.

`Matches` says which step of the seat an action is; every other action leaves the
seat as it is.  `seat_of_reachable` puts it together, and carries a condition on
the actions of the system over to the steps of the seat.
-/
import Tavernmx.Session.Tavern

namespace Tavernmx.Session

open Messaging Rooms Server Client

def Tavern.seat (s : Tavern) (c : ConnId) (r : String) (shown : Option (List RoomEvent)) :
    Seat where
  life := s.lives r
  ticking := s.stage.ticking
  arrived := c < s.next
  present := c ∈ s.active
  attends := c ∈ s.stage.clients
  requests := s.toServer c
  heard := noticesOf r (s.handled c)
  inbox := noticesOf r (s.worker.messagesOut c)
  known := (s.chat c).knows r
  joined := (s.chat c).joined r
  shown

/-- The seat of a state, and what its buffer shows. -/
def SeatOf (c : ConnId) (r : String) (s : Tavern) (t : Seat) : Prop :=
  ∃ shown, Shows ((s.chat c).screen.chatRoomHistory r) shown ∧ t = s.seat c r shown

/-- The step of the seat of `c` that an action is. -/
inductive Matches (c : ConnId) (s : Tavern) : Action → SeatAction → Prop where
  | connect (clientRooms : RoomManager ClientRoom) : Matches c s (.connect clientRooms) .connect
  | drop : Matches c s (.drop c) .leave
  | request (message : Message) : Matches c s (.request c message) (.ask message)
  | handle : Matches c s (.handle c) .hear
  | pick (index : Nat) : Matches c s (.pick c index) .hear
  | beginTick : Matches c s .beginTick .begin
  | serve (now : Int64) {clients waiting : List ConnId} {sender : ConnId} {message : Message}
      {rest : List Message} (hstage : s.stage = .gathering clients (sender :: waiting))
      (hsent : s.toServer sender = message :: rest) :
      Matches c s (.serve now) (.serve ⟨sender, message, now⟩)
  | finishTick : Matches c s .finishTick .finish

theorem joined_knows {chat : ChatWindow} {r : String} (h : chat.joined r = true) :
    chat.knows r = true := by
  rw [ChatWindow.joined] at h
  rw [ChatWindow.knows]
  cases hfind : chat.clientRooms.find? r with
  | none =>
      rw [hfind] at h
      cases h
  | some room => rfl

variable {userName : ConnId → String} {c : ConnId} {r : String} {s s' : Tavern} {a : Action}

/-- The seat of a client that an action does not concern. -/
theorem seatOf_congr {shown : Option (List RoomEvent)}
    (hshown : Shows ((s.chat c).screen.chatRoomHistory r) shown)
    (hlife : s'.lives r = s.lives r) (hticking : s'.stage.ticking = s.stage.ticking)
    (harrived : c < s'.next ↔ c < s.next) (hpresent : c ∈ s'.active ↔ c ∈ s.active)
    (hattends : s'.stage.clients = s.stage.clients)
    (hrequests : s'.toServer c = s.toServer c) (hheard : s'.handled c = s.handled c)
    (hinbox : s'.worker.messagesOut c = s.worker.messagesOut c) (hchat : s'.chat c = s.chat c) :
    SeatOf c r s' (s.seat c r shown) := by
  refine ⟨shown, hchat ▸ hshown, ?_⟩
  unfold Tavern.seat
  simp only [hlife, hticking, harrived, hpresent, hattends, hrequests, hheard, hinbox, hchat]

/-- Handling a message, at the seat of the client. -/
theorem hear_of_heard (userName : ConnId → String) {message : Message} {rest : List Message}
    {chat : ChatWindow}
    {pushed : List Message} {shown : Option (List RoomEvent)}
    (hsent : s.worker.messagesOut c = message :: rest)
    (hheard : Heard (s.chat c) message chat pushed)
    (hs' : s' = { s with
      worker := { s.worker with messagesOut := Function.update s.worker.messagesOut c rest }
      chat := Function.update s.chat c chat
      toServer := Mailbox.push s.toServer c pushed
      handled := Mailbox.push s.handled c [message] })
    (hshown : Shows ((s.chat c).screen.chatRoomHistory r) shown) :
    ∃ t', SeatOf c r s' t' ∧ SeatStep userName c r (s.seat c r shown) .hear t' := by
  obtain ⟨shown', hshown', hshows⟩ := hheard.shows r shown hshown
  refine ⟨s'.seat c r shown', ⟨shown', ?_, rfl⟩, ?_⟩
  · rw [hs']
    simpa using hshown'
  · have hseat : s'.seat c r shown' = { s.seat c r shown with
        requests := (s.seat c r shown).requests ++ pushed
        heard := (s.seat c r shown).heard ++ (noticeOf r message).toList
        inbox := noticesOf r rest
        known := chat.knows r
        joined := chat.joined r
        shown := shown' } := by
      subst hs'
      simp [Tavern.seat, noticesOf_cons]
    rw [hseat]
    refine .hear (noticeOf r message) (noticesOf r rest) _ _ _ pushed ?_
      (hheard.knows r) joined_knows
      (hheard.joined r) hshows hheard.requests
    show noticesOf r (s.worker.messagesOut c) = _
    rw [hsent, noticesOf_cons]

/-- The user picks a room, at the seat of the client. -/
theorem hear_of_joins (userName : ConnId → String) {index : Nat} {chat : ChatWindow}
    {pushed : List Message}
    {shown : Option (List RoomEvent)}
    (hjoins : Joins { s.chat c with screen := (s.chat c).screen.pickRoom index } chat pushed)
    (hs' : s' = { s with
      chat := Function.update s.chat c chat
      toServer := Mailbox.push s.toServer c pushed })
    (hshown : Shows ((s.chat c).screen.chatRoomHistory r) shown) :
    ∃ t', SeatOf c r s' t' ∧ SeatStep userName c r (s.seat c r shown) .hear t' := by
  refine ⟨s'.seat c r shown, ⟨shown, ?_, rfl⟩, ?_⟩
  · have hscreen : (s'.chat c).screen.chatRoomHistory = (s.chat c).screen.chatRoomHistory := by
      rw [hs']
      simp [hjoins.screen, ChatWindowScreen.pickRoom]
    rw [hscreen]
    exact hshown
  · have hseat : s'.seat c r shown = { s.seat c r shown with
        requests := (s.seat c r shown).requests ++ pushed
        heard := (s.seat c r shown).heard ++ (none : Option Notice).toList
        inbox := (s.seat c r shown).inbox
        known := chat.knows r
        joined := chat.joined r
        shown } := by
      subst hs'
      simp [Tavern.seat]
    rw [hseat]
    refine .hear none _ _ _ _ pushed rfl (hjoins.knows r) joined_knows ?_
      (fun _ _ => rfl) hjoins.requests
    intro hr
    exact (hjoins.joined r hr).imp_left fun hold => ⟨hold, fun _ h => by cases h⟩

theorem ticking_of_gathering {clients waiting : List ConnId} {shown : Option (List RoomEvent)}
    (hstage : s.stage = .gathering clients waiting) : (s.seat c r shown).ticking = true := by
  show s.stage.ticking = true
  rw [hstage]
  rfl

/-- Step 1 handles a message, at a seat. -/
theorem seat_serve (h : s.Sound) {now : Int64} {clients waiting : List ConnId} {d : ConnId}
    {message : Message} {rest : List Message} {worker : Worker} {shown : Option (List RoomEvent)}
    (hstage : s.stage = .gathering clients (d :: waiting)) (hsent : s.toServer d = message :: rest)
    (hok : s.worker.handleMessage userName ⟨d, message, now⟩ = .ok worker) :
    SeatStep userName c r (s.seat c r shown) (.serve ⟨d, message, now⟩) (Tavern.seat { s with
      worker
      lives := s.lives.receive userName ⟨d, message, now⟩
      toServer := Function.update s.toServer d rest } c r shown) := by
  obtain ⟨-, replies, hreplies, hout⟩ := handled_of_ok h.tracks hok
  by_cases hd : d = c
  · subst hd
    have hattends : d ∈ s.stage.clients := h.waiting d (by rw [hstage]; exact List.mem_cons_self)
    have hseat : Tavern.seat { s with
        worker, lives := s.lives.receive userName ⟨d, message, now⟩
        toServer := Function.update s.toServer d rest } d r shown = { s.seat d r shown with
          life := RoomLife.receive userName r (s.lives r) ⟨d, message, now⟩
          requests := rest
          inbox := (s.seat d r shown).inbox ++ answer r (s.lives r) ⟨d, message, now⟩ } := by
      simp [Tavern.seat, hout, noticesOf_replies hreplies r, Lives.receive]
    rw [hseat]
    exact .serveOwn ⟨d, message, now⟩ rest (ticking_of_gathering hstage)
      (decide_eq_true hattends) rfl
      hsent
  · have hseat : Tavern.seat { s with
        worker, lives := s.lives.receive userName ⟨d, message, now⟩
        toServer := Function.update s.toServer d rest } c r shown = { s.seat c r shown with
          life := RoomLife.receive userName r (s.lives r) ⟨d, message, now⟩ } := by
      simp [Tavern.seat, hout, Lives.receive, Mailbox.push_of_ne (Ne.symm hd),
        Function.update_of_ne (Ne.symm hd)]
    rw [hseat]
    exact .serveOther ⟨d, message, now⟩ (ticking_of_gathering hstage) hd

/-- A connection that counts has not expired. -/
theorem Tavern.Sound.live (h : s.Sound) {shown : Option (List RoomEvent)}
    (hcounts : (s.seat c r shown).Counts) : s.expired c = false := by
  cases hexpired : s.expired c with
  | false => rfl
  | true =>
      obtain ⟨-, hactive, hattends⟩ := h.expired c hexpired
      rcases hcounts with hpresent | hattends'
      · exact absurd (of_decide_eq_true hpresent) hactive
      · exact absurd (of_decide_eq_true hattends') hattends

/-- Steps 2 and 3, at a seat. -/
theorem seat_finishTick (h : s.Sound) {clients : List ConnId} {shown : Option (List RoomEvent)}
    (hstage : s.stage = .gathering clients []) :
    SeatStep userName c r (s.seat c r shown) .finish (Tavern.seat { s with
      worker := s.worker.finishTick clients s.expired
      lives := s.lives.endTick s.expired
      stage := .idle } c r shown) := by
  have hclients : s.stage.clients = clients := by rw [hstage]; rfl
  have hnamed := h.tracks.named r
  have hinbox : noticesOf r ((s.worker.finishTick clients s.expired).messagesOut c)
      = noticesOf r (s.worker.messagesOut c) ++
        (announcements (c ∈ clients) (s.worker.newRooms.count r)
          (s.worker.destroyedRooms.count r) ++
          echoNotices s.expired c (s.lives r)) := by
    rw [finishTick_messagesOut h.tracks (h.snapshot hstage), noticesOf_append, noticesOf_append,
      noticesOf_notices, noticesOf_rooms h.tracks]
  have hseat : Tavern.seat { s with
      worker := s.worker.finishTick clients s.expired
      lives := s.lives.endTick s.expired
      stage := .idle } c r shown = { s.seat c r shown with
        life := RoomLife.endTick s.expired (s.seat c r shown).life
        ticking := false
        attends := false
        inbox := (s.seat c r shown).inbox ++
          (announcements (s.seat c r shown).attends (s.worker.newRooms.count r)
            (s.worker.destroyedRooms.count r) ++
            echoNotices s.expired c (s.seat c r shown).life) } := by
    simp [Tavern.seat, hinbox, hclients, Lives.endTick]
  rw [hseat]
  exact .finish s.expired _ _ (ticking_of_gathering hstage) h.live
    (List.count_pos_iff.trans hnamed.newRooms) (List.count_pos_iff.trans hnamed.destroyedRooms)

/-- **One action of the system is one step of the seat, or none.** -/
theorem seat_step (h : s.Sound) (hstep : TavernStep userName s a s') {t : Seat}
    (ht : SeatOf c r s t) :
    SeatOf c r s' t ∨ ∃ b t', SeatOf c r s' t' ∧ Matches c s a b ∧
      SeatStep userName c r t b t' := by
  obtain ⟨shown, hshown, rfl⟩ := ht
  cases hstep with
  | connect clientRooms hrooms hunmarked =>
      by_cases hc : c = s.next
      · refine Or.inr ⟨.connect, _, ⟨none, ?_, rfl⟩, .connect clientRooms, ?_⟩
        · subst hc
          simp [Shows, ChatWindowScreen.new]
        · have harrived : (s.seat c r shown).arrived = false :=
            decide_eq_false (hc ▸ Nat.lt_irrefl _)
          have hstep : SeatStep userName c r (s.seat c r shown) .connect _ := .connect
            (ChatWindow.knows ⟨clientRooms, .new⟩ r)
              (ChatWindow.joined ⟨clientRooms, .new⟩ r) harrived
            joined_knows
          subst hc
          simpa [Tavern.seat] using hstep
      · have hlt : c < s.next + 1 ↔ c < s.next :=
          ⟨fun h => lt_of_le_of_ne (Nat.le_of_lt_succ h) hc, Nat.lt_succ_of_lt⟩
        exact Or.inl (seatOf_congr hshown rfl rfl hlt (by simp [hc]) rfl
          (Function.update_of_ne hc ..) rfl rfl (Function.update_of_ne hc ..))
  | drop d =>
      by_cases hd : c = d
      · subst hd
        refine Or.inr ⟨.leave, _, ⟨shown, hshown, rfl⟩, .drop, ?_⟩
        have hgone : c ∉ s.active.erase c := h.active.not_mem_erase
        have hseat : Tavern.seat { s with active := s.active.erase c } c r shown
            = { s.seat c r shown with present := false } := by
          simp [Tavern.seat, hgone]
        rw [hseat]
        exact .leave
      · exact Or.inl (seatOf_congr hshown rfl rfl Iff.rfl (List.mem_erase_of_ne hd)
          rfl rfl rfl rfl rfl)
  | expire d hknown hactive hclients => exact Or.inl ⟨shown, hshown, rfl⟩
  | request d message =>
      by_cases hd : c = d
      · subst hd
        refine Or.inr ⟨.ask message, _, ⟨shown, hshown, rfl⟩, .request message, ?_⟩
        have hseat : Tavern.seat
            { s with toServer := Mailbox.push s.toServer c [message] } c r shown
            = { s.seat c r shown with
              requests := (s.seat c r shown).requests ++ [message] } := by
          simp [Tavern.seat]
        rw [hseat]
        exact .ask message
      · exact Or.inl (seatOf_congr hshown rfl rfl Iff.rfl Iff.rfl rfl
          (Mailbox.push_of_ne hd) rfl rfl rfl)
  | @handle d message rest chat pushed hsent hok =>
      by_cases hd : c = d
      · subst hd
        obtain ⟨t', ht', hhear⟩ := hear_of_heard userName hsent (h.heard hsent hok).2 rfl hshown
        exact Or.inr ⟨.hear, t', ht', .handle, hhear⟩
      · exact Or.inl (seatOf_congr hshown rfl rfl Iff.rfl Iff.rfl rfl (Mailbox.push_of_ne hd)
          (Mailbox.push_of_ne hd) (Function.update_of_ne hd ..) (Function.update_of_ne hd ..))
  | @pick d index chat pushed hok =>
      by_cases hd : c = d
      · subst hd
        obtain ⟨t', ht', hhear⟩ := hear_of_joins userName (h.joins hok) rfl hshown
        exact Or.inr ⟨.hear, t', ht', .pick index, hhear⟩
      · exact Or.inl (seatOf_congr hshown rfl rfl Iff.rfl Iff.rfl rfl
          (Mailbox.push_of_ne hd) rfl rfl
          (Function.update_of_ne hd ..))
  | beginTick hidle =>
      refine Or.inr ⟨.begin, _, ⟨shown, hshown, rfl⟩, .beginTick, ?_⟩
      exact .begin (by show s.stage.ticking = false; rw [hidle]; rfl)
  | serve now hstage hsent hok =>
      exact Or.inr ⟨_, _, ⟨shown, hshown, rfl⟩, .serve now hstage hsent,
        seat_serve h hstage hsent hok⟩
  | @nextClient clients waiting d hstage =>
      exact Or.inl (seatOf_congr hshown rfl (by rw [hstage]; rfl) Iff.rfl Iff.rfl
        (by rw [hstage]; rfl)
        rfl rfl rfl rfl)
  | finishTick hstage =>
      exact Or.inr ⟨.finish, _, ⟨shown, hshown, rfl⟩, .finishTick, seat_finishTick h hstage⟩

theorem seat_start (initialRooms : List String) (c : ConnId) (r : String) :
    SeatStarts ((Tavern.start initialRooms).seat c r none) where
  idle := rfl
  quiet := by
    intro life hlife
    have hstart : Lives.start initialRooms r = some life := hlife
    unfold Lives.start at hstart
    split at hstart
    · obtain rfl := Option.some.inj hstart
      exact ⟨⟨rfl, rfl, rfl⟩, rfl⟩
    · cases hstart
  arrived := rfl
  present := rfl
  attends := rfl
  requests := rfl
  sent := rfl
  joined := fun h => by cases h

variable {initialRooms : List String} {allowed : Tavern → Action → Prop}

/-- **Every run of the system is, at every seat, a run of the seat.** -/
theorem seat_of_reachable (c : ConnId) (r : String) (allowed' : Seat → SeatAction → Prop)
    (hallowed : ∀ s a b t, s.Sound → SeatOf c r s t → allowed s a → Matches c s a b → allowed' t b)
    (h : (tavern userName initialRooms).Reachable allowed s) :
    ∃ t, SeatOf c r s t ∧ (seating userName c r).Reachable allowed' t := by
  refine h.simulate ?_ ?_
  · rintro s rfl
    exact ⟨_, ⟨none, rfl, rfl⟩, seat_start initialRooms c r⟩
  · intro s a s' t hreach ht ha hstep
    have hsound := sound_reachable hreach
    rcases seat_step hsound hstep ht with hsame | ⟨b, t', ht', hmatches, hb⟩
    · exact Or.inl hsame
    · exact Or.inr ⟨b, t', ht', hallowed s a b t hsound ht ha hmatches, hb⟩

end Tavernmx.Session
