/-
# `Tavernmx.Session.Spoken` — what was said, and what is heard of it

A record is kept of the messages that step 1 handles.  Of these, the CHAT_SENDs that name a
room `r` are what was `spoken` in it: with the sender's name as the HELLO of its connection
gave it, and the server's time.

The chat of a room reaches a client in two ways, as echoes of each tick and as the answer to a
request for the history, and through buffers of two sizes.  `Heard` is what can be relied on
whatever the rooms' lives are: nobody is sent anything that was not said there, under
another name, twice, or in another order.  `nothing_made_up` says it of the network.
-/
import Tavernmx.Session.NetworkRefines

namespace Tavernmx.Session

open Messaging Rooms Server Client

variable {codec : MsgPack} {userName : ConnId → String} {r : String}

/-! ## What was said -/

/-- What a message that is handled says in the room. -/
def said (userName : ConnId → String) (r : String) (m : Incoming) : Option RoomEvent :=
  if m.message.messageType = .chatSend ∧ m.roomName = r then some (m.event userName) else none

def spoken (userName : ConnId → String) (r : String) (served : List Incoming) : List RoomEvent :=
  served.filterMap (said userName r)

theorem spoken_append (served served' : List Incoming) :
    spoken userName r (served ++ served') = spoken userName r served ++ spoken userName r served' :=
  List.filterMap_append

theorem spoken_singleton (m : Incoming) : spoken userName r [m] = (said userName r m).toList := by
  rw [spoken, List.filterMap_cons]
  cases said userName r m <;> rfl

/-- What is heard of a room as an echo. -/
def Notice.echoed : Notice → Option RoomEvent
  | echo event => some event
  | listed _ | created | destroyed | history _ => none

/-- The echoes for the room, in order. -/
def echoesFor (r : String) (messages : List Message) : List RoomEvent :=
  (noticesOf r messages).filterMap Notice.echoed

/-- What a ROOM_HISTORY among the messages shows of the room. -/
def TellsHistory (r : String) (messages : List Message) (events : List RoomEvent) : Prop :=
  Notice.history events ∈ noticesOf r messages

/-! ## What a room keeps of it -/

/-- `before` was said in the room before the tick, `during` in it. -/
structure Keeping (life : Option RoomLife) (before during : List RoomEvent) : Prop where
  log : ∀ l ∈ life, l.log.Sublist (before ++ during)
  pending : ∀ l ∈ life, l.pending.Sublist during

theorem pending_join (c : ConnId) (l : RoomLife) : (l.join c).pending = l.pending := by
  unfold RoomLife.join
  split <;> rfl

theorem Keeping.none {before during : List RoomEvent} : Keeping none before during :=
  ⟨(fun _ h => by cases h), fun _ h => by cases h⟩

/-- One room under one message. -/
theorem Keeping.receive {life : Option RoomLife} {before during : List RoomEvent}
    (h : Keeping life before during) (m : Incoming) :
    Keeping (RoomLife.receive userName r life m) before
      (during ++ (said userName r m).toList) := by
  have hmore : Keeping life before (during ++ (said userName r m).toList) := by
    refine ⟨fun l hl => ?_, fun l hl => (h.pending l hl).trans (List.sublist_append_left ..)⟩
    rw [← List.append_assoc]
    exact (h.log l hl).trans (List.sublist_append_left ..)
  by_cases hr : m.roomName = r
  · cases life with
    | none =>
        rcases receive_none userName r m with hnone | hborn
        · rw [hnone]
          exact .none
        · rw [hborn]
          refine ⟨fun l hl => ?_, fun l hl => ?_⟩ <;> obtain rfl := Option.some.inj hl <;>
            exact List.nil_sublist _
    | some l =>
        unfold RoomLife.receive
        rw [if_pos hr]
        split
        · exact hmore
        · refine ⟨fun l' hl' => ?_, fun l' hl' => ?_⟩ <;> obtain rfl := Option.some.inj hl'
          · rw [RoomLife.log_join]
            exact hmore.log l rfl
          · rw [pending_join]
            exact hmore.pending l rfl
        · refine ⟨fun l' hl' => ?_, fun l' hl' => ?_⟩ <;> obtain rfl := Option.some.inj hl'
          · exact hmore.log l rfl
          · exact hmore.pending l rfl
        · next htype =>
          rw [said, if_pos ⟨htype, hr⟩]
          refine ⟨fun l' hl' => ?_, fun l' hl' => ?_⟩ <;> obtain rfl := Option.some.inj hl'
          · rw [RoomLife.log_hear, ← List.append_assoc]
            exact (h.log l rfl).append_right _
          · exact (h.pending l rfl).append_right _
        · exact hmore
  · rw [RoomLife.receive_of_ne hr]
    exact hmore

/-- One room at the end of the tick. -/
theorem Keeping.endTick {life : Option RoomLife} {before during : List RoomEvent}
    (h : Keeping life before during) (expired : ConnId → Bool) :
    Keeping (RoomLife.endTick expired life) (before ++ during) [] := by
  cases life with
  | none => exact .none
  | some l =>
      cases hdoomed : l.doomed with
      | true =>
          rw [endTick_doomed hdoomed]
          exact .none
      | false =>
          rw [endTick_kept hdoomed]
          refine ⟨fun l' hl' => ?_, fun l' hl' => ?_⟩ <;> obtain rfl := Option.some.inj hl'
          · rw [List.append_nil]
            show (RoomLife.told _ ++ RoomLife.pending _).Sublist _
            simp only [RoomLife.settle, List.append_nil]
            exact h.log l rfl
          · exact List.nil_sublist _

/-! ## What a client hears of it -/

/-- What the clients were sent of the room, and what it keeps, was said in it. -/
structure Faithful (r : String) (t : Tavern) (before during : List RoomEvent) : Prop where
  keeping : Keeping (t.lives r) before during
  heard : ∀ c, (echoesFor r (t.sent c)).Sublist (before.map asShown)
  histories : ∀ c events, TellsHistory r (t.sent c) events →
    events.Sublist ((before ++ during).map asShown)

def Tavern.Hears (userName : ConnId → String) (t : Tavern) (served : List Incoming) : Prop :=
  ∀ r, ∃ before during, spoken userName r served = before ++ during ∧ Faithful r t before during

variable {t t' : Tavern} {before during : List RoomEvent}

theorem echoesFor_append (ms ms' : List Message) :
    echoesFor r (ms ++ ms') = echoesFor r ms ++ echoesFor r ms' := by
  rw [echoesFor, noticesOf_append, List.filterMap_append]
  rfl

theorem tellsHistory_append {ms ms' : List Message} {events : List RoomEvent} :
    TellsHistory r (ms ++ ms') events ↔ TellsHistory r ms events ∨ TellsHistory r ms' events := by
  rw [TellsHistory, noticesOf_append, List.mem_append]
  rfl

/-- Nothing happens in the room, and nothing is sent. -/
theorem Faithful.congr (h : Faithful r t before during) (hlives : t'.lives r = t.lives r)
    (hsent : ∀ c, t'.sent c = t.sent c) : Faithful r t' before during :=
  ⟨hlives ▸ h.keeping, fun c => hsent c ▸ h.heard c, fun c events => hsent c ▸ h.histories c events⟩

/-- Somebody is sent more. -/
theorem Faithful.send {before' during' : List RoomEvent} (h : Faithful r t before during)
    (pushed : ConnId → List Message) (hkeeping : Keeping (t'.lives r) before' during')
    (hmore : (before ++ during).Sublist (before' ++ during'))
    (hsent : ∀ c, t'.sent c = t.sent c ++ pushed c)
    (hechoes : ∀ c,
      (echoesFor r (t.sent c) ++ echoesFor r (pushed c)).Sublist (before'.map asShown))
    (hhistories : ∀ c events, TellsHistory r (pushed c) events →
      events.Sublist ((before' ++ during').map asShown)) : Faithful r t' before' during' := by
  refine ⟨hkeeping, fun c => ?_, fun c events htells => ?_⟩
  · rw [hsent, echoesFor_append]
    exact hechoes c
  · rw [hsent, tellsHistory_append] at htells
    rcases htells with htells | htells
    · exact (h.histories c events htells).trans (hmore.map asShown)
    · exact hhistories c events htells

/-! ### The answers -/

theorem echoed_answer {life : Option RoomLife} {m : Incoming} :
    (answer r life m).filterMap Notice.echoed = [] := by
  unfold answer
  split
  · rfl
  · split
    · split <;> rfl
    · rfl
  · rfl

theorem sublist_shownLog (log : List RoomEvent) (n : Nat) : (shownLog log n).Sublist log := by
  unfold shownLog
  split
  · exact List.Sublist.refl _
  · exact (List.take_sublist ..).trans (List.drop_sublist ..)

theorem history_answer {life : Option RoomLife} {m : Incoming} {events : List RoomEvent}
    (hkeeping : Keeping life before during) (h : Notice.history events ∈ answer r life m) :
    events.Sublist ((before ++ during).map asShown) := by
  unfold answer at h
  split at h
  · cases List.mem_singleton.mp h
  · split at h
    next l =>
      split at h
      · obtain rfl := Notice.history.inj (List.mem_singleton.mp h)
        exact ((sublist_shownLog ..).trans (hkeeping.log l rfl)).map asShown
      · cases h
    · cases h
  · cases h

/-- Step 1 handles a message. -/
theorem Faithful.serve (h : Faithful r t before during) (hsound : t.Sound) {m : Incoming}
    {worker : Worker} (hok : t.worker.handleMessage userName m = .ok worker)
    (hlives : t'.lives = t.lives.receive userName m)
    (hsent : ∀ c, t'.sent c = t.handled c ++ worker.messagesOut c) :
    Faithful r t' before (during ++ (said userName r m).toList) := by
  obtain ⟨-, replies, hreplies, hout⟩ := handled_of_ok hsound.tracks hok
  have hanswer := noticesOf_replies hreplies r
  have hkeeping : Keeping (t'.lives r) before (during ++ (said userName r m).toList) := by
    rw [hlives]
    exact h.keeping.receive m
  have hmore : (before ++ during).Sublist (before ++ (during ++ (said userName r m).toList)) := by
    rw [← List.append_assoc]
    exact List.sublist_append_left ..
  refine h.send (fun c => if c = m.client then replies else []) hkeeping hmore (fun c => ?_)
    (fun c => ?_) fun c events htells => ?_
  · rw [hsent, hout, Mailbox.push_apply, ← List.append_assoc]
    rfl
  · have hnone : echoesFor r (if c = m.client then replies else []) = [] := by
      split
      · rw [echoesFor, hanswer, echoed_answer]
      · rfl
    rw [hnone, List.append_nil]
    exact h.heard c
  · split at htells
    · rw [TellsHistory, hanswer] at htells
      exact (history_answer h.keeping htells).trans (hmore.map asShown)
    · cases htells

/-! ### The end of a tick -/

theorem echoed_announcements (attends : Bool) (creations destructions : Nat) :
    (announcements attends creations destructions).filterMap Notice.echoed = [] := by
  rw [List.filterMap_eq_nil_iff]
  intro notice hnotice
  unfold announcements at hnotice
  split at hnotice
  · rcases List.mem_append.mp hnotice with hnotice | hnotice <;>
      rw [List.eq_of_mem_replicate hnotice] <;> rfl
  · cases hnotice

theorem echoed_echoNotices (expired : ConnId → Bool) (c : ConnId) {life : Option RoomLife}
    (h : Keeping life before during) :
    ((echoNotices expired c life).filterMap Notice.echoed).Sublist (during.map asShown) := by
  cases life with
  | none => exact List.nil_sublist _
  | some l =>
      simp only [echoNotices]
      split
      · rw [List.filterMap_map]
        show (l.pending.filterMap fun event => some (asShown event)).Sublist _
        rw [List.filterMap_eq_map']
        exact (h.pending l rfl).map asShown
      · exact List.nil_sublist _

theorem no_history_of_finish {attends : Bool} {creations destructions : Nat}
    {expired : ConnId → Bool} {c : ConnId} {life : Option RoomLife} {events : List RoomEvent} :
    Notice.history events ∉
      announcements attends creations destructions ++ echoNotices expired c life := by
  intro h
  rcases List.mem_append.mp h with h | h
  · unfold announcements at h
    split at h
    · rcases List.mem_append.mp h with h | h <;> cases List.eq_of_mem_replicate h
    · cases h
  · unfold echoNotices at h
    split at h
    · split at h
      · obtain ⟨event, -, hevent⟩ := List.mem_map.mp h
        cases hevent
      · cases h
    · cases h

/-- Steps 2 and 3. -/
theorem Faithful.finishTick (h : Faithful r t before during) (hsound : t.Sound)
    {clients : List ConnId} (hclients : clients.Nodup)
    (hlives : t'.lives = t.lives.endTick t.expired)
    (hsent : ∀ c, t'.sent c =
      t.handled c ++ (t.worker.finishTick clients t.expired).messagesOut c) :
    Faithful r t' (before ++ during) [] := by
  have hnotices : ∀ c, noticesOf r (notices t.worker clients c ++
      t.worker.rooms.roomNames.flatMap (echoes t.lives t.expired c)) =
      announcements (c ∈ clients) (t.worker.newRooms.count r) (t.worker.destroyedRooms.count r) ++
        echoNotices t.expired c (t.lives r) := by
    intro c
    rw [noticesOf_append, noticesOf_notices, noticesOf_rooms hsound.tracks]
  have hkeeping : Keeping (t'.lives r) (before ++ during) [] := by
    rw [hlives]
    exact h.keeping.endTick t.expired
  refine h.send (fun c => notices t.worker clients c ++
    t.worker.rooms.roomNames.flatMap (echoes t.lives t.expired c)) hkeeping ?_ (fun c => ?_)
    (fun c => ?_) fun c events htells => ?_
  · rw [List.append_nil]
  · rw [hsent, finishTick_messagesOut hsound.tracks hclients, ← List.append_assoc]
    rfl
  · rw [List.map_append]
    refine (h.heard c).append ?_
    rw [echoesFor, hnotices, List.filterMap_append, echoed_announcements, List.nil_append]
    exact echoed_echoNotices t.expired c h.keeping
  · rw [TellsHistory, hnotices] at htells
    exact absurd htells no_history_of_finish

/-! ### Every step -/

/-- A step that neither serves a message nor ends a tick. -/
theorem Tavern.Hears.congr {served : List Incoming} (h : t.Hears userName served)
    (hlives : t'.lives = t.lives) (hsent : ∀ c, t'.sent c = t.sent c) :
    t'.Hears userName (served ++ []) := by
  intro r
  obtain ⟨before, during, hspoken, hfaithful⟩ := h r
  rw [List.append_nil]
  exact ⟨before, during, hspoken, hfaithful.congr (congrFun hlives r) hsent⟩

theorem hears_step {served : List Incoming} {a : Action} (hsound : t.Sound)
    (h : t.Hears userName served) (hstep : TavernStep userName t a t') :
    t'.Hears userName (served ++ t.serving a) := by
  cases hstep with
  | connect _ _ _ => exact h.congr rfl fun _ => rfl
  | drop _ => exact h.congr rfl fun _ => rfl
  | expire _ _ _ _ => exact h.congr rfl fun _ => rfl
  | request _ _ => exact h.congr rfl fun _ => rfl
  | @handle d message rest _ _ hsent _ =>
      exact h.congr rfl fun c => Mailbox.push_append_pop hsent t.handled c
  | pick _ _ _ => exact h.congr rfl fun _ => rfl
  | beginTick _ => exact h.congr rfl fun _ => rfl
  | @serve now clients waiting c message rest worker hstage hsent hok =>
      intro r
      obtain ⟨before, during, hspoken, hfaithful⟩ := h r
      refine ⟨before, during ++ (said userName r ⟨c, message, now⟩).toList, ?_,
        hfaithful.serve hsound hok rfl fun _ => rfl⟩
      have hserving : t.serving (.serve now) = [⟨c, message, now⟩] := by
        simp only [Tavern.serving, Tavern.served, hstage, hsent]
        rfl
      rw [hserving, spoken_append, hspoken, spoken_singleton, List.append_assoc]
  | nextClient _ => exact h.congr rfl fun _ => rfl
  | @finishTick clients hstage =>
      intro r
      obtain ⟨before, during, hspoken, hfaithful⟩ := h r
      have hclients : clients.Nodup := hsound.snapshot hstage
      refine ⟨before ++ during, [], ?_, hfaithful.finishTick hsound hclients rfl fun _ => rfl⟩
      rw [show t.serving .finishTick = [] from rfl, List.append_nil, List.append_nil]
      exact hspoken

theorem hears_start (initialRooms : List String) :
    (Tavern.start initialRooms).Hears userName [] := by
  refine fun r => ⟨[], [], rfl, ⟨fun l hl => ?_, fun l hl => ?_⟩, fun _ => List.nil_sublist _,
    fun _ _ htells => by cases htells⟩
  all_goals
    change Lives.start initialRooms r = some l at hl
    unfold Lives.start at hl
    split at hl
    · obtain rfl := Option.some.inj hl
      exact List.nil_sublist _
    · cases hl

/-! ## The network -/

/-- What was handled of a client. -/
def servedOf (c : ConnId) (served : List Incoming) : List Message :=
  (served.filter (·.client = c)).map Incoming.message

variable {n n' : Network} {a : NetworkAction}

theorem servedOf_singleton (m : Incoming) (c : ConnId) :
    servedOf c [m] = if m.client = c then [m.message] else [] := by
  rw [servedOf, List.filter_singleton]
  by_cases hc : m.client = c <;> simp [hc]

theorem taken_update {channel : ConnId → Channel} {c d : ConnId} {s : Channel}
    (h : s.taken .server = (channel c).taken .server) :
    (Function.update channel c s d).taken .server = (channel d).taken .server := by
  by_cases hd : d = c
  · subst hd
    rw [Function.update_self]
    exact h
  · rw [Function.update_of_ne hd]

/-- What the server's worker pops is what is handled. -/
theorem taken_step (h : Abstracts codec userName n t) (hstep : NetworkStep codec userName n a n')
    (c : ConnId) :
    (n'.channel c).taken .server = (n.channel c).taken .server ++ servedOf c (n.serving a) := by
  have hnothing : servedOf c [] = [] := rfl
  cases hstep with
  | connect _ _ _ =>
      show _ = _ ++ servedOf c []
      rw [hnothing, List.append_nil]
      refine taken_update ?_
      rw [h.lanes.unknown n.next (Nat.le_refl _)]
  | transport d _ hown hchannel =>
      show _ = _ ++ servedOf c []
      rw [hnothing, List.append_nil]
      exact taken_update (congrFun (keeps_of_step hown hchannel).taken .server)
  | request d _ _ =>
      show _ = _ ++ servedOf c []
      rw [hnothing, List.append_nil]
      exact taken_update rfl
  | @handle d message _ _ pushed _ _ =>
      show _ = _ ++ servedOf c []
      rw [hnothing, List.append_nil]
      have htaken : ((n.take d .client message).channel c).taken .server =
          (n.channel c).taken .server := taken_update rfl
      rw [← htaken]
      exact taken_update rfl
  | pick d _ _ _ =>
      show _ = _ ++ servedOf c []
      rw [hnothing, List.append_nil]
      exact taken_update rfl
  | @serve now clients waiting d message rest worker hstage hqueue hok =>
      have hserving : n.serving (.serve now) = [⟨d, message, now⟩] := by
        simp only [Network.serving, hstage, hqueue]
        rfl
      rw [hserving, servedOf_singleton]
      show (Function.update n.channel d ((n.channel d).take .server message) c).taken .server = _
      by_cases hc : d = c
      · subst hc
        rw [Function.update_self, if_pos rfl]
        exact Function.update_self .server _ (n.channel d).taken
      · rw [Function.update_of_ne (Ne.symm hc), if_neg hc, List.append_nil]
  | drop _ => exact (List.append_nil _).symm
  | expire _ _ _ _ => exact (List.append_nil _).symm
  | beginTick _ => exact (List.append_nil _).symm
  | nextClient _ _ => exact (List.append_nil _).symm
  | finishTick _ => exact (List.append_nil _).symm

/-- The network, with the record, is a tavern in which the record was spoken. -/
theorem hears_reachable (hcodec : codec.Lossless) {initialRooms : List String}
    {s : Network × List Incoming}
    (h : ((network codec userName initialRooms).recording Network.serving).Reachable
      LabelledSystem.anyStep s) :
    ∃ t, Abstracts codec userName s.1 t ∧ t.Hears userName s.2 ∧
      ∀ c, servedOf c s.2 = (s.1.channel c).taken .server := by
  refine h.invariant ?_ ?_
  · rintro ⟨n, served⟩ ⟨rfl, rfl⟩
    exact ⟨_, abstracts_start initialRooms, hears_start initialRooms, fun _ => rfl⟩
  · rintro ⟨n, served⟩ a ⟨n', served'⟩ - ⟨t, ht, hhears, htaken⟩ - ⟨hstep, rfl⟩
    have htaken' : ∀ c, servedOf c (served ++ n.serving a) = (n'.channel c).taken .server := by
      intro c
      rw [taken_step ht hstep c, servedOf, List.filter_append, List.map_append]
      exact congrArg (· ++ servedOf c (n.serving a)) (htaken c)
    rcases abstracts_step hcodec ht hstep with ⟨ht', hserving⟩ | ⟨b, t', ht', hstep', hserving⟩
    · refine ⟨t, ht', ?_, htaken'⟩
      rw [hserving]
      exact hhears.congr rfl fun _ => rfl
    · refine ⟨t', ht', ?_, htaken'⟩
      rw [← hserving]
      exact hears_step ht.sound hhears hstep'

/-- **Nothing is made up.**  What the server has handled of a client is the beginning of what the
client sent, each message once and in order.  And of what any client was ever sent of a room,
the echoes are some of the chat of that room as it was handled, and so is each history: of its
senders by the names in their HELLOs, no line twice, and in the order in which they were said. -/
theorem nothing_made_up (hcodec : codec.Lossless) {initialRooms : List String} {n : Network}
    {served : List Incoming}
    (h : ((network codec userName initialRooms).recording Network.serving).Reachable
      LabelledSystem.anyStep (n, served)) (c : ConnId) (r : String) :
    ((n.channel c).client.HasBegun →
      servedOf c served <+: queued ((n.channel c).link.endpoint .client).pushed) ∧
    (¬ (n.channel c).client.HasBegun → servedOf c served = []) ∧
    (echoesFor r ((n.channel c).link.endpoint .server).pushed).Sublist
      ((spoken userName r served).map asShown) ∧
    ∀ events, TellsHistory r ((n.channel c).link.endpoint .server).pushed events →
      events.Sublist ((spoken userName r served).map asShown) := by
  obtain ⟨t, ht, hhears, htaken⟩ := hears_reachable hcodec h
  obtain ⟨before, during, hspoken, hfaithful⟩ := hhears r
  have hsound := ht.lanes.sound c
  have hsent := ht.sent c
  refine ⟨fun hbegun => ?_, fun hnot => ?_, ?_, fun events htells => ?_⟩
  · rw [htaken, ← hsound.conserved (hsound.toServer hbegun), List.append_assoc]
    exact List.prefix_append ..
  · rw [htaken]
    have hprefix := hsound.taken .server
    rw [(hsound.unused hnot).2] at hprefix
    exact List.prefix_nil.mp hprefix
  · rw [hspoken, List.map_append, ← hsent]
    exact (hfaithful.heard c).trans (List.sublist_append_left ..)
  · rw [hspoken]
    exact hfaithful.histories c events (hsent ▸ htells)

/-! ### ann says hi -/

/-- ann types two lines, and they come over. -/
theorem ann_delivered : AnnsRun LabelledSystem.anyStep (annsNetwork (.start ["inn"]) .idle
    (annsChannel ⟨[], [], .checking, none, createRoomListRequest :: chatting, [], [], [], 0⟩
      ⟨[], [], .receiving, some (.heard 0), [], createRoomListRequest :: chatting, chatting,
        createRoomListRequest :: chatting, 0⟩ [] []), []) := by
  have hfree : Free LabelledSystem.anyStep := fun _ _ _ => trivial
  have hsaid := ann_request (ann_inSession hfree) trivial (createChatSend "inn" "hi") trivial
  have hasked := ann_request hsaid trivial (historyRequest "inn") trivial
  have hlooping := ann_loops hasked rfl rfl rfl rfl
  -- her worker goes once around its loop
  have hreceived := ann_client hfree hlooping (.receiveNothing rfl) rfl
  have hchecked := ann_client hfree hreceived (.check 0 0 rfl) rfl
  have hpopped := ann_client hfree hchecked (.pop rfl rfl) rfl
  have hpopped' := ann_client hfree hpopped (.pop rfl rfl) rfl
  have hdrained := ann_client hfree hpopped' (.popNothing rfl rfl) rfl
  have hsent := ann_send hfree hdrained rfl (List.cons_ne_nil _ _) sendable_chatting
  -- the server's begins its second
  have hfirst := ann_receive hfree hsent rfl sendable_roomList rfl
  have hfirst' := ann_server hfree hfirst (.check 0 0 rfl) rfl
  have hnothing := ann_server hfree hfirst' (.popNothing rfl rfl) rfl
  have hagain := ann_server hfree hnothing (.sendNothing rfl rfl) rfl
  have hsecond := ann_receive hfree hagain rfl sendable_chatting rfl
  exact hsecond

/-- The beginning of a tick, and step 1, as a function. -/
def execTick (s : Network × List Incoming) (a : NetworkAction) : Option (Network × List Incoming) :=
  match a with
  | .beginTick =>
      match s.1.stage with
      | .idle => some ({ s.1 with stage := .gathering s.1.active s.1.active }, s.2 ++ [])
      | .gathering _ _ => none
  | .serve now =>
      match s.1.stage with
      | .gathering _ (c :: _) =>
        match (s.1.channel c).messagesIn .server with
        | message :: _ =>
          match s.1.worker.handleMessage s.1.names ⟨c, message, now⟩ with
          | .ok worker =>
              some ((s.1.take c .server message).deliver worker, s.2 ++ s.1.serving (.serve now))
          | .error _ => none
        | [] => none
      | .gathering _ [] | .idle => none
  | _ => none

theorem step_of_execTick {initialRooms : List String}
    {s s' : Network × List Incoming} {a : NetworkAction} (h : execTick s a = some s') :
    ((network codec userName initialRooms).recording Network.serving).step s a s' := by
  cases a with
  | beginTick =>
      simp only [execTick] at h
      split at h
      next hstage =>
        obtain rfl := Option.some.inj h
        exact ⟨.beginTick hstage, rfl⟩
      · cases h
  | serve now =>
      simp only [execTick] at h
      split at h
      next clients c waiting hstage =>
        split at h
        next message rest hqueue =>
          split at h
          next worker hok =>
            obtain rfl := Option.some.inj h
            exact ⟨.serve now hstage hqueue hok, rfl⟩
          · cases h
        · cases h
      · cases h
      · cases h
  | _ => cases h

/-- hi was said in the room inn, and ann was told so. -/
abbrev Told (s : Network × List Incoming) : Prop :=
  s.2.length = 3 ∧ spoken (fun _ => "ann") "inn" s.2 = [⟨8, "ann", "hi"⟩] ∧
    noticesOf "inn" ((s.1.channel 0).link.endpoint .server).pushed =
      [.listed true, .history [⟨8, "ann", "hi"⟩]]

theorem ann_chats : ∃ s, AnnsRun LabelledSystem.anyStep s ∧ Told s := by
  have hrun : (LabelledSystem.execute LabelledSystem.anyStep execTick
      [.beginTick, .serve 7, .serve 8, .serve 9]
      (annsNetwork (.start ["inn"]) .idle (annsChannel
        ⟨[], [], .checking, none, createRoomListRequest :: chatting, [], [], [], 0⟩
        ⟨[], [], .receiving, some (.heard 0), [], createRoomListRequest :: chatting, chatting,
          createRoomListRequest :: chatting, 0⟩ [] []), [])).any (fun s => decide (Told s))
      = true := by decide +kernel
  obtain ⟨s, hs, htest⟩ := (Option.any_eq_true ..).mp hrun
  exact ⟨s, ann_delivered.execute (fun _ _ _ => step_of_execTick) hs, of_decide_eq_true htest⟩

theorem nothing_made_up_ann : ∃ s, AnnsRun LabelledSystem.anyStep s ∧ Told s ∧
    [(⟨8, "ann", "hi"⟩ : RoomEvent)].Sublist
      ((spoken (fun _ => "ann") "inn" s.2).map asShown) := by
  obtain ⟨s, hrun, htold⟩ := ann_chats
  obtain ⟨-, -, -, hhistories⟩ := nothing_made_up annsCodec_lossless hrun 0 "inn"
  refine ⟨s, hrun, htold, hhistories _ ?_⟩
  rw [TellsHistory, htold.2.2]
  exact .tail _ (.head _)

end Tavernmx.Session
