/-
# `Tavernmx.Session.NetworkRefines` — the network is a tavern

`Carries` is the relation for one client: its queue in the tavern is what is left of
everything that was pushed on one side when what was popped on the other is taken away.
`Channel.Sound.conserved` says that this is what is in `messages_in`, in flight and in
`messages_out`; so a message that is popped is the first of the tavern's queue.

A client that has not begun its session has pushed nothing, while the tavern
has its request for the rooms in the queue from the beginning: `opening`.
-/
import Tavernmx.Server.Pushing
import Tavernmx.Session.Execution
import Tavernmx.Session.Network

namespace Tavernmx.Session

open Messaging Rooms Server Client

variable {codec : MsgPack} {userName : ConnId → String} {name : String}

/-! ## One client -/

/-- What the window has handled, what it will be sent, and what it has sent, over a channel. -/
structure Carries (s : Channel) (handled messagesOut toServer : List Message) : Prop where
  popped : handled = s.taken .client
  sent : handled ++ messagesOut = (s.link.endpoint .server).pushed
  requests : s.client.HasBegun →
    s.taken .server ++ toServer = queued (s.link.endpoint .client).pushed
  opening : ¬ s.client.HasBegun → toServer = [createRoomListRequest]

section Carries

variable {s s' : Channel} {e : ChannelEvent} {handled messagesOut toServer : List Message}
  {message : Message} {rest : List Message}

theorem carries_start : Carries .start [] [] [createRoomListRequest] :=
  ⟨rfl, rfl, False.elim, fun _ => rfl⟩

theorem Carries.pushServer (h : Carries s handled messagesOut toServer) (messages : List Message) :
    Carries (s.push .server messages) handled (messagesOut ++ messages) toServer := by
  refine ⟨h.popped, ?_, fun hbegun => ?_, h.opening⟩
  · rw [endpoint_push_self, ← List.append_assoc, h.sent]
    rfl
  · rw [endpoint_push_of_ne (by decide : Side.client ≠ .server)]
    exact h.requests hbegun

theorem Carries.pushClient (h : Carries s handled messagesOut toServer) (messages : List Message)
    (hbegun : s.client.HasBegun) :
    Carries (s.push .client messages) handled messagesOut (toServer ++ queued messages) := by
  refine ⟨h.popped, ?_, fun _ => ?_, fun hnot => absurd hbegun hnot⟩
  · rw [endpoint_push_of_ne (by decide : Side.server ≠ .client)]
    exact h.sent
  · rw [endpoint_push_self, ← List.append_assoc]
    show s.taken .server ++ toServer ++ _ = _
    rw [h.requests hbegun]
    exact (queued_append ..).symm

theorem Carries.takeClient (h : Carries s handled (message :: rest) toServer) :
    Carries (s.take .client message) (handled ++ [message]) rest toServer := by
  refine ⟨?_, ?_, h.requests, h.opening⟩
  · show handled ++ [message] =
      Function.update s.taken .client (s.taken .client ++ [message]) .client
    rw [Function.update_self, h.popped]
  · rw [List.append_assoc]
    exact h.sent

theorem Carries.takeServer (h : Carries s handled messagesOut (message :: rest))
    (hbegun : s.client.HasBegun) : Carries (s.take .server message) handled messagesOut rest := by
  refine ⟨h.popped, h.sent, fun _ => ?_, fun hnot => absurd hbegun hnot⟩
  show Function.update s.taken .server (s.taken .server ++ [message]) .server ++ rest = _
  rw [Function.update_self, List.append_assoc]
  exact h.requests hbegun

/-- What the window has not popped lies between the two sides. -/
theorem Carries.client_onTheWay (h : Carries s handled messagesOut toServer)
    (hsound : s.Sound codec name)
    (hqueued : queued (handled ++ messagesOut) = handled ++ messagesOut) :
    messagesOut = s.messagesIn .client ++ queued (onTheWay codec s.link .server) := by
  have hconserved := hsound.conserved hsound.toClient
  rw [← h.sent, hqueued, Side.other, h.popped, List.append_assoc] at hconserved
  exact (List.append_cancel_left hconserved).symm

theorem Carries.server_onTheWay (h : Carries s handled messagesOut toServer)
    (hsound : s.Sound codec name) (hbegun : s.client.HasBegun) :
    toServer = s.messagesIn .server ++ queued (onTheWay codec s.link .client) := by
  have hconserved := hsound.conserved (hsound.toServer hbegun)
  rw [← h.requests hbegun, Side.other, List.append_assoc] at hconserved
  exact (List.append_cancel_left hconserved).symm

/-- Something is in the server's queue only in a session. -/
theorem hasBegun_of_messagesIn (hsound : s.Sound codec name) {side : Side}
    (hqueue : s.messagesIn side = message :: rest) : s.client.HasBegun := by
  by_contra hnot
  obtain ⟨hclient, hserver⟩ := hsound.unused hnot
  rw [Channel.messagesIn] at hqueue
  cases side with
  | client =>
      rw [hclient] at hqueue
      cases (List.drop_nil.symm.trans hqueue)
  | server =>
      rw [hserver] at hqueue
      cases (List.drop_nil.symm.trans hqueue)

/-- What a channel does by itself: nothing is pushed, but the session's first message. -/
structure Keeps (s s' : Channel) : Prop where
  taken : s'.taken = s.taken
  server : (s'.link.endpoint .server).pushed = (s.link.endpoint .server).pushed
  client : (s'.client.HasBegun ↔ s.client.HasBegun) ∧
      (s'.link.endpoint .client).pushed = (s.link.endpoint .client).pushed ∨
    (¬ s.client.HasBegun ∧ s'.client.HasBegun ∧
      (s'.link.endpoint .client).pushed = [createRoomListRequest])

theorem keeps_of_step (hown : e.IsOwn) (hstep : ChannelStep codec name s e s') : Keeps s s' := by
  cases hstep with
  | detach _ => exact ⟨rfl, rfl, .inl ⟨Iff.rfl, rfl⟩⟩
  | deny _ _ => exact ⟨rfl, rfl, .inl ⟨Iff.rfl, rfl⟩⟩
  | hear _ _ _ => exact ⟨rfl, rfl, .inl ⟨Iff.rfl, rfl⟩⟩
  | acknowledge _ _ => exact ⟨rfl, rfl, .inl ⟨Iff.rfl, rfl⟩⟩
  | serverEnds => exact ⟨rfl, rfl, .inl ⟨Iff.rfl, rfl⟩⟩
  | hello hclient _ =>
      refine ⟨rfl, rfl, .inl ⟨?_, rfl⟩⟩
      rw [hclient]
      exact Iff.rfl
  | awaitMore _ _ _ => exact ⟨rfl, rfl, .inl ⟨Iff.rfl, rfl⟩⟩
  | await hclient _ _ _ =>
      refine ⟨rfl, rfl, .inl ⟨?_, rfl⟩⟩
      rw [hclient]
      exact Iff.rfl
  | attemptFails hclient =>
      refine ⟨rfl, rfl, .inl ⟨?_, rfl⟩⟩
      rcases hclient with hclient | hclient <;> rw [hclient] <;> exact Iff.rfl
  | begin now hclient _ =>
      refine ⟨rfl, rfl, .inr ⟨?_, trivial, rfl⟩⟩
      rw [hclient]
      exact id
  | sessionEnds hclient =>
      refine ⟨rfl, rfl, .inl ⟨?_, rfl⟩⟩
      rw [hclient]
      exact Iff.rfl
  | @work side link _ hstep hpushed =>
      have hother := (Step.frame hstep).other
      cases side with
      | server => exact ⟨rfl, hpushed, .inl ⟨Iff.rfl, congrArg Endpoint.pushed hother⟩⟩
      | client => exact ⟨rfl, congrArg Endpoint.pushed hother, .inl ⟨Iff.rfl, hpushed⟩⟩
  | push _ _ _ => exact hown.elim
  | take _ => exact hown.elim

theorem Carries.own (h : Carries s handled messagesOut toServer) (hsound : s.Sound codec name)
    (hown : e.IsOwn) (hstep : ChannelStep codec name s e s') :
    Carries s' handled messagesOut toServer := by
  have hkeeps := keeps_of_step hown hstep
  refine ⟨h.popped.trans (congrFun hkeeps.taken .client).symm, h.sent.trans hkeeps.server.symm,
    fun hbegun => ?_, fun hnot => ?_⟩
  · rw [hkeeps.taken]
    rcases hkeeps.client with ⟨hiff, hpushed⟩ | ⟨hbefore, -, hpushed⟩
    · rw [hpushed]
      exact h.requests (hiff.mp hbegun)
    · -- the session begins: its request for the rooms is the first that was pushed
      have htaken := hsound.taken .server
      rw [(hsound.unused hbefore).2, List.prefix_nil] at htaken
      rw [hpushed, htaken, h.opening hbefore]
      rfl
  · rcases hkeeps.client with ⟨hiff, -⟩ | ⟨-, hbegun, -⟩
    · exact h.opening fun hbegun => hnot (hiff.mpr hbegun)
    · exact absurd hbegun hnot

end Carries

/-! ## What is queued -/

theorem queued_of_fromServer {messages : List Message} (h : ∀ m ∈ messages, FromServer m) :
    queued messages = messages := by
  refine List.filter_eq_self.mpr fun message hmessage => ?_
  cases h message hmessage <;> rfl

theorem queued_of_requests {pushed : List Message}
    (h : pushed = [] ∨ ∃ name, pushed = joinRequests name) : queued pushed = pushed := by
  rcases h with rfl | ⟨name, rfl⟩ <;> rfl

/-! ## Who has not connected -/

/-- The server has nothing for clients that have not connected. -/
def Tavern.Strangers (t : Tavern) : Prop :=
  ∀ c, t.next ≤ c → t.sent c = [] ∧ ∀ r, Outside c (t.lives r)

theorem strangers_start (initialRooms : List String) : (Tavern.start initialRooms).Strangers := by
  refine fun c _ => ⟨rfl, fun r life hlife hmem => ?_⟩
  change Lives.start initialRooms r = some life at hlife
  unfold Lives.start at hlife
  split at hlife
  · obtain rfl := Option.some.inj hlife
    cases hmem
  · cases hlife

/-- Who takes part in the tick has connected. -/
theorem Tavern.Sound.known {t : Tavern} (h : t.Sound) {clients waiting : List ConnId} {c : ConnId}
    (hstage : t.stage = .gathering clients (c :: waiting)) : c < t.next := by
  refine h.numbered c (.inr (h.waiting c ?_))
  rw [hstage]
  exact List.mem_cons_self

theorem echoes_of_outside {lives : Lives} {c : ConnId} {r : String} (h : Outside c (lives r))
    (expired : ConnId → Bool) : echoes lives expired c r = [] := by
  unfold echoes
  split
  next life hlife => exact if_neg fun hc => h life hlife hc.1
  next => rfl

/-- Steps 2 and 3 send nothing to a stranger. -/
theorem nothing_for_stranger {w : Worker} {lives : Lives} {clients : List ConnId} {c : ConnId}
    (hclients : c ∉ clients) (houtside : ∀ r, Outside c (lives r)) (expired : ConnId → Bool) :
    notices w clients c ++ w.rooms.roomNames.flatMap (echoes lives expired c) = [] := by
  rw [notices, if_neg hclients, List.nil_append, List.flatMap_eq_nil_iff]
  exact fun r _ => echoes_of_outside (houtside r) expired

theorem strangers_step {t t' : Tavern} {a : Action} (hsound : t.Sound) (h : t.Strangers)
    (hstep : TavernStep userName t a t') : t'.Strangers := by
  cases hstep with
  | connect _ _ _ => exact fun c hc => h c (Nat.le_of_succ_le hc)
  | drop _ => exact h
  | expire _ _ _ _ => exact h
  | request _ _ => exact h
  | @handle d message rest chat pushed hsent hok =>
      intro c hc
      obtain ⟨hnothing, houtside⟩ := h c hc
      exact ⟨(Mailbox.push_append_pop hsent t.handled c).trans hnothing, houtside⟩
  | pick _ _ _ => exact h
  | beginTick _ => exact h
  | @serve now clients waiting d message rest worker hstage hsent hok =>
      intro c hc
      obtain ⟨hnothing, houtside⟩ := h c hc
      have hcd : d ≠ c := Nat.ne_of_lt (Nat.lt_of_lt_of_le (hsound.known hstage) hc)
      obtain ⟨-, replies, -, hout⟩ := handled_of_ok hsound.tracks hok
      refine ⟨?_, fun r => (houtside r).receive hcd⟩
      show t.handled c ++ worker.messagesOut c = []
      rw [hout, Mailbox.push_of_ne hcd.symm]
      exact hnothing
  | nextClient _ => exact h
  | @finishTick clients hstage =>
      intro c hc
      obtain ⟨hnothing, houtside⟩ := h c hc
      have hclients : c ∉ clients := by
        intro hmem
        refine Nat.not_lt.mpr hc (hsound.numbered c (.inr ?_))
        rw [hstage]
        exact hmem
      refine ⟨?_, fun r => (houtside r).endTick t.expired⟩
      show t.handled c ++ (t.worker.finishTick clients t.expired).messagesOut c = []
      rw [finishTick_messagesOut hsound.tracks (hsound.snapshot hstage),
        nothing_for_stranger hclients houtside, List.append_nil]
      exact hnothing

/-! ## All the clients -/

/-- The queues of the tavern are those of the network, and what is between them. -/
structure Lanes (codec : MsgPack) (userName : ConnId → String) (next : ConnId)
    (channel : ConnId → Channel) (handled messagesOut toServer : ConnId → List Message) :
    Prop where
  sound : ∀ c, (channel c).Sound codec (userName c)
  carries : ∀ c < next, Carries (channel c) (handled c) (messagesOut c) (toServer c)
  unknown : ∀ c, next ≤ c → channel c = .start

section Lanes

variable {next : ConnId} {channel : ConnId → Channel}
  {handled messagesOut toServer : ConnId → List Message} {c : ConnId}

theorem lanes_start : Lanes codec userName 0 (fun _ => .start) (fun _ => []) (fun _ => [])
    (fun _ => []) :=
  ⟨fun _ => Channel.sound_start, fun _ hc => absurd hc (Nat.not_lt_zero _), fun _ _ => rfl⟩

/-- One client's channel and queues change. -/
theorem Lanes.update (h : Lanes codec userName next channel handled messagesOut toServer)
    (hc : c < next) {channel' : Channel} (hsound : channel'.Sound codec (userName c))
    {handled' messagesOut' toServer' : ConnId → List Message}
    (hcarries : Carries channel' (handled' c) (messagesOut' c) (toServer' c))
    (hother : ∀ d, d ≠ c →
      handled' d = handled d ∧ messagesOut' d = messagesOut d ∧ toServer' d = toServer d) :
    Lanes codec userName next (Function.update channel c channel') handled' messagesOut'
      toServer' := by
  refine ⟨fun d => ?_, fun d hd => ?_, fun d hd => ?_⟩
  · by_cases hdc : d = c
    · subst hdc
      rw [Function.update_self]
      exact hsound
    · rw [Function.update_of_ne hdc]
      exact h.sound d
  · by_cases hdc : d = c
    · subst hdc
      rw [Function.update_self]
      exact hcarries
    · obtain ⟨hhandled, hmessagesOut, htoServer⟩ := hother d hdc
      rw [Function.update_of_ne hdc, hhandled, hmessagesOut, htoServer]
      exact h.carries d hd
  · rw [Function.update_of_ne (Nat.ne_of_gt (Nat.lt_of_lt_of_le hc hd))]
    exact h.unknown d hd

theorem Lanes.connect (h : Lanes codec userName next channel handled messagesOut toServer)
    (hnothing : handled next ++ messagesOut next = []) :
    Lanes codec userName (next + 1) (Function.update channel next .start) handled messagesOut
      (Function.update toServer next [createRoomListRequest]) := by
  obtain ⟨hhandled, hmessagesOut⟩ := List.append_eq_nil_iff.mp hnothing
  have hsame : Function.update channel next .start = channel := by
    rw [← h.unknown next (Nat.le_refl _)]
    exact Function.update_eq_self ..
  rw [hsame]
  refine ⟨h.sound, fun d hd => ?_, fun d hd => h.unknown d (Nat.le_of_succ_le hd)⟩
  by_cases hdn : d = next
  · subst hdn
    rw [h.unknown d (Nat.le_refl _), hhandled, hmessagesOut, Function.update_self]
    exact carries_start
  · rw [Function.update_of_ne hdn]
    exact h.carries d (Nat.lt_of_le_of_ne (Nat.le_of_lt_succ hd) hdn)

/-- A session has begun only with a client that has connected. -/
theorem Lanes.known (h : Lanes codec userName next channel handled messagesOut toServer)
    (hbegun : (channel c).client.HasBegun) : c < next := by
  by_contra hnot
  rw [h.unknown c (Nat.le_of_not_lt hnot)] at hbegun
  exact hbegun

theorem Lanes.own (h : Lanes codec userName next channel handled messagesOut toServer)
    (hcodec : codec.Lossless) (hc : c < next) {e : ChannelEvent} {channel' : Channel}
    (hown : e.IsOwn) (hstep : ChannelStep codec (userName c) (channel c) e channel') :
    Lanes codec userName next (Function.update channel c channel') handled messagesOut toServer :=
  h.update hc (channel_step hcodec (h.sound c) hstep) ((h.carries c hc).own (h.sound c) hown hstep)
    fun _ _ => ⟨rfl, rfl, rfl⟩

/-- The server's worker pushes, to any number of clients. -/
theorem Lanes.pushServer (h : Lanes codec userName next channel handled messagesOut toServer)
    {pushed : ConnId → List Message} (hnothing : ∀ c, next ≤ c → pushed c = []) :
    Lanes codec userName next (fun c => (channel c).push .server (pushed c)) handled
      (fun c => messagesOut c ++ pushed c) toServer := by
  refine ⟨fun c => (h.sound c).push _ (fun hside => by cases hside),
    fun c hc => (h.carries c hc).pushServer _, fun c hc => ?_⟩
  rw [hnothing c hc, h.unknown c hc]
  refine congrArg (fun link => Channel.mk _ _ _ link _) ?_
  exact congrArg (Link.mk · _) (Function.update_eq_self ..)

/-- A window pushes. -/
theorem Lanes.pushClient (h : Lanes codec userName next channel handled messagesOut toServer)
    (hbegun : (channel c).client.HasBegun) (messages : List Message) :
    Lanes codec userName next (Function.update channel c ((channel c).push .client messages))
      handled messagesOut (Mailbox.push toServer c (queued messages)) := by
  have hc := h.known hbegun
  refine h.update hc ((h.sound c).push _ fun _ => hbegun) ?_
    fun d hd => ⟨rfl, rfl, Mailbox.push_of_ne hd⟩
  rw [Mailbox.push_self]
  exact (h.carries c hc).pushClient messages hbegun

/-- A window pops. -/
theorem Lanes.takeClient (h : Lanes codec userName next channel handled messagesOut toServer)
    {message : Message} {queue rest : List Message} (hc : c < next)
    (hqueue : (channel c).messagesIn .client = message :: queue)
    (hsent : messagesOut c = message :: rest) :
    Lanes codec userName next (Function.update channel c ((channel c).take .client message))
      (Mailbox.push handled c [message]) (Function.update messagesOut c rest) toServer := by
  refine h.update hc ((h.sound c).take hqueue) ?_
    fun d hd => ⟨Mailbox.push_of_ne hd, Function.update_of_ne hd .., rfl⟩
  have hcarries := h.carries c hc
  rw [hsent] at hcarries
  rw [Mailbox.push_self, Function.update_self]
  exact hcarries.takeClient

/-- The server's worker pops. -/
theorem Lanes.takeServer (h : Lanes codec userName next channel handled messagesOut toServer)
    {message : Message} {queue rest : List Message}
    (hqueue : (channel c).messagesIn .server = message :: queue)
    (hsent : toServer c = message :: rest) :
    Lanes codec userName next (Function.update channel c ((channel c).take .server message))
      handled messagesOut (Function.update toServer c rest) := by
  have hbegun := hasBegun_of_messagesIn (h.sound c) hqueue
  have hc := h.known hbegun
  refine h.update hc ((h.sound c).take hqueue) ?_
    fun d hd => ⟨rfl, rfl, Function.update_of_ne hd ..⟩
  have hcarries := h.carries c hc
  rw [hsent] at hcarries
  rw [Function.update_self]
  exact hcarries.takeServer hbegun

end Lanes

/-! ## The two systems -/

/-- The network with one queue for each way. -/
def Network.tavern (n : Network) (lives : Lives)
    (handled messagesOut toServer : ConnId → List Message) : Tavern where
  worker := { n.core with messagesOut }
  lives
  stage := n.stage
  active := n.active
  expired := n.expired
  next := n.next
  chat := n.chat
  toServer
  handled

structure Abstracts (codec : MsgPack) (userName : ConnId → String) (n : Network) (t : Tavern) :
    Prop where
  sound : t.Sound
  strangers : t.Strangers
  lanes : Lanes codec userName n.next n.channel t.handled t.worker.messagesOut t.toServer
  same : t = n.tavern t.lives t.handled t.worker.messagesOut t.toServer

/-- What the server's worker handles in a step. -/
def Tavern.serving (t : Tavern) : Action → List Incoming
  | .serve now => t.served.toList.map fun (c, message) => ⟨c, message, now⟩
  | _ => []

def Network.serving (n : Network) : NetworkAction → List Incoming
  | .serve now =>
      match n.stage with
      | .gathering _ (c :: _) =>
          ((n.channel c).messagesIn .server).head?.toList.map fun message => ⟨c, message, now⟩
      | .gathering _ [] | .idle => []
  | _ => []

/-- A step of the network is one of the tavern that serves the same, or none that serves. -/
def Followed (codec : MsgPack) (userName : ConnId → String) (n : Network) (t : Tavern)
    (a : NetworkAction) (n' : Network) : Prop :=
  (Abstracts codec userName n' t ∧ n.serving a = []) ∨
    ∃ b t', Abstracts codec userName n' t' ∧ TavernStep userName t b t' ∧
      t.serving b = n.serving a

theorem abstracts_start (initialRooms : List String) :
    Abstracts codec userName (.start initialRooms) (.start initialRooms) where
  sound := sound_start initialRooms
  strangers := strangers_start initialRooms
  lanes := lanes_start
  same := rfl

/-- What the worker pushed is what its queues have more. -/
theorem deliver_eq {n : Network} {w : Worker} {pushed : ConnId → List Message}
    (h : ∀ c, w.messagesOut c = n.worker.messagesOut c ++ pushed c) :
    n.deliver w = { n with
      core := w
      channel := fun c => (n.channel c).push .server (pushed c) } := by
  unfold Network.deliver
  refine congrArg (fun channel => { n with core := w, channel }) (funext fun c => ?_)
  rw [h c]
  exact congrArg ((n.channel c).push .server ·) List.drop_left

section Abstracts

variable {n n' : Network} {t : Tavern}

/-- A step of the tavern keeps what holds in the tavern. -/
theorem Abstracts.follow (h : Abstracts codec userName n t) {a : NetworkAction} {b : Action}
    {t' : Tavern} (hstep : TavernStep userName t b t') (hserving : t.serving b = n.serving a)
    (hlanes : Lanes codec userName n'.next n'.channel t'.handled t'.worker.messagesOut t'.toServer)
    (hsame : t' = n'.tavern t'.lives t'.handled t'.worker.messagesOut t'.toServer) :
    Followed codec userName n t a n' :=
  .inr ⟨b, t', ⟨sound_step h.sound hstep, strangers_step h.sound h.strangers hstep, hlanes, hsame⟩,
    hstep, hserving⟩

theorem Abstracts.stage (h : Abstracts codec userName n t) : t.stage = n.stage :=
  congrArg Tavern.stage h.same

/-- What a client was sent is what was pushed for it. -/
theorem Abstracts.sent (h : Abstracts codec userName n t) (c : ConnId) :
    t.sent c = ((n.channel c).link.endpoint .server).pushed := by
  by_cases hc : c < n.next
  · exact (h.lanes.carries c hc).sent
  · have hunknown := Nat.le_of_not_lt hc
    rw [h.lanes.unknown c hunknown]
    exact (h.strangers c (le_of_eq_of_le (congrArg Tavern.next h.same) hunknown)).1

theorem Abstracts.queued_sent (h : Abstracts codec userName n t) (c : ConnId) :
    queued (t.handled c ++ t.worker.messagesOut c) = t.handled c ++ t.worker.messagesOut c := by
  refine queued_of_fromServer fun message hmessage => ?_
  rcases List.mem_append.mp hmessage with hmessage | hmessage
  · exact h.sound.handled c message hmessage
  · exact h.sound.lanes c message hmessage

/-- The window pops what its queue in the tavern begins with. -/
theorem Abstracts.client_queue (h : Abstracts codec userName n t) {c : ConnId} {message : Message}
    {rest : List Message} (hqueue : (n.channel c).messagesIn .client = message :: rest) :
    c < n.next ∧ ∃ later, t.worker.messagesOut c = message :: later := by
  have hc := h.lanes.known (hasBegun_of_messagesIn (h.lanes.sound c) hqueue)
  have hqueues := (h.lanes.carries c hc).client_onTheWay (h.lanes.sound c) (h.queued_sent c)
  rw [hqueue] at hqueues
  exact ⟨hc, _, hqueues⟩

theorem Abstracts.server_queue (h : Abstracts codec userName n t) {c : ConnId} {message : Message}
    {rest : List Message} (hqueue : (n.channel c).messagesIn .server = message :: rest) :
    ∃ later, t.toServer c = message :: later := by
  have hbegun := hasBegun_of_messagesIn (h.lanes.sound c) hqueue
  have hqueues :=
    (h.lanes.carries c (h.lanes.known hbegun)).server_onTheWay (h.lanes.sound c) hbegun
  rw [hqueue] at hqueues
  exact ⟨_, hqueues⟩

/-- The server knows by his name whoever it handles a message of. -/
theorem Abstracts.names (h : Abstracts codec userName n t) {c : ConnId} {message : Message}
    {rest : List Message} (hqueue : (n.channel c).messagesIn .server = message :: rest) :
    n.names c = userName c :=
  ((h.lanes.sound c).progress.established
    (.inr (hasBegun_of_messagesIn (h.lanes.sound c) hqueue))).1

end Abstracts

section Step

variable {n n' : Network} {t : Tavern} {a : NetworkAction}

/-- A message is served. -/
theorem abstracts_serve (h : Abstracts codec userName n t) {now : Int64}
    {clients waiting : List ConnId} {c : ConnId} {message : Message} {rest : List Message}
    {worker : Worker} (hstage : n.stage = .gathering clients (c :: waiting))
    (hqueue : (n.channel c).messagesIn .server = message :: rest)
    (hok : n.worker.handleMessage n.names ⟨c, message, now⟩ = .ok worker) :
    Followed codec userName n t (.serve now) ((n.take c .server message).deliver worker) := by
  obtain ⟨later, hsent⟩ := h.server_queue hqueue
  rw [handleMessage_congr (h.names hqueue)] at hok
  obtain ⟨replies, hout, hall⟩ := onlyPushes_handleMessage userName ⟨c, message, now⟩ hok
  have hc := h.lanes.known (hasBegun_of_messagesIn (h.lanes.sound c) hqueue)
  -- the replies go into one queue
  have hpushed : ∀ d, worker.messagesOut d =
      (n.take c .server message).worker.messagesOut d ++ if d = c then replies else [] := by
    intro d
    rw [hout, Mailbox.push_apply]
    show _ = ((Function.update n.channel c _ d).link.endpoint .server).messagesOut ++ _
    by_cases hd : d = c
    · subst hd
      rw [Function.update_self]
      rfl
    · rw [Function.update_of_ne hd]
      rfl
  have hserved : t.worker.handleMessage userName ⟨c, message, now⟩ =
      .ok { worker with messagesOut := fun d =>
        t.worker.messagesOut d ++ if d = c then replies else [] } := by
    rw [h.same]
    refine (hall t.worker.messagesOut).trans ?_
    refine congrArg (fun messagesOut => Except.ok { worker with messagesOut }) (funext fun d => ?_)
    exact Mailbox.push_apply t.worker.messagesOut c d replies
  rw [deliver_eq hpushed]
  have hserving : t.serving (.serve now) = n.serving (.serve now) := by
    simp only [Tavern.serving, Tavern.served, Network.serving, h.stage.trans hstage, hstage, hsent,
      hqueue]
    rfl
  refine h.follow (.serve now (h.stage.trans hstage) hsent hserved) hserving
    ((h.lanes.takeServer hqueue hsent).pushServer ?_) ?_
  · intro d hd
    exact if_neg (Nat.ne_of_gt (Nat.lt_of_lt_of_le hc hd))
  · rw [h.same]
    rfl

/-- A tick ends. -/
theorem abstracts_finishTick (h : Abstracts codec userName n t) {clients : List ConnId}
    (hstage : n.stage = .gathering clients []) :
    Followed codec userName n t .finishTick
      { n.deliver (n.worker.finishTick clients n.expired) with stage := .idle } := by
  have htstage := h.stage.trans hstage
  have hclients : clients.Nodup := h.sound.snapshot htstage
  have htracks : Tracks n.worker t.lives := by
    have htracks := h.sound.tracks
    rw [h.same] at htracks
    exact htracks.withMessages _
  have hexpired : t.expired = n.expired := congrArg Tavern.expired h.same
  have hpushed : ∀ c, (n.worker.finishTick clients n.expired).messagesOut c =
      n.worker.messagesOut c ++ (notices n.worker clients c ++
        n.worker.rooms.roomNames.flatMap (echoes t.lives n.expired c)) :=
    fun c => finishTick_messagesOut htracks hclients n.expired c
  have hfinish : t.worker.finishTick clients t.expired =
      { n.worker.finishTick clients n.expired with
        messagesOut := fun c => t.worker.messagesOut c ++ (notices n.worker clients c ++
          n.worker.rooms.roomNames.flatMap (echoes t.lives n.expired c)) } := by
    have hworker : t.worker = { n.worker with messagesOut := t.worker.messagesOut } :=
      congrArg Tavern.worker h.same
    rw [hexpired, hworker]
    exact finishTick_withMessages htracks hclients n.expired t.worker.messagesOut
  rw [deliver_eq hpushed]
  refine h.follow (.finishTick htstage) rfl ?_ ?_
  · show Lanes codec userName n.next _ t.handled
      (t.worker.finishTick clients t.expired).messagesOut t.toServer
    rw [hfinish]
    refine h.lanes.pushServer fun c hc => ?_
    have htc : t.next ≤ c := le_of_eq_of_le (congrArg Tavern.next h.same) hc
    refine nothing_for_stranger (fun hmem => ?_) (h.strangers c htc).2 n.expired
    refine Nat.not_lt.mpr htc (h.sound.numbered c (.inr ?_))
    rw [htstage]
    exact hmem
  · rw [hfinish, h.same]
    rfl

/-- **Each step of the network is one of the tavern, or none.** -/
theorem abstracts_step (hcodec : codec.Lossless) (h : Abstracts codec userName n t)
    (hstep : NetworkStep codec userName n a n') : Followed codec userName n t a n' := by
  have hnext : t.next = n.next := congrArg Tavern.next h.same
  have hactive : t.active = n.active := congrArg Tavern.active h.same
  have hchat : t.chat = n.chat := congrArg Tavern.chat h.same
  cases hstep with
  | connect clientRooms hrooms hunmarked =>
      refine h.follow (.connect clientRooms hrooms hunmarked) rfl ?_ (by rw [h.same]; rfl)
      show Lanes codec userName (n.next + 1) _ t.handled t.worker.messagesOut
        (Function.update t.toServer t.next [createRoomListRequest])
      rw [hnext]
      exact h.lanes.connect (h.strangers n.next (Nat.le_of_eq hnext)).1
  | drop c => exact h.follow (.drop c) rfl h.lanes (by rw [h.same]; rfl)
  | expire c hknown hdropped hclients =>
      refine h.follow (.expire c ?_ ?_ ?_) rfl h.lanes (by rw [h.same]; rfl)
      · exact hnext ▸ hknown
      · exact hactive ▸ hdropped
      · exact h.stage ▸ hclients
  | transport c hknown hown hchannel =>
      have hlanes := h.lanes.own hcodec hknown hown hchannel
      exact .inl ⟨⟨h.sound, h.strangers, hlanes, h.same⟩, rfl⟩
  | request c message hbegun =>
      have hlanes := h.lanes.pushClient hbegun [message]
      have hwindow : Function.update n.chat c (n.chat c) = n.chat := Function.update_eq_self ..
      by_cases hqueued : message.messageType.isQueued = true
      · rw [show queued [message] = [message] from List.filter_cons_of_pos hqueued] at hlanes
        refine h.follow (.request c message) rfl hlanes ?_
        rw [Network.setWindow, hwindow, h.same]
        rfl
      · -- the other side answers it, and the server's worker never sees it
        rw [show queued [message] = [] from List.filter_cons_of_neg hqueued,
          Mailbox.push_nil] at hlanes
        refine .inl ⟨⟨h.sound, h.strangers, hlanes, ?_⟩, rfl⟩
        rw [Network.setWindow, hwindow]
        exact h.same
  | @handle c message rest chat pushed hqueue hok =>
      obtain ⟨hknown, later, hsent⟩ := h.client_queue hqueue
      have hbegun := hasBegun_of_messagesIn (h.lanes.sound c) hqueue
      rw [← hchat] at hok
      have hlanes := (h.lanes.takeClient hknown hqueue hsent).pushClient
        (by rw [Function.update_self]; exact hbegun) pushed
      rw [queued_of_requests (h.sound.heard hsent hok).2.requests] at hlanes
      exact h.follow (.handle c hsent hok) rfl hlanes (by rw [h.same]; rfl)
  | @pick c index chat pushed hbegun hok =>
      rw [← hchat] at hok
      have hlanes := h.lanes.pushClient hbegun pushed
      rw [queued_of_requests (h.sound.joins hok).requests] at hlanes
      exact h.follow (.pick c index hok) rfl hlanes (by rw [h.same]; rfl)
  | beginTick hidle =>
      refine h.follow (.beginTick (h.stage.trans hidle)) rfl h.lanes ?_
      rw [h.same]
      rfl
  | serve now hstage hqueue hok => exact abstracts_serve h hstage hqueue hok
  | nextClient hstage hempty =>
      exact h.follow (.nextClient (h.stage.trans hstage)) rfl h.lanes (by rw [h.same]; rfl)
  | finishTick hstage => exact abstracts_finishTick h hstage

end Step

theorem abstracts_reachable (hcodec : codec.Lossless) {initialRooms : List String}
    {allowed : Network → NetworkAction → Prop} {n : Network}
    (h : (network codec userName initialRooms).Reachable allowed n) :
    ∃ t, Abstracts codec userName n t ∧
      (tavern userName initialRooms).Reachable LabelledSystem.anyStep t := by
  refine h.simulate ?_ ?_
  · rintro n rfl
    exact ⟨_, abstracts_start initialRooms, rfl⟩
  · intro n a n' t _ ht _ hstep
    rcases abstracts_step hcodec ht hstep with ⟨ht', -⟩ | ⟨b, t', ht', hstep', -⟩
    · exact .inl ht'
    · exact .inr ⟨b, t', ht', trivial, hstep'⟩

/-- **The network is a tavern.**  In every reachable state of the network, with blocks in flight
anywhere, the rooms, the tick, the connections and the windows are those of a reachable
state of the tavern; and what a client's queues hold there is what lies between the server's
worker and its window here, in the same order. -/
theorem network_refines (hcodec : codec.Lossless) {initialRooms : List String} {n : Network}
    (h : (network codec userName initialRooms).Reachable LabelledSystem.anyStep n) :
    ∃ t, (tavern userName initialRooms).Reachable LabelledSystem.anyStep t ∧
      t = n.tavern t.lives t.handled t.worker.messagesOut t.toServer ∧
      ∀ c < n.next,
        t.handled c = (n.channel c).taken .client ∧
        t.worker.messagesOut c = (n.channel c).messagesIn .client ++
          queued (onTheWay codec (n.channel c).link .server) ∧
        ((n.channel c).client.HasBegun → t.toServer c = (n.channel c).messagesIn .server ++
          queued (onTheWay codec (n.channel c).link .client)) := by
  obtain ⟨t, ht, hreach⟩ := abstracts_reachable hcodec h
  refine ⟨t, hreach, ht.same, fun c hc => ?_⟩
  have hsound := ht.lanes.sound c
  have hcarries := ht.lanes.carries c hc
  refine ⟨hcarries.popped, ?_, fun hbegun => ?_⟩
  · exact hcarries.client_onTheWay hsound (ht.queued_sent c)
  · exact hcarries.server_onTheWay hsound hbegun

/-! ### ann comes in -/

section Ann

/-- The network with one client, who uses no rooms of an earlier session. -/
def annsNetwork (core : Worker) (stage : Stage) (s : Channel) : Network where
  core
  stage
  active := [0]
  expired _ := false
  next := 1
  chat := Function.update (fun _ => ⟨.new, .new⟩) 0 ⟨.new, .new⟩
  channel := Function.update (fun _ => .start) 0 s

abbrev AnnsRun (allowed : Network → NetworkAction → Prop) (s : Network × List Incoming) : Prop :=
  ((network annsCodec (fun _ => "ann") ["inn"]).recording Network.serving).Reachable
    (fun s => allowed s.1) s

/-- Everything is allowed but what a window sends. -/
def Free (allowed : Network → NetworkAction → Prop) : Prop :=
  ∀ n a, (∀ c message, a ≠ .request c message) → allowed n a

variable {core : Worker} {stage : Stage} {s s' : Channel} {served : List Incoming}
  {allowed : Network → NetworkAction → Prop} (hfree : Free allowed)

theorem channel_annsNetwork (core : Worker) (stage : Stage) (s : Channel) :
    (annsNetwork core stage s).channel 0 = s :=
  show Function.update (fun _ => Channel.start) (0 : ConnId) s 0 = s from Function.update_self ..

theorem update_annsNetwork : { annsNetwork core stage s with
      channel := Function.update (annsNetwork core stage s).channel 0 s' }
    = annsNetwork core stage s' := by
  unfold annsNetwork
  simp only [Function.update_idem]

include hfree in
theorem ann_own (h : AnnsRun allowed (annsNetwork core stage s, served)) {e : ChannelEvent}
    (hstep : ChannelStep annsCodec "ann" s e s') (hown : e.IsOwn) :
    AnnsRun allowed (annsNetwork core stage s', served) := by
  rw [← channel_annsNetwork core stage s] at hstep
  have hnetwork : NetworkStep annsCodec (fun _ => "ann") (annsNetwork core stage s)
      (.transport 0 e) _ := .transport 0 Nat.one_pos hown hstep
  rw [update_annsNetwork] at hnetwork
  have hnext : AnnsRun allowed (_, served ++ []) :=
    h.step (.transport 0 e) (hfree _ _ fun _ _ h => by cases h) ⟨hnetwork, rfl⟩
  rwa [List.append_nil] at hnext

/-- One thing for each side. -/
def onSides {X : Type} (server client : X) : Side → X
  | .server => server
  | .client => client

theorem update_onSides_server {X : Type} (server client x : X) :
    Function.update (onSides server client) .server x = onSides x client := by
  funext side
  cases side <;> rfl

theorem update_onSides_client {X : Type} (server client x : X) :
    Function.update (onSides server client) .client x = onSides server x := by
  funext side
  cases side <;> rfl

/-- Both workers are in their loops. -/
def annsChannel (server client : Endpoint) (toClient toServer : List MessageBlock) : Channel where
  server := .serving
  client := .inSession
  connectedUserName := "ann"
  link := ⟨onSides server client, onSides toClient toServer⟩
  taken _ := []

theorem ann_loops (h : AnnsRun allowed (annsNetwork core stage s, served))
    (hserver : s.server = .serving) (hclient : s.client = .inSession)
    (hname : s.connectedUserName = "ann") (htaken : s.taken = fun _ => []) :
    AnnsRun allowed (annsNetwork core stage
      (annsChannel (s.link.endpoint .server) (s.link.endpoint .client)
        (s.link.wire .server) (s.link.wire .client)), served) := by
  have hsame : annsChannel (s.link.endpoint .server) (s.link.endpoint .client)
      (s.link.wire .server) (s.link.wire .client) = s := by
    obtain ⟨server, client, name, ⟨endpoint, wire⟩, taken⟩ := s
    obtain rfl : server = .serving := hserver
    obtain rfl : client = .inSession := hclient
    obtain rfl : name = "ann" := hname
    obtain rfl : taken = fun _ => [] := htaken
    refine congrArg (fun link => Channel.mk _ _ _ link _) (congrArg₂ Link.mk ?_ ?_) <;>
      funext side <;> cases side <;> rfl
  rw [hsame]
  exact h

section Loops

variable {server client : Endpoint} {toClient toServer : List MessageBlock}

include hfree

theorem ann_client
    (h : AnnsRun allowed
      (annsNetwork core stage (annsChannel server client toClient toServer), served))
    {client' : Endpoint}
    (hstep : Step annsCodec ⟨onSides server client, onSides toClient toServer⟩ .client
      (Link.setEndpoint ⟨onSides server client, onSides toClient toServer⟩ .client client'))
    (hpushed : client'.pushed = client.pushed) :
    AnnsRun allowed
      (annsNetwork core stage (annsChannel server client' toClient toServer), served) := by
  have hwork : ChannelStep annsCodec "ann" (annsChannel server client toClient toServer)
      (.work .client) _ := .work rfl hstep hpushed
  have hnext := ann_own hfree h hwork trivial
  simpa only [Link.setEndpoint, annsChannel, update_onSides_client] using hnext

theorem ann_server
    (h : AnnsRun allowed
      (annsNetwork core stage (annsChannel server client toClient toServer), served))
    {server' : Endpoint}
    (hstep : Step annsCodec ⟨onSides server client, onSides toClient toServer⟩ .server
      (Link.setEndpoint ⟨onSides server client, onSides toClient toServer⟩ .server server'))
    (hpushed : server'.pushed = server.pushed) :
    AnnsRun allowed
      (annsNetwork core stage (annsChannel server' client toClient toServer), served) := by
  have hwork : ChannelStep annsCodec "ann" (annsChannel server client toClient toServer)
      (.work .server) _ := .work rfl hstep hpushed
  have hnext := ann_own hfree h hwork trivial
  simpa only [Link.setEndpoint, annsChannel, update_onSides_server] using hnext

theorem ann_send
    (h : AnnsRun allowed
      (annsNetwork core stage (annsChannel server client toClient toServer), served))
    (hphase : client.phase = .sending) (hbatch : client.batch ≠ [])
    (hlen : Sendable annsCodec client.batch) :
    AnnsRun allowed (annsNetwork core stage (annsChannel server client.sendBatch toClient
      (toServer ++ [packMessages annsCodec client.batch])), served) := by
  have hwork : ChannelStep annsCodec "ann" (annsChannel server client toClient toServer)
      (.work .client) _ := .work rfl (.send hphase hbatch hlen) rfl
  have hnext := ann_own hfree h hwork trivial
  simpa only [annsChannel, update_onSides_client, onSides] using hnext

theorem ann_receive {messages : List Message} {rest : List MessageBlock}
    (h : AnnsRun allowed (annsNetwork core stage (annsChannel server client toClient
      (packMessages annsCodec messages :: rest)), served))
    (hphase : server.phase = .receiving) (hlen : Sendable annsCodec messages)
    {received : Received} (hdispatch : messages.foldlM dispatchMessage ⟨[], []⟩ = .ok received) :
    AnnsRun allowed (annsNetwork core stage
      (annsChannel (server.receive messages received 0) client toClient rest), served) := by
  have hunpack := unpackMessages_packMessages annsCodec_lossless hlen
  have hwork : ChannelStep annsCodec "ann" (annsChannel server client toClient
      (packMessages annsCodec messages :: rest)) (.work .server) _ :=
    .work rfl (.receive 0 hphase rfl hunpack hdispatch) rfl
  have hnext := ann_own hfree h hwork trivial
  simpa only [annsChannel, update_onSides_server, update_onSides_client, onSides, Side.other]
    using hnext

end Loops

theorem ann_request (h : AnnsRun allowed (annsNetwork core stage s, served))
    (hbegun : s.client.HasBegun) (message : Message)
    (hallowed : allowed (annsNetwork core stage s) (.request 0 message)) :
    AnnsRun allowed (annsNetwork core stage (s.push .client [message]), served) := by
  rw [← channel_annsNetwork core stage s] at hbegun
  have hnetwork : NetworkStep annsCodec (fun _ => "ann") (annsNetwork core stage s)
      (.request 0 message) _ := .request 0 message hbegun
  rw [Network.setWindow, Function.update_eq_self, update_annsNetwork,
    channel_annsNetwork] at hnetwork
  have hnext : AnnsRun allowed (_, served ++ []) :=
    h.step (.request 0 message) hallowed ⟨hnetwork, rfl⟩
  rwa [List.append_nil] at hnext

include hfree in
theorem ann_inSession : AnnsRun allowed (annsNetwork (.start ["inn"]) .idle (annsChannel
    (.start [] none []) (.start [] (some (.heard 0)) [createRoomListRequest]) []
    [packMessages annsCodec [createRoomListRequest]]), []) := by
  have hstart : AnnsRun allowed (.start ["inn"], []) := .init ⟨rfl, rfl⟩
  have hconnected : AnnsRun allowed (annsNetwork (.start ["inn"]) .idle .start, []) :=
    hstart.step (.connect .new) (hfree _ _ fun _ _ h => by cases h)
      ⟨.connect .new RoomManager.wf_new (fun _ _ hnone => by cases hnone), rfl⟩
  have hdetached := ann_own hfree hconnected (.detach rfl) trivial
  have hgreeted := ann_own hfree hdetached (.hello rfl sendable_hello) trivial
  have hheard := ann_own hfree hgreeted
    (.hear rfl rfl (readHello_hello annsCodec_lossless sendable_hello)) trivial
  have hacked := ann_own hfree hheard (.acknowledge rfl sendable_ack) trivial
  have hdecided := ann_own hfree hacked
    (.await rfl rfl (findWanted_ack annsCodec_lossless sendable_ack) rfl) trivial
  have hbegun := ann_own hfree hdecided (.begin 0 rfl sendable_roomList) trivial
  exact ann_loops hbegun rfl rfl rfl rfl

/-- ann comes in and creates a room; both requests are on their way. -/
theorem network_refines_ann : ∃ n, (network annsCodec (fun _ => "ann") ["inn"]).Reachable
      LabelledSystem.anyStep n ∧
    ∃ t, (tavern (fun _ => "ann") ["inn"]).Reachable LabelledSystem.anyStep t ∧
      t.toServer 0 = [createRoomListRequest, createRoomCreate "den"] := by
  have hfree : Free LabelledSystem.anyStep := fun _ _ _ => trivial
  have hrequested := ann_request (ann_inSession hfree) trivial (createRoomCreate "den") trivial
  have hreach : (network annsCodec (fun _ => "ann") ["inn"]).Reachable LabelledSystem.anyStep _ :=
    hrequested.forget
  obtain ⟨t, ht, -, hqueues⟩ := network_refines annsCodec_lossless hreach
  refine ⟨_, hreach, t, ht, ((hqueues 0 Nat.one_pos).2.2 trivial).trans ?_⟩
  show queued ((contents annsCodec (packMessages annsCodec [createRoomListRequest]) ++ []) ++
    [] ++ [createRoomCreate "den"]) = _
  rw [contents_packMessages annsCodec_lossless sendable_roomList]
  rfl

end Ann

end Tavernmx.Session
