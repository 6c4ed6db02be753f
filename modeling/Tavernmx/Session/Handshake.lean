/-
# `Tavernmx.Session.Handshake` — a connection from its first message on

`Session.Delivery` begins when both workers are in their loops.  Before that the two
sides greet each other:

    client   HELLO ──▸             ◂── ACK           ROOM_LIST ──▸  loop
    server          waiting ──▸ greeted ──▸ loop
             or, when the server is full,  ◂── NAK

Each side waits with a loop that drops what it does not want, while other threads
may already push into `messages_out`.  That nothing is dropped but the greeting is due to
its order: HELLO and ACK each travel in a block of their own, the server's worker sends
nothing before the ACK, and the client sends nothing between HELLO and ACK.  `Progress`
is that order, and `handshake` what the two sides can rely on.

A worker or an attempt that ends by an exception or for want of time just ends; its
steps are `serverEnds`, `attemptFails` and `sessionEnds`.
-/
import Tavernmx.Client.ChatWindow
import Tavernmx.Client.ConnectThread
import Tavernmx.Server.WorkerExit
import Tavernmx.Session.Delivery

namespace Tavernmx.Session

open Messaging Server Client

/-! ## The two sides -/

/-- Where the connection is on the server. -/
inductive ServerPhase where
  | accepted
  /-- `client_worker` waits for a HELLO. -/
  | waiting
  /-- It is about to send the ACK. -/
  | greeted
  | serving
  | over
  deriving DecidableEq, Repr

/-- Where the client is. -/
inductive ClientPhase where
  | connecting
  /-- The HELLO is sent. -/
  | waiting
  | decided (outcome : ConnectOutcome)
  | inSession
  | over

/-- `server_message_worker` has been started. -/
def ClientPhase.HasBegun : ClientPhase → Prop
  | .inSession | .over => True
  | .connecting | .waiting | .decided _ => False

structure Channel where
  server : ServerPhase
  client : ClientPhase
  connectedUserName : String
  link : Link
  /-- What was popped from `messages_in` on a side. -/
  taken : Side → List Message

/-- A block is handed to the transport. -/
def Link.write (codec : MsgPack) (side : Side) (messages : List Message) (s : Link) : Link :=
  { s with wire := Function.update s.wire side (s.wire side ++ [packMessages codec messages]) }

/-- The first block that `side` sent is received. -/
def Link.read (side : Side) (rest : List MessageBlock) (s : Link) : Link :=
  { s with wire := Function.update s.wire side rest }

/-- Pushes into `messages_out`, by another thread. -/
def Endpoint.pushAll (messages : List Message) (e : Endpoint) : Endpoint :=
  { e with messagesOut := e.messagesOut ++ messages, pushed := e.pushed ++ messages }

@[simp] theorem Link.endpoint_write (codec : MsgPack) (side : Side) (messages : List Message)
    (s : Link) : (s.write codec side messages).endpoint = s.endpoint := rfl

@[simp] theorem Link.endpoint_read (side : Side) (rest : List MessageBlock) (s : Link) :
    (s.read side rest).endpoint = s.endpoint := rfl

namespace Channel

/-- Just accepted on the server, and about to say HELLO. -/
def start : Channel where
  server := .accepted
  client := .connecting
  connectedUserName := ""
  link := ⟨fun _ => .start [] none [], fun _ => []⟩
  taken _ := []

def messagesIn (s : Channel) (side : Side) : List Message :=
  (s.link.endpoint side).entered.drop (s.taken side).length

/-- Pushes into `messages_out`. -/
def push (side : Side) (messages : List Message) (s : Channel) : Channel :=
  { s with link := s.link.setEndpoint side ((s.link.endpoint side).pushAll messages) }

/-- A `messages_in.pop()` that returns `message`. -/
def take (side : Side) (message : Message) (s : Channel) : Channel :=
  { s with taken := Function.update s.taken side (s.taken side ++ [message]) }

/-- The side is in its loop. -/
def Working (s : Channel) : Side → Prop
  | .server => s.server = .serving
  | .client => s.client = .inSession

end Channel

/-- `BIO_write` can be given the block. -/
def Sendable (codec : MsgPack) (messages : List Message) : Prop :=
  (packBlock (packMessages codec messages)).length < 2 ^ 31

/-- The answer to a client that is not let in. -/
def tooManyNak : Message := createNak "Too many connections."

/-- What the connect thread makes of an ACK or a NAK. -/
def outcomeOf (acknak : Message) : Exec ConnectOutcome :=
  if acknak.messageType = .nak then do
    let error ← messageValueOr String acknak "error" ""
    pure (.denied error)
  else pure .acknowledged

inductive ChannelEvent where
  | detach
  | deny
  | hear
  | acknowledge
  | serverEnds
  | hello
  | await
  | attemptFails
  | begin (now : Int)
  | sessionEnds
  | work (side : Side)
  | push (side : Side) (messages : List Message)
  | take (side : Side)

inductive ChannelStep (codec : MsgPack) (userName : String) :
    Channel → ChannelEvent → Channel → Prop where
  | detach {s : Channel} (hserver : s.server = .accepted) :
      ChannelStep codec userName s .detach { s with server := .waiting }
  | deny {s : Channel} (hserver : s.server = .accepted) (hlen : Sendable codec [tooManyNak]) :
      ChannelStep codec userName s .deny
        { s with server := .over, link := s.link.write codec .server [tooManyNak] }
  | hear {s : Channel} {block : MessageBlock} {rest : List MessageBlock} {found : Option String}
      (hserver : s.server = .waiting) (hwire : s.link.wire .client = block :: rest)
      (hread : readHello codec block = .ok found) :
      ChannelStep codec userName s .hear { s with
        server := if found.isSome then .greeted else .waiting
        connectedUserName := found.getD s.connectedUserName
        link := s.link.read .client rest }
  | acknowledge {s : Channel} (hserver : s.server = .greeted) (hlen : Sendable codec [createAck]) :
      ChannelStep codec userName s .acknowledge
        { s with server := .serving, link := s.link.write codec .server [createAck] }
  | serverEnds {s : Channel} : ChannelStep codec userName s .serverEnds { s with server := .over }
  | hello {s : Channel} (hclient : s.client = .connecting)
      (hlen : Sendable codec [createHello userName]) :
      ChannelStep codec userName s .hello
        { s with client := .waiting, link := s.link.write codec .client [createHello userName] }
  | awaitMore {s : Channel} {block : MessageBlock} {rest : List MessageBlock}
      (hclient : s.client = .waiting) (hwire : s.link.wire .server = block :: rest)
      (hread : findWanted codec isAckOrNak (.ok (some block)) = .ok none) :
      ChannelStep codec userName s .await { s with link := s.link.read .server rest }
  | await {s : Channel} {block : MessageBlock} {rest : List MessageBlock} {acknak : Message}
      {outcome : ConnectOutcome} (hclient : s.client = .waiting)
      (hwire : s.link.wire .server = block :: rest)
      (hread : findWanted codec isAckOrNak (.ok (some block)) = .ok (some acknak))
      (houtcome : outcomeOf acknak = .ok outcome) :
      ChannelStep codec userName s .await
        { s with client := .decided outcome, link := s.link.read .server rest }
  | attemptFails {s : Channel} (hclient : s.client = .connecting ∨ s.client = .waiting) :
      ChannelStep codec userName s .attemptFails { s with client := .decided .failed }
  | begin {s : Channel} (now : Int) (hclient : s.client = .decided .acknowledged)
      (hlen : Sendable codec [createRoomListRequest]) :
      ChannelStep codec userName s (.begin now) { s with
        client := .inSession
        link := (s.link.setEndpoint .client (.start [] (some (.heard now))
          [createRoomListRequest])).write codec .client [createRoomListRequest] }
  | sessionEnds {s : Channel} (hclient : s.client = .inSession) :
      ChannelStep codec userName s .sessionEnds { s with client := .over }
  | work {s : Channel} {side : Side} {link : Link} (hworking : s.Working side)
      (hstep : Step codec s.link side link)
      (hown : (link.endpoint side).pushed = (s.link.endpoint side).pushed) :
      ChannelStep codec userName s (.work side) { s with link }
  | push {s : Channel} (side : Side) (messages : List Message)
      (hwindow : side = .client → s.client.HasBegun) :
      ChannelStep codec userName s (.push side messages) (s.push side messages)
  | take {s : Channel} {side : Side} {message : Message} {rest : List Message}
      (hqueue : s.messagesIn side = message :: rest) :
      ChannelStep codec userName s (.take side) (s.take side message)

/-- A connection of the user, whatever happens to it. -/
def channel (codec : MsgPack) (userName : String) : LabelledSystem Channel ChannelEvent where
  init s := s = .start
  step := ChannelStep codec userName

/-! ## Reading the greetings -/

variable {codec : MsgPack} {userName : String}

theorem readHello_hello (hcodec : codec.Lossless) (hlen : Sendable codec [createHello userName]) :
    readHello codec (packMessages codec [createHello userName]) = .ok (some userName) := by
  have htype : (createHello userName).messageType = .hello := rfl
  rw [readHello, unpackMessages_packMessages hcodec hlen]
  simp [htype, userName_createHello, bind, Except.bind, pure, Except.pure]

theorem findWanted_ack (hcodec : codec.Lossless) (hlen : Sendable codec [createAck]) :
    findWanted codec isAckOrNak (.ok (some (packMessages codec [createAck])))
      = .ok (some createAck) := by
  show (unpackMessages codec _ >>= _) = _
  rw [unpackMessages_packMessages hcodec hlen]
  rfl

theorem findWanted_nak (hcodec : codec.Lossless) (hlen : Sendable codec [tooManyNak]) :
    findWanted codec isAckOrNak (.ok (some (packMessages codec [tooManyNak])))
      = .ok (some tooManyNak) := by
  show (unpackMessages codec _ >>= _) = _
  rw [unpackMessages_packMessages hcodec hlen]
  rfl

theorem outcomeOf_tooManyNak : outcomeOf tooManyNak = .ok (.denied "Too many connections.") := by
  have hread := error_createNak "Too many connections." ""
  show (messageValueOr String tooManyNak "error" "" >>= _) = _
  rw [tooManyNak, hread]
  rfl

/-! ## What a step of a loop leaves alone -/

variable {t t' : Link} {side actor : Side}

structure Step.Frame (t : Link) (side : Side) (t' : Link) : Prop where
  other : t'.endpoint side.other = t.endpoint side.other
  /-- What the side sends is behind what it sent before. -/
  written : ∃ blocks, t'.wire side = t.wire side ++ blocks
  read : (t'.wire side.other = t.wire side.other ∧
      (t'.endpoint side).entered = (t.endpoint side).entered) ∨
    ∃ block, t.wire side.other = block :: t'.wire side.other
  entered : (t.endpoint side).entered <+: (t'.endpoint side).entered

/-- Such a step stays on its side. -/
theorem Step.Frame.setEndpoint {e : Endpoint} (h : e.entered = (t.endpoint side).entered) :
    Step.Frame t side (t.setEndpoint side e) := by
  have hentered : ((t.setEndpoint side e).endpoint side).entered = (t.endpoint side).entered :=
    (congrArg Endpoint.entered (Function.update_self ..)).trans h
  exact ⟨Function.update_of_ne (Side.other_ne side) .., ⟨[], (List.append_nil _).symm⟩,
    .inl ⟨rfl, hentered⟩, hentered ▸ List.prefix_rfl⟩

theorem entered_check (now now' : Int) (e : Endpoint) : (e.check now now').entered = e.entered := by
  unfold Endpoint.check
  split
  · rfl
  · split <;> rfl

theorem Step.frame (h : Step codec t side t') : Step.Frame t side t' := by
  cases h with
  | push message => exact .setEndpoint rfl
  | @receive block rest messages received now hphase hwire hunpack hdispatch =>
      refine ⟨Function.update_of_ne (Side.other_ne side) .., ⟨[], ?_⟩, .inr ⟨block, ?_⟩, ?_⟩
      · simp only [Function.update_of_ne (Side.ne_other side), List.append_nil]
      · simp only [hwire, Function.update_self]
      · simp only [Function.update_self]
        exact List.prefix_append ..
  | receiveNothing hphase => exact .setEndpoint rfl
  | check now now' hphase => exact .setEndpoint (entered_check now now' _)
  | pop hphase hqueue => exact .setEndpoint rfl
  | popNothing hphase hqueue => exact .setEndpoint rfl
  | sendNothing hphase hbatch => exact .setEndpoint rfl
  | send hphase hbatch hlen =>
      refine ⟨Function.update_of_ne (Side.other_ne side) ..,
        ⟨[packMessages codec (t.endpoint side).batch], Function.update_self ..⟩, .inl ⟨?_, ?_⟩, ?_⟩
      · simp only [Function.update_of_ne (Side.other_ne side)]
      · simp only [Function.update_self]
        rfl
      · simp only [Function.update_self]
        exact List.prefix_rfl

/-! ## Greetings and deliveries -/

/-- A block that nobody queues is sent. -/
theorem Delivers.write (hcodec : codec.Lossless) (h : Delivers codec t side)
    {messages : List Message} (hlen : Sendable codec messages)
    (hqueued : side = actor → queued messages = []) :
    Delivers codec (t.write codec actor messages) side := by
  by_cases hside : side = actor
  · subst hside
    refine ⟨?_, ?_, h.idle, h.answered, h.entered⟩
    · have hbefore := h.conserved
      rw [lane, onTheWay] at hbefore ⊢
      simp only [Link.write, Function.update_self, List.flatMap_append, List.flatMap_singleton,
        contents_packMessages hcodec hlen, queued_append, hqueued rfl, List.append_nil]
      simpa only [queued_append] using hbefore
    · simp only [Link.write, Function.update_self, List.mem_append, List.mem_singleton]
      rintro block (hblock | rfl)
      · exact h.packed block hblock
      · exact ⟨messages, rfl, hlen⟩
  · have hwire : (t.write codec actor messages).wire side = t.wire side :=
      Function.update_of_ne hside ..
    refine ⟨?_, by rw [hwire]; exact h.packed, h.idle, h.answered, h.entered⟩
    have hbefore := h.conserved
    rw [lane, onTheWay] at hbefore ⊢
    rw [hwire]
    exact hbefore

/-- A block that nobody queues is received and dropped. -/
theorem Delivers.read (h : Delivers codec t side) {block : MessageBlock}
    {rest : List MessageBlock} (hwire : t.wire actor = block :: rest)
    (hqueued : side = actor → queued (contents codec block) = []) :
    Delivers codec (t.read actor rest) side := by
  by_cases hside : side = actor
  · subst hside
    have hwire' : (t.read side rest).wire side = rest := Function.update_self ..
    refine ⟨?_, ?_, h.idle, h.answered, h.entered⟩
    · have hbefore := h.conserved
      rw [lane, onTheWay, hwire, List.flatMap_cons] at hbefore
      rw [lane, onTheWay, hwire']
      simpa only [Link.endpoint_read, queued_append, hqueued rfl, List.nil_append] using hbefore
    · rw [hwire']
      exact fun b hb => h.packed b (hwire ▸ List.mem_cons_of_mem _ hb)
  · have hwire' : (t.read actor rest).wire side = t.wire side := Function.update_of_ne hside ..
    refine ⟨?_, by rw [hwire']; exact h.packed, h.idle, h.answered, h.entered⟩
    have hbefore := h.conserved
    rw [lane, onTheWay] at hbefore ⊢
    rw [hwire']
    exact hbefore

theorem localStep_pushAll {e : Endpoint} (hidle : e.phase = .receiving → e.batch = [])
    (messages : List Message) : LocalStep e (e.pushAll messages) :=
  ⟨rfl, ⟨queued messages, queued_append .., by
    show queued (e.batch ++ (e.messagesOut ++ messages)) = _
    rw [← List.append_assoc, queued_append]⟩, hidle, id⟩

/-! ## The order of the greetings -/

/-- The server has not heard the HELLO. -/
def ServerPhase.Unaware (server : ServerPhase) : Prop :=
  server = .accepted ∨ server = .waiting ∨ server = .over

/-- What was sent of the greetings, and where the two sides are then: the HELLO that is in
flight, and the blocks in flight to the client. -/
inductive Progress (codec : MsgPack) (userName : String) :
    ServerPhase → ClientPhase → String → List MessageBlock → List MessageBlock → Prop where
  | silent {server : ServerPhase} {client : ClientPhase} {name : String} (hserver : server.Unaware)
      (hclient : client = .connecting ∨ client = .decided .failed) :
      Progress codec userName server client name [] []
  | greeting {server : ServerPhase} {client : ClientPhase} {name : String}
      (hserver : server.Unaware) (hclient : client = .waiting ∨ client = .decided .failed)
      (hlen : Sendable codec [createHello userName]) :
      Progress codec userName server client name [packMessages codec [createHello userName]] []
  /-- The NAK is in flight. -/
  | turnedAway {client : ClientPhase} {name : String} {hellos : List MessageBlock}
      (hclient : client = .connecting ∨ client = .waiting ∨ client = .decided .failed)
      (hlen : Sendable codec [tooManyNak]) :
      Progress codec userName .over client name hellos [packMessages codec [tooManyNak]]
  | denied {name : String} {hellos : List MessageBlock} :
      Progress codec userName .over (.decided (.denied "Too many connections.")) name hellos []
  | heard {server : ServerPhase} {client : ClientPhase}
      (hserver : server = .greeted ∨ server = .over)
      (hclient : client = .waiting ∨ client = .decided .failed) :
      Progress codec userName server client userName [] []
  /-- The ACK is in flight, before anything else. -/
  | answered {server : ServerPhase} {client : ClientPhase} {blocks : List MessageBlock}
      (hserver : server = .serving ∨ server = .over)
      (hclient : client = .waiting ∨ client = .decided .failed)
      (hlen : Sendable codec [createAck]) :
      Progress codec userName server client userName []
        (packMessages codec [createAck] :: blocks)
  | acknowledged {server : ServerPhase} {blocks : List MessageBlock}
      (hserver : server = .serving ∨ server = .over) :
      Progress codec userName server (.decided .acknowledged) userName [] blocks
  | begun {server : ServerPhase} {client : ClientPhase} {blocks blocks' : List MessageBlock}
      (hserver : server = .serving ∨ server = .over) (hclient : client.HasBegun) :
      Progress codec userName server client userName blocks blocks'

structure Channel.Sound (codec : MsgPack) (userName : String) (s : Channel) : Prop where
  progress : Progress codec userName s.server s.client s.connectedUserName
    (s.link.wire .client) (s.link.wire .server)
  toClient : Delivers codec s.link .server
  toServer : s.client.HasBegun → Delivers codec s.link .client
  /-- Before the session the client has no queues, and nothing has entered the server's. -/
  unused : ¬ s.client.HasBegun → s.link.endpoint .client = .start [] none [] ∧
    (s.link.endpoint .server).entered = []
  taken : ∀ side, s.taken side <+: (s.link.endpoint side).entered

theorem Channel.sound_start : Channel.start.Sound codec userName where
  progress := .silent (.inl rfl) (.inl rfl)
  toClient := ⟨rfl, (fun _ h => by cases h), fun _ => rfl, rfl, fun _ h => by cases h⟩
  toServer := False.elim
  unused _ := ⟨rfl, rfl⟩
  taken _ := List.prefix_rfl

/-! ### One step of it at a time -/

section Progress

variable {server : ServerPhase} {client : ClientPhase} {name : String}
  {hellos blocks rest : List MessageBlock} {block : MessageBlock}

theorem Progress.serverEnds (h : Progress codec userName server client name hellos blocks) :
    Progress codec userName .over client name hellos blocks := by
  cases h with
  | silent _ hclient => exact .silent (.inr (.inr rfl)) hclient
  | greeting _ hclient hlen => exact .greeting (.inr (.inr rfl)) hclient hlen
  | turnedAway hclient hlen => exact .turnedAway hclient hlen
  | denied => exact .denied
  | heard _ hclient => exact .heard (.inr rfl) hclient
  | answered _ hclient hlen => exact .answered (.inr rfl) hclient hlen
  | acknowledged _ => exact .acknowledged (.inr rfl)
  | begun _ hclient => exact .begun (.inr rfl) hclient

theorem Progress.attemptFails (h : Progress codec userName server client name hellos blocks)
    (hclient : client = .connecting ∨ client = .waiting) :
    Progress codec userName server (.decided .failed) name hellos blocks := by
  cases h with
  | silent hserver _ => exact .silent hserver (.inr rfl)
  | greeting hserver _ hlen => exact .greeting hserver (.inr rfl) hlen
  | turnedAway _ hlen => exact .turnedAway (.inr (.inr rfl)) hlen
  | denied => rcases hclient with h | h <;> cases h
  | heard hserver _ => exact .heard hserver (.inr rfl)
  | answered hserver _ hlen => exact .answered hserver (.inr rfl) hlen
  | acknowledged _ => rcases hclient with h | h <;> cases h
  | begun _ hbegun => rcases hclient with rfl | rfl <;> exact hbegun.elim

/-- Before the HELLO is heard nothing was sent but that. -/
theorem Progress.unaware (h : Progress codec userName server client name hellos blocks)
    (hserver : server = .accepted ∨ server = .waiting) :
    blocks = [] ∧ ¬ client.HasBegun ∧
      ((hellos = [] ∧ (client = .connecting ∨ client = .decided .failed)) ∨
        (hellos = [packMessages codec [createHello userName]] ∧
          Sendable codec [createHello userName] ∧
          (client = .waiting ∨ client = .decided .failed))) := by
  cases h with
  | silent _ hclient =>
      refine ⟨rfl, ?_, .inl ⟨rfl, hclient⟩⟩
      rcases hclient with rfl | rfl <;> exact id
  | greeting _ hclient hlen =>
      refine ⟨rfl, ?_, .inr ⟨rfl, hlen, hclient⟩⟩
      rcases hclient with rfl | rfl <;> exact id
  | turnedAway _ _ => rcases hserver with h | h <;> cases h
  | denied => rcases hserver with h | h <;> cases h
  | heard hlater _ => rcases hserver with rfl | rfl <;> rcases hlater with h | h <;> cases h
  | answered hlater _ _ => rcases hserver with rfl | rfl <;> rcases hlater with h | h <;> cases h
  | acknowledged hlater => rcases hserver with rfl | rfl <;> rcases hlater with h | h <;> cases h
  | begun hlater _ => rcases hserver with rfl | rfl <;> rcases hlater with h | h <;> cases h

theorem Progress.detach (h : Progress codec userName .accepted client name hellos blocks) :
    Progress codec userName .waiting client name hellos blocks := by
  obtain ⟨rfl, -, ⟨rfl, hclient⟩ | ⟨rfl, hlen, hclient⟩⟩ := h.unaware (.inl rfl)
  · exact .silent (.inr (.inl rfl)) hclient
  · exact .greeting (.inr (.inl rfl)) hclient hlen

theorem Progress.deny (h : Progress codec userName .accepted client name hellos blocks)
    (hlen : Sendable codec [tooManyNak]) :
    Progress codec userName .over client name hellos
      (blocks ++ [packMessages codec [tooManyNak]]) := by
  obtain ⟨rfl, -, ⟨rfl, hclient⟩ | ⟨rfl, -, hclient⟩⟩ := h.unaware (.inl rfl)
  · exact .turnedAway (hclient.imp_right .inr) hlen
  · exact .turnedAway (.inr hclient) hlen

/-- What the server reads while it waits is the HELLO. -/
theorem Progress.hear (hcodec : codec.Lossless) {found : Option String}
    (h : Progress codec userName .waiting client name (block :: rest) blocks)
    (hread : readHello codec block = .ok found) :
    found = some userName ∧ Progress codec userName .greeted client userName rest blocks := by
  obtain ⟨rfl, -, ⟨hnone, -⟩ | ⟨hsome, hlen, hclient⟩⟩ := h.unaware (.inr rfl)
  · cases hnone
  · obtain ⟨rfl, rfl⟩ := List.cons.inj hsome
    rw [readHello_hello hcodec hlen] at hread
    exact ⟨(Except.ok.inj hread).symm, .heard (.inl rfl) hclient⟩

theorem Progress.acknowledge (h : Progress codec userName .greeted client name hellos blocks)
    (hlen : Sendable codec [createAck]) :
    Progress codec userName .serving client name hellos
      (blocks ++ [packMessages codec [createAck]]) := by
  cases h with
  | silent hserver _ => rcases hserver with h | h | h <;> cases h
  | greeting hserver _ _ => rcases hserver with h | h | h <;> cases h
  | heard _ hclient => exact .answered (.inl rfl) hclient hlen
  | answered hserver _ _ => rcases hserver with h | h <;> cases h
  | acknowledged hserver => rcases hserver with h | h <;> cases h
  | begun hserver _ => rcases hserver with h | h <;> cases h

theorem Progress.hello (h : Progress codec userName server .connecting name hellos blocks)
    (hlen : Sendable codec [createHello userName]) :
    Progress codec userName server .waiting name
      (hellos ++ [packMessages codec [createHello userName]]) blocks := by
  cases h with
  | silent hserver _ => exact .greeting hserver (.inl rfl) hlen
  | greeting _ hclient _ => rcases hclient with h | h <;> cases h
  | turnedAway _ hlen => exact .turnedAway (.inr (.inl rfl)) hlen
  | heard _ hclient => rcases hclient with h | h <;> cases h
  | answered _ hclient _ => rcases hclient with h | h <;> cases h
  | begun _ hclient => exact hclient.elim

/-- What the client reads while it waits is an ACK or a NAK, alone in its block. -/
theorem Progress.await (hcodec : codec.Lossless) {found : Option Message}
    (h : Progress codec userName server .waiting name hellos (block :: rest))
    (hread : findWanted codec isAckOrNak (.ok (some block)) = .ok found) :
    ∃ acknak outcome, found = some acknak ∧ outcomeOf acknak = .ok outcome ∧
      Progress codec userName server (.decided outcome) name hellos rest ∧
      queued (contents codec block) = [] := by
  cases h with
  | turnedAway _ hlen =>
      rw [findWanted_nak hcodec hlen] at hread
      refine ⟨_, _, (Except.ok.inj hread).symm, outcomeOf_tooManyNak, .denied, ?_⟩
      rw [contents_packMessages hcodec hlen]
      rfl
  | answered hserver _ hlen =>
      rw [findWanted_ack hcodec hlen] at hread
      refine ⟨_, .acknowledged, (Except.ok.inj hread).symm, rfl, .acknowledged hserver, ?_⟩
      rw [contents_packMessages hcodec hlen]
      rfl
  | begun _ hclient => exact hclient.elim

/-- The session begins with nothing in flight to the server. -/
theorem Progress.begin
    (h : Progress codec userName server (.decided .acknowledged) name hellos blocks) :
    hellos = [] ∧ ∀ hellos', Progress codec userName server .inSession name hellos' blocks := by
  cases h with
  | silent _ hclient => rcases hclient with h | h <;> cases h
  | greeting _ hclient _ => rcases hclient with h | h <;> cases h
  | turnedAway hclient _ => rcases hclient with h | h | h <;> cases h
  | heard _ hclient => rcases hclient with h | h <;> cases h
  | answered _ hclient _ => rcases hclient with h | h <;> cases h
  | acknowledged hserver => exact ⟨rfl, fun hellos' => .begun hserver trivial⟩
  | begun _ hclient => exact hclient.elim

theorem Progress.sessionEnds (h : Progress codec userName server .inSession name hellos blocks) :
    Progress codec userName server .over name hellos blocks := by
  cases h with
  | silent _ hclient => rcases hclient with h | h <;> cases h
  | greeting _ hclient _ => rcases hclient with h | h <;> cases h
  | turnedAway hclient _ => rcases hclient with h | h | h <;> cases h
  | heard _ hclient => rcases hclient with h | h <;> cases h
  | answered _ hclient _ => rcases hclient with h | h <;> cases h
  | begun hserver _ => exact .begun hserver trivial

/-- In the loop of the server's worker. -/
theorem Progress.serving (h : Progress codec userName .serving client name hellos blocks) :
    (¬ client.HasBegun → hellos = []) ∧
      ∀ hellos' more, (hellos = [] → hellos' = []) →
        Progress codec userName .serving client name hellos' (blocks ++ more) := by
  cases h with
  | silent hserver _ => rcases hserver with h | h | h <;> cases h
  | greeting hserver _ _ => rcases hserver with h | h | h <;> cases h
  | heard hserver _ => rcases hserver with h | h <;> cases h
  | answered _ hclient hlen =>
      refine ⟨fun _ => rfl, fun hellos' more hnone => ?_⟩
      rw [hnone rfl]
      exact .answered (.inl rfl) hclient hlen
  | acknowledged _ =>
      refine ⟨fun _ => rfl, fun hellos' more hnone => ?_⟩
      rw [hnone rfl]
      exact .acknowledged (.inl rfl)
  | begun _ hclient =>
      exact ⟨fun hnot => absurd hclient hnot, fun _ _ _ => .begun (.inl rfl) hclient⟩

/-- In a session. -/
theorem Progress.inSession (h : Progress codec userName server client name hellos blocks)
    (hclient : client.HasBegun) (hellos' blocks' : List MessageBlock) :
    Progress codec userName server client name hellos' blocks' := by
  cases h with
  | silent _ hearly => rcases hearly with rfl | rfl <;> exact hclient.elim
  | greeting _ hearly _ => rcases hearly with rfl | rfl <;> exact hclient.elim
  | turnedAway hearly _ => rcases hearly with rfl | rfl | rfl <;> exact hclient.elim
  | denied => exact hclient.elim
  | heard _ hearly => rcases hearly with rfl | rfl <;> exact hclient.elim
  | answered _ hearly _ => rcases hearly with rfl | rfl <;> exact hclient.elim
  | acknowledged _ => exact hclient.elim
  | begun hserver _ => exact .begun hserver hclient

end Progress

/-! ## Every step keeps to it -/

variable {s s' : Channel} {e : ChannelEvent}

/-- Nothing is on its way from a client that has not begun. -/
theorem delivers_unused (hclient : t.endpoint .client = .start [] none [])
    (hserver : (t.endpoint .server).entered = []) (hwire : t.wire .client = []) :
    Delivers codec t .client := by
  refine ⟨?_, ?_, ?_, ?_, ?_⟩
  · rw [lane, onTheWay, hclient, hwire, Side.other, hserver]
    rfl
  · rw [hwire]
    exact fun _ h => by cases h
  · rw [hclient]
    exact fun _ => rfl
  · rw [hclient]
    rfl
  · rw [hclient]
    exact fun _ h => by cases h

/-- The session's first message is sent. -/
theorem delivers_begin (hcodec : codec.Lossless) (now : Int)
    (hlen : Sendable codec [createRoomListRequest]) (hserver : (t.endpoint .server).entered = [])
    (hwire : t.wire .client = []) :
    Delivers codec ((t.setEndpoint .client (.start [] (some (.heard now))
      [createRoomListRequest])).write codec .client [createRoomListRequest]) .client := by
  have hwire' : ((t.setEndpoint .client (.start [] (some (.heard now))
      [createRoomListRequest])).write codec .client [createRoomListRequest]).wire .client
        = [packMessages codec [createRoomListRequest]] := by
    show Function.update t.wire .client (t.wire .client ++ _) .client = _
    rw [Function.update_self, hwire]
    rfl
  refine ⟨?_, ?_, fun _ => rfl, rfl, fun _ h => by cases h⟩
  · rw [lane, onTheWay, hwire', List.flatMap_singleton, contents_packMessages hcodec hlen]
    show (t.endpoint .server).entered ++ _ = _
    rw [hserver]
    rfl
  · rw [hwire']
    intro block hblock
    rw [List.mem_singleton.mp hblock]
    exact ⟨_, rfl, hlen⟩

/-- While the client has not begun, its window has heard nothing. -/
theorem Channel.Sound.taken_client (h : s.Sound codec userName) (hnot : ¬ s.client.HasBegun) :
    s.taken .client = [] := by
  have hprefix := h.taken .client
  rw [(h.unused hnot).1] at hprefix
  exact List.prefix_nil.mp hprefix

/-- Both lanes, once the server's worker is in its loop. -/
theorem Channel.Sound.delivers (h : s.Sound codec userName) {side : Side}
    (hworking : s.Working side) : ∀ side, Delivers codec s.link side := by
  have hclient : Delivers codec s.link .client := by
    by_cases hbegun : s.client.HasBegun
    · exact h.toServer hbegun
    · obtain ⟨hunused, hentered⟩ := h.unused hbegun
      cases side with
      | client =>
          rw [show s.client = .inSession from hworking] at hbegun
          exact absurd trivial hbegun
      | server =>
          have hprogress := h.progress
          rw [show s.server = .serving from hworking] at hprogress
          exact delivers_unused hunused hentered (hprogress.serving.1 hbegun)
  intro side
  cases side with
  | server => exact h.toClient
  | client => exact hclient

/-- A step of a loop. -/
theorem Channel.Sound.work (hcodec : codec.Lossless) (h : s.Sound codec userName) {side : Side}
    {link : Link} (hworking : s.Working side) (hstep : Step codec s.link side link) :
    Channel.Sound codec userName { s with link } := by
  have hdelivers := delivers_step hcodec (h.delivers hworking) hstep
  have hframe := Step.frame hstep
  have htaken : ∀ side, s.taken side <+: (link.endpoint side).entered := by
    intro other
    by_cases hother : other = side
    · subst hother
      exact (h.taken other).trans hframe.entered
    · obtain rfl : other = side.other := by
        cases other <;> cases side <;> first | rfl | exact absurd rfl hother
      rw [hframe.other]
      exact h.taken side.other
  obtain ⟨more, hmore⟩ := hframe.written
  cases side with
  | server =>
      have hprogress := h.progress
      rw [show s.server = .serving from hworking] at hprogress
      obtain ⟨hsilent, hserving⟩ := hprogress.serving
      have hkept : s.link.wire .client = [] → link.wire .client = [] ∧
          (link.endpoint .server).entered = (s.link.endpoint .server).entered := by
        intro hnone
        rcases hframe.read with ⟨hsame, hentered⟩ | ⟨block, hblock⟩
        · exact ⟨hsame.trans hnone, hentered⟩
        · rw [show Side.server.other = .client from rfl, hnone] at hblock
          cases hblock
      refine ⟨?_, hdelivers .server, fun _ => hdelivers .client, fun hnot => ?_, htaken⟩
      · show Progress codec userName s.server _ _ _ (link.wire .server)
        rw [show s.server = .serving from hworking, hmore]
        exact hserving _ more fun hnone => (hkept hnone).1
      · obtain ⟨hunused, hentered⟩ := h.unused hnot
        exact ⟨hframe.other.trans hunused, (hkept (hsilent hnot)).2.trans hentered⟩
  | client =>
      have hbegun : s.client.HasBegun := by
        rw [show s.client = .inSession from hworking]
        trivial
      exact ⟨h.progress.inSession hbegun _ _, hdelivers .server, fun _ => hdelivers .client,
        fun hnot => absurd hbegun hnot, htaken⟩

theorem endpoint_push_self {messages : List Message} :
    (s.push side messages).link.endpoint side = (s.link.endpoint side).pushAll messages :=
  Function.update_self ..

theorem endpoint_push_of_ne {other : Side} {messages : List Message} (h : other ≠ side) :
    (s.push side messages).link.endpoint other = s.link.endpoint other :=
  Function.update_of_ne h ..

/-- Pushes. -/
theorem Channel.Sound.push (h : s.Sound codec userName) {side : Side} (messages : List Message)
    (hwindow : side = .client → s.client.HasBegun) :
    (s.push side messages).Sound codec userName := by
  have hentered : ∀ other,
      ((s.push side messages).link.endpoint other).entered = (s.link.endpoint other).entered := by
    intro other
    by_cases hother : other = side
    · subst hother
      rw [endpoint_push_self]
      rfl
    · rw [endpoint_push_of_ne hother]
  have hidle : (s.link.endpoint side).phase = .receiving → (s.link.endpoint side).batch = [] := by
    cases side with
    | server => exact h.toClient.idle
    | client => exact (h.toServer (hwindow rfl)).idle
  refine ⟨h.progress, h.toClient.setEndpoint (localStep_pushAll hidle messages),
    fun hbegun => (h.toServer hbegun).setEndpoint (localStep_pushAll hidle messages),
    fun hnot => ?_, fun other => by rw [hentered]; exact h.taken other⟩
  obtain ⟨hunused, hnone⟩ := h.unused hnot
  refine ⟨?_, (hentered .server).trans hnone⟩
  have hside : Side.client ≠ side := by
    rintro rfl
    exact hnot (hwindow rfl)
  exact (endpoint_push_of_ne hside).trans hunused

theorem prefix_of_messagesIn {side : Side} (h : s.taken side <+: (s.link.endpoint side).entered) :
    (s.link.endpoint side).entered = s.taken side ++ s.messagesIn side := by
  obtain ⟨rest, hrest⟩ := h
  rw [Channel.messagesIn, ← hrest, List.drop_left]

/-- A pop from `messages_in`. -/
theorem Channel.Sound.take (h : s.Sound codec userName) {side : Side} {message : Message}
    {rest : List Message} (hqueue : s.messagesIn side = message :: rest) :
    (s.take side message).Sound codec userName := by
  refine { h with taken := fun other => ?_ }
  show Function.update s.taken side (s.taken side ++ [message]) other <+:
    (s.link.endpoint other).entered
  by_cases hother : other = side
  · subst hother
    rw [Function.update_self, prefix_of_messagesIn (h.taken other), hqueue]
    exact (List.prefix_append_right_inj _).mpr ⟨rest, rfl⟩
  · rw [Function.update_of_ne hother]
    exact h.taken other

theorem channel_step (hcodec : codec.Lossless) (h : s.Sound codec userName)
    (hstep : ChannelStep codec userName s e s') : s'.Sound codec userName := by
  cases hstep with
  | detach hserver =>
      have hprogress := h.progress
      rw [hserver] at hprogress
      exact { h with progress := hprogress.detach }
  | deny hserver hlen =>
      have hprogress := h.progress
      rw [hserver] at hprogress
      refine { h with
        progress := ?_
        toClient := h.toClient.write hcodec hlen fun _ => rfl
        toServer := fun hbegun => (h.toServer hbegun).write hcodec hlen fun _ => rfl }
      exact hprogress.deny hlen
  | @hear block rest found hserver hwire hread =>
      have hprogress := h.progress
      rw [hserver, hwire] at hprogress
      have hnot := (hprogress.unaware (.inr rfl)).2.1
      obtain ⟨rfl, hheard⟩ := hprogress.hear hcodec hread
      refine { h with
        progress := ?_
        toClient := h.toClient.read hwire fun hside => by cases hside
        toServer := fun hbegun => absurd hbegun hnot }
      show Progress codec userName .greeted s.client userName
        (Function.update s.link.wire .client rest .client)
        (Function.update s.link.wire .client rest .server)
      rw [Function.update_self, Function.update_of_ne (by decide)]
      exact hheard
  | acknowledge hserver hlen =>
      have hprogress := h.progress
      rw [hserver] at hprogress
      refine { h with
        progress := ?_
        toClient := h.toClient.write hcodec hlen fun _ => rfl
        toServer := fun hbegun => (h.toServer hbegun).write hcodec hlen fun _ => rfl }
      exact hprogress.acknowledge hlen
  | serverEnds => exact { h with progress := h.progress.serverEnds }
  | hello hclient hlen =>
      have hprogress := h.progress
      rw [hclient] at hprogress
      have hnot : ¬ s.client.HasBegun := by
        rw [hclient]
        exact id
      refine { h with
        progress := ?_
        toClient := h.toClient.write hcodec hlen fun hside => by cases hside
        toServer := False.elim
        unused := fun _ => h.unused hnot }
      exact hprogress.hello hlen
  | awaitMore hclient hwire hread =>
      have hprogress := h.progress
      rw [hclient, hwire] at hprogress
      obtain ⟨acknak, outcome, hfound, -⟩ := hprogress.await hcodec hread
      cases hfound
  | @await block rest acknak outcome hclient hwire hread houtcome =>
      have hprogress := h.progress
      rw [hclient, hwire] at hprogress
      obtain ⟨acknak', outcome', hfound, houtcome', hdecided, hqueued⟩ :=
        hprogress.await hcodec hread
      obtain rfl := Option.some.inj hfound
      obtain rfl := Except.ok.inj (houtcome.symm.trans houtcome')
      have hnot : ¬ s.client.HasBegun := by
        rw [hclient]
        exact id
      refine { h with
        progress := ?_
        toClient := h.toClient.read hwire fun _ => hqueued
        toServer := False.elim
        unused := fun _ => h.unused hnot }
      show Progress codec userName s.server (.decided outcome) s.connectedUserName
        (Function.update s.link.wire .server rest .client)
        (Function.update s.link.wire .server rest .server)
      rw [Function.update_self, Function.update_of_ne (by decide)]
      exact hdecided
  | attemptFails hclient =>
      have hnot : ¬ s.client.HasBegun := by
        rcases hclient with hclient | hclient <;> rw [hclient] <;> exact id
      exact { h with
        progress := h.progress.attemptFails hclient
        toServer := False.elim
        unused := fun _ => h.unused hnot }
  | begin now hclient hlen =>
      have hprogress := h.progress
      rw [hclient] at hprogress
      have hnot : ¬ s.client.HasBegun := by
        rw [hclient]
        exact id
      obtain ⟨hunused, hentered⟩ := h.unused hnot
      obtain ⟨hwire, hbegun⟩ := hprogress.begin
      refine ⟨hbegun _, ?_, fun _ => delivers_begin hcodec now hlen hentered hwire,
        fun hnot' => absurd trivial hnot', fun side => ?_⟩
      · refine Delivers.write hcodec ?_ hlen fun hside => by cases hside
        refine ⟨?_, h.toClient.packed, h.toClient.idle, h.toClient.answered, h.toClient.entered⟩
        have hbefore := h.toClient.conserved
        rw [lane, show Side.server.other = .client from rfl, hunused] at hbefore
        exact hbefore
      · cases side with
        | server => exact h.taken .server
        | client =>
            rw [h.taken_client hnot]
            exact List.nil_prefix
  | sessionEnds hclient =>
      have hprogress := h.progress
      rw [hclient] at hprogress
      have hbegun : s.client.HasBegun := by
        rw [hclient]
        trivial
      exact { h with
        progress := hprogress.sessionEnds
        toServer := fun _ => h.toServer hbegun
        unused := fun hnot => absurd trivial hnot }
  | work hworking hstep hown => exact h.work hcodec hworking hstep
  | push side messages hwindow => exact h.push messages hwindow
  | take hqueue => exact h.take hqueue

theorem channel_sound (hcodec : codec.Lossless) {allowed : Channel → ChannelEvent → Prop}
    (h : (channel codec userName).Reachable allowed s) : s.Sound codec userName := by
  refine h.invariant ?_ ?_
  · rintro s rfl
    exact Channel.sound_start
  · intro s e s' _ ih _ hstep
    exact channel_step hcodec ih hstep

/-! ## What the two sides can rely on -/

/-- The client was acknowledged. -/
def ClientPhase.Established (client : ClientPhase) : Prop :=
  client = .decided .acknowledged ∨ client.HasBegun

theorem Progress.established {server : ServerPhase} {client : ClientPhase} {name : String}
    {hellos blocks : List MessageBlock}
    (h : Progress codec userName server client name hellos blocks) (hclient : client.Established) :
    name = userName ∧ (server = .serving ∨ server = .over) := by
  cases h with
  | silent _ hearly => rcases hearly with rfl | rfl <;> rcases hclient with h | h <;> cases h
  | greeting _ hearly _ => rcases hearly with rfl | rfl <;> rcases hclient with h | h <;> cases h
  | turnedAway hearly _ =>
      rcases hearly with rfl | rfl | rfl <;> rcases hclient with h | h <;> cases h
  | denied => rcases hclient with h | h <;> cases h
  | heard _ hearly => rcases hearly with rfl | rfl <;> rcases hclient with h | h <;> cases h
  | answered _ hearly _ => rcases hearly with rfl | rfl <;> rcases hclient with h | h <;> cases h
  | acknowledged hserver => exact ⟨rfl, hserver⟩
  | begun hserver _ => exact ⟨rfl, hserver⟩

theorem Progress.denied_iff {server : ServerPhase} {name error : String}
    {hellos blocks : List MessageBlock}
    (h : Progress codec userName server (.decided (.denied error)) name hellos blocks) :
    error = "Too many connections." ∧ server = .over := by
  cases h with
  | silent _ hclient => rcases hclient with h | h <;> cases h
  | greeting _ hclient _ => rcases hclient with h | h <;> cases h
  | turnedAway hclient _ => rcases hclient with h | h | h <;> cases h
  | denied => exact ⟨rfl, rfl⟩
  | heard _ hclient => rcases hclient with h | h <;> cases h
  | answered _ hclient _ => rcases hclient with h | h <;> cases h
  | begun _ hclient => exact hclient.elim

theorem Channel.Sound.conserved (h : s.Sound codec userName) {side : Side}
    (hdelivers : Delivers codec s.link side) :
    s.taken side.other ++ s.messagesIn side.other ++ queued (onTheWay codec s.link side)
      = queued (s.link.endpoint side).pushed := by
  rw [← prefix_of_messagesIn (h.taken side.other)]
  exact hdelivers.conserved

/-- **The handshake.**  Who was acknowledged is known to the server by his name, and his
worker was in its loop; who was denied was told the reason, and has no worker; nothing has
entered the server's `messages_in` from a client it does not know.  And from the first
push on either side, whatever was pushed is taken, in `messages_in` or on its way, in order:
the waits drop the greetings and nothing else. -/
theorem handshake (hcodec : codec.Lossless)
    (h : (channel codec userName).Reachable LabelledSystem.anyStep s) :
    (s.client.Established →
      s.connectedUserName = userName ∧ (s.server = .serving ∨ s.server = .over)) ∧
    (∀ error, s.client = .decided (.denied error) →
      error = "Too many connections." ∧ s.server = .over) ∧
    ((s.link.endpoint .server).entered ≠ [] → s.connectedUserName = userName) ∧
    (s.taken .client ++ s.messagesIn .client ++ queued (onTheWay codec s.link .server)
      = queued (s.link.endpoint .server).pushed) ∧
    (s.client.HasBegun →
      s.taken .server ++ s.messagesIn .server ++ queued (onTheWay codec s.link .client)
        = queued (s.link.endpoint .client).pushed) := by
  have hsound := channel_sound hcodec h
  refine ⟨hsound.progress.established, fun error herror => ?_, fun hentered => ?_,
    hsound.conserved hsound.toClient, fun hbegun => hsound.conserved (hsound.toServer hbegun)⟩
  · have hprogress := hsound.progress
    rw [herror] at hprogress
    exact hprogress.denied_iff
  · have hbegun : s.client.HasBegun := by
      by_contra hnot
      exact hentered (hsound.unused hnot).2
    exact (hsound.progress.established (.inr hbegun)).1

/-- The bytes of an array with an ACK. -/
def ackBytes : Bytes :=
  [0x91, 0x82, 0xac, 0x6d, 0x65, 0x73, 0x73, 0x61, 0x67, 0x65, 0x5f,
    0x74, 0x79, 0x70, 0x65, 0xcd, 0x10, 0x00, 0xa6, 0x76, 0x61, 0x6c, 0x75, 0x65, 0x73, 0xc0]

/-- The bytes of an array with a CHAT_SEND and a ROOM_HISTORY. -/
def chatBytes : Bytes :=
  [0x92, 0x82, 0xac, 0x6d, 0x65, 0x73, 0x73, 0x61, 0x67, 0x65, 0x5f, 0x74, 0x79, 0x70, 0x65, 0xcd,
    0x40, 0x00, 0xa6, 0x76, 0x61, 0x6c, 0x75, 0x65, 0x73, 0x82, 0xa9, 0x72, 0x6f, 0x6f, 0x6d, 0x5f,
    0x6e, 0x61, 0x6d, 0x65, 0xa3, 0x69, 0x6e, 0x6e, 0xa4, 0x74, 0x65, 0x78, 0x74, 0xa2, 0x68, 0x69,
    0x82, 0xac, 0x6d, 0x65, 0x73, 0x73, 0x61, 0x67, 0x65, 0x5f, 0x74, 0x79, 0x70, 0x65, 0xcd, 0x30,
    0x04, 0xa6, 0x76, 0x61, 0x6c, 0x75, 0x65, 0x73, 0x82, 0xab, 0x65, 0x76, 0x65, 0x6e, 0x74, 0x5f,
    0x63, 0x6f, 0x75, 0x6e, 0x74, 0x64, 0xa9, 0x72, 0x6f, 0x6f, 0x6d, 0x5f, 0x6e, 0x61, 0x6d, 0x65,
    0xa3, 0x69, 0x6e, 0x6e]

/-- ann says something, and asks what was said. -/
def chatting : List Message := [createChatSend "inn" "hi", historyRequest "inn"]

/-- What ann and the server send each other. -/
def conversation : List (List Message × Bytes) :=
  [([createHello "ann"], helloBytes), ([createAck], ackBytes),
    ([createRoomListRequest], roomListBytes), (chatting, chatBytes)]

noncomputable def annsCodec : MsgPack := tabledCodec (messageTable conversation)

theorem tabled_conversation : Tabled (messageTable conversation) :=
  tabled_messageTable (by decide) (by decide) (by decide)

theorem annsCodec_lossless : annsCodec.Lossless := tabledCodec_lossless tabled_conversation

theorem sendable_hello : Sendable annsCodec [createHello "ann"] :=
  length_packBlock_messageTable tabled_conversation List.mem_cons_self (by decide)

theorem sendable_ack : Sendable annsCodec [createAck] :=
  length_packBlock_messageTable tabled_conversation (.tail _ (.head _)) (by decide)

theorem sendable_roomList : Sendable annsCodec [createRoomListRequest] :=
  length_packBlock_messageTable tabled_conversation (.tail _ (.tail _ (.head _))) (by decide)

theorem sendable_chatting : Sendable annsCodec chatting :=
  length_packBlock_messageTable tabled_conversation (.tail _ (.tail _ (.tail _ (.head _))))
    (by decide)

/-- ann comes in.  A room is announced to her before the server has heard her name, and the
announcement is still there when her session begins. -/
theorem handshake_ann : ∃ s, (channel annsCodec "ann").Reachable LabelledSystem.anyStep s ∧
    s.client = .inSession ∧ s.connectedUserName = "ann" ∧
    s.taken .client ++ s.messagesIn .client ++ queued (onTheWay annsCodec s.link .server)
      = [createRoomCreate "inn"] := by
  have hstart : (channel annsCodec "ann").Reachable LabelledSystem.anyStep .start := .init rfl
  have hpushed := hstart.step _ trivial (.push .server [createRoomCreate "inn"] fun h => by cases h)
  have hdetached := hpushed.step _ trivial (.detach rfl)
  have hgreeted := hdetached.step _ trivial (.hello rfl sendable_hello)
  have hheard := hgreeted.step _ trivial
    (.hear rfl rfl (readHello_hello annsCodec_lossless sendable_hello))
  have hacked := hheard.step _ trivial (.acknowledge rfl sendable_ack)
  have hdecided := hacked.step _ trivial
    (.await rfl rfl (findWanted_ack annsCodec_lossless sendable_ack) rfl)
  have hbegun := hdecided.step _ trivial (.begin 0 rfl sendable_roomList)
  obtain ⟨hestablished, -, -, htoClient, -⟩ := handshake annsCodec_lossless hbegun
  exact ⟨_, hbegun, rfl, (hestablished (.inr trivial)).1, htoClient⟩

end Tavernmx.Session
