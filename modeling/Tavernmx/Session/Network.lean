/-
# `Tavernmx.Session.Network` — the server, its clients and what is between them

`Session.Tavern` has one queue for the whole way from the server to a window and one
for the way back.  Here the way has its parts: for every client there is a
`Channel`, with its handshake, the loops of the two workers, their queues and the
blocks in flight.  The server's worker pushes into and pops from the queues on its
side, the window from those on the other.

    server_worker ─▸ messages_out ─▸ client_worker ══ server_message_worker ─▸ messages_in ─▸ window
                  ◂─ messages_in  ◂─                                        ◂─ messages_out ◂─

The two systems have the same steps, and the network has those of its channels.  A
channel's step is no step of the tavern; the others are matched one by one
(`network_refines`), so what holds in every state of the tavern can be used of the
network: the same rooms, the same windows, and between them the same messages, in the
same order.  The names of the senders are what each HELLO said.
-/
import Tavernmx.Session.Handshake
import Tavernmx.Session.Tavern

namespace Tavernmx.Session

open Messaging Rooms Server Client

/-! ## States and steps -/

structure Network where
  /-- The server's worker; its queues are those of the channels. -/
  core : Worker
  stage : Stage
  active : List ConnId
  expired : ConnId → Bool
  next : ConnId
  chat : ConnId → ChatWindow
  channel : ConnId → Channel

namespace Network

def start (initialRooms : List String) : Network where
  core := .start initialRooms
  stage := .idle
  active := []
  expired _ := false
  next := 0
  chat _ := ⟨.new, .new⟩
  channel _ := .start

/-- The server's worker with the queues it pushes to. -/
def worker (n : Network) : Worker :=
  { n.core with messagesOut := fun c => ((n.channel c).link.endpoint .server).messagesOut }

/-- `connected_user_name` of each connection. -/
def names (n : Network) (c : ConnId) : String := (n.channel c).connectedUserName

/-- The server's worker goes on, and what it pushed is in the queues. -/
def deliver (w : Worker) (n : Network) : Network :=
  { n with
    core := w
    channel := fun c => (n.channel c).push .server
      ((w.messagesOut c).drop ((n.channel c).link.endpoint .server).messagesOut.length) }

/-- The window of a client goes on, and what it pushed is in its queue. -/
def setWindow (c : ConnId) (chat : ChatWindow) (pushed : List Message) (n : Network) : Network :=
  { n with
    chat := Function.update n.chat c chat
    channel := Function.update n.channel c ((n.channel c).push .client pushed) }

/-- A message is popped on one side of a channel. -/
def take (c : ConnId) (side : Side) (message : Message) (n : Network) : Network :=
  { n with channel := Function.update n.channel c ((n.channel c).take side message) }

end Network

/-- The events of a channel that belong to neither the server's worker nor the window. -/
def ChannelEvent.IsOwn : ChannelEvent → Prop
  | .push _ _ | .take _ => False
  | _ => True

inductive NetworkAction where
  | connect (clientRooms : RoomManager ClientRoom)
  | drop (c : ConnId)
  | expire (c : ConnId)
  /-- The handshake, a worker's loop, or the end of one of them. -/
  | transport (c : ConnId) (e : ChannelEvent)
  | request (c : ConnId) (message : Message)
  | handle (c : ConnId)
  | pick (c : ConnId) (index : Nat)
  | beginTick
  | serve (now : Int64)
  | nextClient
  | finishTick

inductive NetworkStep (codec : MsgPack) (userName : ConnId → String) :
    Network → NetworkAction → Network → Prop where
  | connect {n : Network} (clientRooms : RoomManager ClientRoom) (hrooms : clientRooms.WF)
      (hunmarked : ∀ r room, clientRooms.find? r = some room → isDestroyRequested room = false) :
      NetworkStep codec userName n (.connect clientRooms) { n with
        active := n.active ++ [n.next]
        next := n.next + 1
        chat := Function.update n.chat n.next ⟨clientRooms, .new⟩
        channel := Function.update n.channel n.next .start }
  | drop {n : Network} (c : ConnId) :
      NetworkStep codec userName n (.drop c) { n with active := n.active.erase c }
  | expire {n : Network} (c : ConnId) (hknown : c < n.next) (hactive : c ∉ n.active)
      (hclients : c ∉ n.stage.clients) :
      NetworkStep codec userName n (.expire c)
        { n with expired := Function.update n.expired c true }
  | transport {n : Network} (c : ConnId) {e : ChannelEvent} {channel : Channel}
      (hknown : c < n.next) (hown : e.IsOwn)
      (hstep : ChannelStep codec (userName c) (n.channel c) e channel) :
      NetworkStep codec userName n (.transport c e)
        { n with channel := Function.update n.channel c channel }
  | request {n : Network} (c : ConnId) (message : Message)
      (hwindow : (n.channel c).client.HasBegun) :
      NetworkStep codec userName n (.request c message) (n.setWindow c (n.chat c) [message])
  | handle {n : Network} (c : ConnId) {message : Message} {rest : List Message}
      {chat : ChatWindow} {pushed : List Message}
      (hqueue : (n.channel c).messagesIn .client = message :: rest)
      (hok : (n.chat c).handleMessage message = .ok (chat, pushed)) :
      NetworkStep codec userName n (.handle c) ((n.take c .client message).setWindow c chat pushed)
  | pick {n : Network} (c : ConnId) (index : Nat) {chat : ChatWindow} {pushed : List Message}
      (hwindow : (n.channel c).client.HasBegun)
      (hok : (n.chat c).changeRoom index = .ok (chat, pushed)) :
      NetworkStep codec userName n (.pick c index) (n.setWindow c chat pushed)
  | beginTick {n : Network} (hidle : n.stage = .idle) :
      NetworkStep codec userName n .beginTick { n with stage := .gathering n.active n.active }
  | serve {n : Network} (now : Int64) {clients waiting : List ConnId} {c : ConnId}
      {message : Message} {rest : List Message} {worker : Worker}
      (hstage : n.stage = .gathering clients (c :: waiting))
      (hqueue : (n.channel c).messagesIn .server = message :: rest)
      (hok : n.worker.handleMessage n.names ⟨c, message, now⟩ = .ok worker) :
      NetworkStep codec userName n (.serve now) ((n.take c .server message).deliver worker)
  | nextClient {n : Network} {clients waiting : List ConnId} {c : ConnId}
      (hstage : n.stage = .gathering clients (c :: waiting))
      (hempty : (n.channel c).messagesIn .server = []) :
      NetworkStep codec userName n .nextClient { n with stage := .gathering clients waiting }
  | finishTick {n : Network} {clients : List ConnId} (hstage : n.stage = .gathering clients []) :
      NetworkStep codec userName n .finishTick
        { n.deliver (n.worker.finishTick clients n.expired) with stage := .idle }

/-- The server and its clients; `userName` is what each client says in its HELLO. -/
def network (codec : MsgPack) (userName : ConnId → String) (initialRooms : List String) :
    LabelledSystem Network NetworkAction where
  init n := n = Network.start initialRooms
  step := NetworkStep codec userName

end Tavernmx.Session
