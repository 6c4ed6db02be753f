/-
# `Tavernmx.Server.Pushing` — the worker does not look into its queues

Step 1 pushes its replies into `messages_out` and never reads what is there, so a message
is handled in the same way whatever waits in the queues, and the replies are the same
(`onlyPushes_handleMessage`).  The same goes for the end of a tick, by `finishTick_messagesOut`.
-/
import Tavernmx.Server.FinishTick

namespace Tavernmx.Server

open Messaging Rooms

variable {client : ConnId}

/-- What a handler does, other than pushing replies to its client, does not depend on the queues. -/
def OnlyPushes (client : ConnId) (handle : Worker → Exec Worker) : Prop :=
  ∀ ⦃w w'⦄, handle w = .ok w' → ∃ replies,
    w'.messagesOut = Mailbox.push w.messagesOut client replies ∧
    ∀ messagesOut, handle { w with messagesOut }
      = .ok { w' with messagesOut := Mailbox.push messagesOut client replies }

theorem OnlyPushes.bind {X : Type} {read : Exec X} {handle : X → Worker → Exec Worker}
    (h : ∀ x, OnlyPushes client (handle x)) :
    OnlyPushes client fun w => read >>= fun x => handle x w := by
  intro w w' hok
  obtain ⟨x, hread, hok⟩ := Fallible.bind_ok.mp hok
  obtain ⟨replies, hout, hall⟩ := h x hok
  refine ⟨replies, hout, fun messagesOut => ?_⟩
  rw [hread]
  exact hall messagesOut

/-- A handler that leaves the queues alone. -/
theorem OnlyPushes.silent {change : Worker → Worker}
    (hout : ∀ w, (change w).messagesOut = w.messagesOut)
    (hall : ∀ w messagesOut, change { w with messagesOut } = { change w with messagesOut }) :
    OnlyPushes client fun w => pure (change w) := by
  intro w w' hok
  obtain rfl : change w = w' := Except.ok.inj hok
  refine ⟨[], by rw [hout, Mailbox.push_nil], fun messagesOut => ?_⟩
  rw [Mailbox.push_nil]
  exact congrArg Except.ok (hall w messagesOut)

theorem OnlyPushes.ignore : OnlyPushes client fun w => pure w :=
  .silent (fun _ => rfl) fun _ _ => rfl

/-- A handler that looks something up, but not in the queues. -/
theorem OnlyPushes.of_lookup {X : Type} (lookup : Worker → X) {handle : Worker → Exec Worker}
    (hlookup : ∀ w messagesOut, lookup { w with messagesOut } = lookup w)
    (hfound : ∀ found, ∃ branch, OnlyPushes client branch ∧
      ∀ w, lookup w = found → handle w = branch w) : OnlyPushes client handle := by
  intro w w' hok
  obtain ⟨branch, hbranch, heq⟩ := hfound (lookup w)
  rw [heq w rfl] at hok
  obtain ⟨replies, hout, hall⟩ := hbranch hok
  refine ⟨replies, hout, fun messagesOut => ?_⟩
  rw [heq _ (hlookup w messagesOut)]
  exact hall messagesOut

/-- The handlers begin by looking for the room that the message names. -/
theorem OnlyPushes.of_room (roomName : String) {handle : Worker → Exec Worker}
    {onRoom : ServerRoom → Worker → Exec Worker} (hroom : ∀ room, OnlyPushes client (onRoom room))
    (hsome : ∀ w room, w.rooms.find? roomName = some room → handle w = onRoom room w)
    (hnone : ∀ w, w.rooms.find? roomName = none → handle w = pure w) :
    OnlyPushes client handle := by
  refine .of_lookup (fun w => w.rooms.find? roomName) (fun _ _ => rfl) fun found => ?_
  cases found with
  | none => exact ⟨_, .ignore, hnone⟩
  | some room => exact ⟨_, hroom room, fun w => hsome w room⟩

theorem onlyPushes_handleMessage (userName : ConnId → String) (m : Incoming) :
    OnlyPushes m.client fun w => w.handleMessage userName m := by
  unfold Worker.handleMessage
  split
  case h_1 =>
    intro w w' hok
    cases hok
    exact ⟨_, rfl, fun _ => rfl⟩
  case h_2 =>
    refine .bind fun roomName => ?_
    by_cases hname : roomName = ""
    · simp only [if_pos hname]
      exact .ignore
    · simp only [if_neg hname]
      refine .of_lookup (fun w => w.rooms.createRoom roomName) (fun _ _ => rfl) fun found => ?_
      cases found with
      | none => exact ⟨_, .ignore, fun w hfound => by simp only [hfound]⟩
      | some rooms =>
          refine ⟨_, ?_, fun w hfound => by simp only [hfound]; rfl⟩
          exact .silent (fun _ => rfl) fun _ _ => rfl
  case h_3 =>
    refine .bind fun roomName => .of_room roomName (fun room => ?_)
      (fun w room hroom => by simp only [hroom]; rfl) fun w hroom => by simp only [hroom]
    exact .silent (fun _ => rfl) fun _ _ => rfl
  case h_4 =>
    refine .bind fun roomName => .of_room roomName (fun room => ?_)
      (fun w room hroom => by simp only [hroom]; rfl) fun w hroom => by simp only [hroom]
    exact .silent (fun _ => rfl) fun _ _ => rfl
  case h_5 =>
    refine .bind fun roomName => .bind fun eventCount => .of_room roomName (fun room => ?_)
      (fun w room hroom => by simp only [hroom]; rfl) fun w hroom => by simp only [hroom]
    by_cases hrange : 0 ≤ eventCount ∧ eventCount ≤ roomHistoryMaxEntries
    · simp only [if_pos hrange]
      refine .of_lookup (fun w => getRoomHistory w.roomHistory room.roomName
        eventCount.toInt.toNat) (fun _ _ => rfl) fun found => ?_
      cases found with
      | error fault =>
          refine ⟨fun _ => .error fault, ?_, fun w hfound => by rw [hfound]; rfl⟩
          intro w w' hok
          cases hok
      | ok reply =>
          refine ⟨fun w => pure { w with
            messagesOut := Mailbox.push w.messagesOut m.client [reply] }, ?_, fun w hfound => ?_⟩
          · intro w w' hok
            cases hok
            exact ⟨_, rfl, fun _ => rfl⟩
          · rw [hfound]
            rfl
    · simp only [if_neg hrange]
      exact .ignore
  case h_6 =>
    refine .bind fun roomName => .of_room roomName (fun room => ?_)
      (fun w room hroom => by simp only [hroom]; rfl) fun w hroom => by simp only [hroom]
    refine .bind fun text => ?_
    exact .silent (fun _ => rfl) fun _ _ => rfl
  case h_7 => exact .ignore

/-- The name that counts is the sender's. -/
theorem handleMessage_congr {userName names : ConnId → String} {w : Worker} {m : Incoming}
    (h : names m.client = userName m.client) :
    w.handleMessage names m = w.handleMessage userName m := by
  unfold Worker.handleMessage
  rw [h]

/-- The end of a tick, with other queues. -/
theorem finishTick_withMessages {w : Worker} {lives : Lives} (h : Tracks w lives)
    {clients : List ConnId} (hclients : clients.Nodup) (expired : ConnId → Bool)
    (messagesOut : ConnId → List Message) :
    Worker.finishTick clients expired { w with messagesOut } =
      { w.finishTick clients expired with
        messagesOut := fun c => messagesOut c ++ (notices w clients c ++
          w.rooms.roomNames.flatMap (echoes lives expired c)) } := by
  have htracks : Tracks { w with messagesOut } lives :=
    ⟨h.wf, fun r => (h.named r).of_same ⟨rfl, rfl, Iff.rfl, Iff.rfl⟩⟩
  have hout : (Worker.finishTick clients expired { w with messagesOut }).messagesOut
      = fun c => messagesOut c ++ (notices w clients c ++
          w.rooms.roomNames.flatMap (echoes lives expired c)) :=
    funext fun c => finishTick_messagesOut htracks hclients expired c
  rw [← hout]
  rfl

end Tavernmx.Server
