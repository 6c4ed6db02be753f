/-
# `Tavernmx.Session.Execution` — the steps of the system as a function

An action leaves nothing open but what it carries, so the system can be run.
`exec` is its step function, for clients that come without rooms of an earlier
session, and `run` executes a list of actions, each of which has to be allowed.
What `run` computes is reachable (`reachable_of_run`).
-/
import Tavernmx.Session.Tavern

namespace Tavernmx.Session

open Messaging Rooms Server Client

/-- One action, if it is possible. -/
def exec (userName : ConnId → String) (s : Tavern) : Action → Option Tavern
  | .connect clientRooms =>
      if clientRooms.activeRooms.isEmpty && clientRooms.roomNames.isEmpty then some { s with
        active := s.active ++ [s.next]
        next := s.next + 1
        chat := Function.update s.chat s.next ⟨clientRooms, .new⟩
        toServer := Function.update s.toServer s.next [createRoomListRequest] }
      else none
  | .drop c => some { s with active := s.active.erase c }
  | .expire c =>
      if c < s.next ∧ c ∉ s.active ∧ c ∉ s.stage.clients then
        some { s with expired := Function.update s.expired c true }
      else none
  | .request c message => some { s with toServer := Mailbox.push s.toServer c [message] }
  | .handle c =>
      match s.worker.messagesOut c with
      | message :: rest =>
        match (s.chat c).handleMessage message with
        | .ok (chat, pushed) => some { s with
            worker := { s.worker with messagesOut := Function.update s.worker.messagesOut c rest }
            chat := Function.update s.chat c chat
            toServer := Mailbox.push s.toServer c pushed
            handled := Mailbox.push s.handled c [message] }
        | .error _ => none
      | [] => none
  | .pick c index =>
      match (s.chat c).changeRoom index with
      | .ok (chat, pushed) => some { s with
          chat := Function.update s.chat c chat
          toServer := Mailbox.push s.toServer c pushed }
      | .error _ => none
  | .beginTick =>
      match s.stage with
      | .idle => some { s with stage := .gathering s.active s.active }
      | .gathering _ _ => none
  | .serve now =>
      match s.stage with
      | .gathering _ (c :: _) =>
        match s.toServer c with
        | message :: rest =>
          match s.worker.handleMessage userName ⟨c, message, now⟩ with
          | .ok worker => some { s with
              worker
              lives := s.lives.receive userName ⟨c, message, now⟩
              toServer := Function.update s.toServer c rest }
          | .error _ => none
        | [] => none
      | .gathering _ [] | .idle => none
  | .nextClient =>
      match s.stage with
      | .gathering clients (_ :: waiting) => some { s with stage := .gathering clients waiting }
      | .gathering _ [] | .idle => none
  | .finishTick =>
      match s.stage with
      | .gathering clients [] => some { s with
          worker := s.worker.finishTick clients s.expired
          lives := s.lives.endTick s.expired
          stage := .idle }
      | .gathering _ (_ :: _) | .idle => none

variable {userName : ConnId → String} {s s' : Tavern} {a : Action}

theorem step_of_exec (h : exec userName s a = some s') : TavernStep userName s a s' := by
  cases a with
  | connect clientRooms =>
      simp only [exec, Option.ite_none_right_eq_some, Bool.and_eq_true, List.isEmpty_iff] at h
      obtain ⟨⟨hrooms, hnames⟩, heq⟩ := h
      obtain rfl := Option.some.inj heq
      obtain rfl : clientRooms = .new := by
        cases clientRooms
        cases hrooms
        cases hnames
        rfl
      exact .connect .new RoomManager.wf_new fun _ _ hnone => by cases hnone
  | drop c =>
      obtain rfl := Option.some.inj h
      exact .drop c
  | expire c =>
      simp only [exec, Option.ite_none_right_eq_some] at h
      obtain ⟨⟨hknown, hactive, hclients⟩, heq⟩ := h
      obtain rfl := Option.some.inj heq
      exact .expire c hknown hactive hclients
  | request c message =>
      obtain rfl := Option.some.inj h
      exact .request c message
  | handle c =>
      simp only [exec] at h
      split at h
      next message rest hsent =>
        split at h
        next chat pushed hok =>
          obtain rfl := Option.some.inj h
          exact .handle c hsent hok
        · cases h
      · cases h
  | pick c index =>
      simp only [exec] at h
      split at h
      next chat pushed hok =>
        obtain rfl := Option.some.inj h
        exact .pick c index hok
      · cases h
  | beginTick =>
      simp only [exec] at h
      split at h
      next hstage =>
        obtain rfl := Option.some.inj h
        exact .beginTick hstage
      · cases h
  | serve now =>
      simp only [exec] at h
      split at h
      next clients c waiting hstage =>
        split at h
        next message rest hsent =>
          split at h
          next worker hok =>
            obtain rfl := Option.some.inj h
            exact .serve now hstage hsent hok
          · cases h
        · cases h
      · cases h
      · cases h
  | nextClient =>
      simp only [exec] at h
      split at h
      next clients c waiting hstage =>
        obtain rfl := Option.some.inj h
        exact .nextClient hstage
      · cases h
      · cases h
  | finishTick =>
      simp only [exec] at h
      split at h
      next clients hstage =>
        obtain rfl := Option.some.inj h
        exact .finishTick hstage
      · cases h
      · cases h

variable {allowed : Tavern → Action → Prop} [∀ s a, Decidable (allowed s a)]

variable (allowed) in
/-- The actions one after the other, as long as they are allowed and possible. -/
def run (userName : ConnId → String) : List Action → Tavern → Option Tavern
  | [], s => some s
  | a :: actions, s =>
    if allowed s a then (exec userName s a).bind (run userName actions) else none

theorem reachable_of_run {initialRooms : List String} : ∀ (actions : List Action) {s s' : Tavern},
    (tavern userName initialRooms).Reachable allowed s → run allowed userName actions s = some s' →
    (tavern userName initialRooms).Reachable allowed s'
  | [], s, s', hs, h => by
      obtain rfl := Option.some.inj h
      exact hs
  | a :: actions, s, s', hs, h => by
      rw [run, Option.ite_none_right_eq_some] at h
      obtain ⟨hallowed, hrun⟩ := h
      obtain ⟨mid, hexec, hrest⟩ := Option.bind_eq_some_iff.mp hrun
      exact reachable_of_run actions (.step a hs hallowed (step_of_exec hexec)) hrest

/-- A run whose last state passes a test. -/
theorem exists_of_run (allowed : Tavern → Action → Prop) [∀ s a, Decidable (allowed s a)]
    (userName : ConnId → String) (initialRooms : List String) (actions : List Action)
    (test : Tavern → Bool)
    (h : (run allowed userName actions (.start initialRooms)).any test = true) :
    ∃ s, (tavern userName initialRooms).Reachable allowed s ∧ test s = true := by
  cases hrun : run allowed userName actions (.start initialRooms) with
  | none =>
      rw [hrun] at h
      cases h
  | some s =>
      rw [hrun] at h
      exact ⟨s, reachable_of_run actions (.init rfl) hrun, h⟩

end Tavernmx.Session
