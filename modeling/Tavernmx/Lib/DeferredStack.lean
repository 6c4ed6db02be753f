/-
# `Tavernmx.Lib.DeferredStack` — a stack whose operations are requested first

Pushes and pops are put into a queue, and all of them are applied at a later moment,
in order.  Until then the top is what it was, so whoever looks at it may request
again.  What counts is the stack that the requests will leave (`settled`): one more
request acts on its top.
-/
import Mathlib.Data.List.Basic

inductive PushPopRequest (α : Type) where
  | push (a : α)
  | pop
  deriving DecidableEq

structure DeferredStack (α : Type) where
  /-- The top comes first. -/
  stack : List α
  opQueue : List (PushPopRequest α)

namespace DeferredStack

variable {α : Type}

/-- A pop of the empty stack does nothing. -/
def perform (stack : List α) : PushPopRequest α → List α
  | .push a => a :: stack
  | .pop => stack.tail

/-- The stack after all requests. -/
def settled (d : DeferredStack α) : List α := d.opQueue.foldl perform d.stack

def push (a : α) (d : DeferredStack α) : DeferredStack α :=
  { d with opQueue := d.opQueue ++ [.push a] }

def pop (d : DeferredStack α) : DeferredStack α := { d with opQueue := d.opQueue ++ [.pop] }

/-- The requests are applied. -/
def apply (d : DeferredStack α) : DeferredStack α := ⟨d.settled, []⟩

@[simp] theorem settled_push (a : α) (d : DeferredStack α) :
    (d.push a).settled = a :: d.settled := by
  rw [settled, push, List.foldl_append]
  rfl

@[simp] theorem settled_pop (d : DeferredStack α) : d.pop.settled = d.settled.tail := by
  rw [settled, pop, List.foldl_append]
  rfl

theorem settled_of_empty {d : DeferredStack α} (h : d.opQueue = []) : d.settled = d.stack := by
  rw [settled, h]
  rfl

/-! ## The bottom -/

/-- A push keeps the bottom. -/
theorem getLast?_push {a b : α} {d : DeferredStack α} (h : d.settled.getLast? = some b) :
    (d.push a).settled.getLast? = some b := by
  rw [settled_push]
  cases hsettled : d.settled with
  | nil =>
      rw [hsettled] at h
      cases h
  | cons c rest =>
      rw [List.getLast?_cons_cons, ← hsettled]
      exact h

/-- A pop keeps the bottom when that is not all there is. -/
theorem getLast?_pop {b : α} {d : DeferredStack α} (h : d.settled.getLast? = some b)
    (hlength : d.settled.length ≠ 1) : d.pop.settled.getLast? = some b := by
  rw [settled_pop]
  cases hsettled : d.settled with
  | nil =>
      rw [hsettled] at h
      cases h
  | cons c rest =>
      rw [hsettled] at h hlength
      cases rest with
      | nil => exact absurd rfl hlength
      | cons c' rest =>
          rw [List.getLast?_cons_cons] at h
          exact h

end DeferredStack
