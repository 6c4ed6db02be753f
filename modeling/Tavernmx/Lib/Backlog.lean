/-
# `Tavernmx.Lib.Backlog` — what waits in a family of queues, weighed

Every message has a cost.  The backlog of a mailbox at some of its addresses is the
cost of all that waits there.  Pushing adds the cost of what is pushed, taking a
message from a queue takes its cost away, and what is sent to every address adds at
most so many times the cost of what one of them receives.
-/
import Mathlib.Algebra.Order.BigOperators.Group.Finset
import Mathlib.Algebra.Ring.Nat
import Tavernmx.Lib.Mailbox

namespace Mailbox

variable {K M : Type}

/-- The cost of one queue. -/
def cost (weight : M → Nat) (queue : List M) : Nat := (queue.map weight).sum

/-- The cost of the queues of `ks`. -/
def backlog (weight : M → Nat) (ks : Finset K) (box : K → List M) : Nat :=
  ∑ k ∈ ks, cost weight (box k)

variable {weight : M → Nat} {ks : Finset K} {box box' : K → List M}

@[simp] theorem cost_nil : cost weight [] = 0 := rfl

@[simp] theorem cost_cons (m : M) (ms : List M) :
    cost weight (m :: ms) = weight m + cost weight ms := rfl

@[simp] theorem cost_append (ms more : List M) :
    cost weight (ms ++ more) = cost weight ms + cost weight more := by
  rw [cost, List.map_append, List.sum_append]
  rfl

/-- A queue whose messages cost no more than so much each. -/
theorem cost_le_of_forall {b : Nat} : ∀ {ms : List M}, (∀ m ∈ ms, weight m ≤ b) →
    cost weight ms ≤ ms.length * b
  | [], _ => Nat.zero_le _
  | m :: ms, h => by
      have hm := h m List.mem_cons_self
      have hms := cost_le_of_forall fun m' hm' => h m' (List.mem_cons_of_mem m hm')
      rw [cost_cons, List.length_cons, Nat.succ_mul]
      omega

theorem cost_flatMap_le {X : Type} {f : X → List M} {bound : X → Nat} : ∀ {xs : List X},
    (∀ x ∈ xs, cost weight (f x) ≤ bound x) → cost weight (xs.flatMap f) ≤ (xs.map bound).sum
  | [], _ => Nat.zero_le _
  | x :: xs, h => by
      have hx := h x List.mem_cons_self
      have hxs := cost_flatMap_le fun y hy => h y (List.mem_cons_of_mem x hy)
      rw [List.flatMap_cons, cost_append, List.map_cons, List.sum_cons]
      omega

/-- Every address receives something. -/
theorem backlog_le_of_append {more : K → List M} {b : Nat}
    (hbox : ∀ k ∈ ks, box' k = box k ++ more k) (hmore : ∀ k ∈ ks, cost weight (more k) ≤ b) :
    backlog weight ks box' ≤ backlog weight ks box + ks.card * b := by
  have hsum : backlog weight ks box' =
      backlog weight ks box + ∑ k ∈ ks, cost weight (more k) := by
    rw [backlog, backlog, ← Finset.sum_add_distrib]
    exact Finset.sum_congr rfl fun k hk => by rw [hbox k hk, cost_append]
  rw [hsum]
  exact Nat.add_le_add_left (Finset.sum_le_card_nsmul ks _ b hmore) _

variable [DecidableEq K] {k : K} {m : M} {rest : List M}

/-- One queue changes, and the others stay. -/
theorem backlog_update (weight : M → Nat) (box : K → List M) (hk : k ∈ ks) (queue : List M) :
    backlog weight ks (Function.update box k queue) + cost weight (box k) =
      backlog weight ks box + cost weight queue := by
  have hothers : ∑ j ∈ ks.erase k, cost weight (Function.update box k queue j) =
      ∑ j ∈ ks.erase k, cost weight (box j) := by
    refine Finset.sum_congr rfl fun j hj => ?_
    rw [Function.update_of_ne (Finset.ne_of_mem_erase hj)]
  rw [backlog, backlog, ← Finset.add_sum_erase ks _ hk, hothers, Function.update_self,
    ← Finset.add_sum_erase ks _ hk]
  omega

theorem backlog_push (hk : k ∈ ks) (ms : List M) :
    backlog weight ks (push box k ms) = backlog weight ks box + cost weight ms := by
  have hupdate := backlog_update weight box hk (box k ++ ms)
  rw [cost_append] at hupdate
  rw [push]
  omega

theorem backlog_pop (hk : k ∈ ks) (hqueue : box k = m :: rest) :
    backlog weight ks (Function.update box k rest) + weight m = backlog weight ks box := by
  have hupdate := backlog_update weight box hk rest
  rw [hqueue, cost_cons] at hupdate
  omega

end Mailbox
