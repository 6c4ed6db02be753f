/-
# `Tavernmx.Lib.Mailbox` — one queue per address

A family of first-in first-out queues indexed by an address, and the ways of
writing to it: to one address, to each of a list of addresses, and a list of
messages to each of a list of addresses.  Every lemma says what one fixed
address receives, so that a broadcast can be followed address by address.
-/
import Mathlib.Data.List.Dedup
import Mathlib.Logic.Function.Basic

namespace Mailbox

variable {K M : Type} [DecidableEq K]

/-- Appends `ms` to the queue of `k`. -/
def push (box : K → List M) (k : K) (ms : List M) : K → List M :=
  Function.update box k (box k ++ ms)

/-- Appends `ms` to the queue of each address of `ks`, in turn. -/
def pushEach (box : K → List M) (ks : List K) (ms : List M) : K → List M :=
  ks.foldl (fun b k => push b k ms) box

/-- Sends the messages of `ms` one after the other, each to every address of `ks`. -/
def broadcast (box : K → List M) (ks : List K) (ms : List M) : K → List M :=
  ms.foldl (fun b m => pushEach b ks [m]) box

@[simp] theorem push_self (box : K → List M) (k : K) (ms : List M) :
    push box k ms k = box k ++ ms :=
  Function.update_self ..

theorem push_of_ne {box : K → List M} {k j : K} {ms : List M} (h : j ≠ k) :
    push box k ms j = box j :=
  Function.update_of_ne h ..

theorem push_apply (box : K → List M) (k j : K) (ms : List M) :
    push box k ms j = box j ++ (if j = k then ms else []) := by
  by_cases h : j = k
  · subst h; simp
  · simp [push_of_ne h, h]

@[simp] theorem push_nil (box : K → List M) (k : K) : push box k [] = box := by
  funext j
  simp [push_apply]

/-- What is left in a queue was there before. -/
theorem mem_of_mem_pop {box : K → List M} {k j : K} {m x : M} {rest : List M}
    (h : box k = m :: rest) (hx : x ∈ Function.update box k rest j) : x ∈ box j := by
  by_cases hj : j = k
  · subst hj
    rw [Function.update_self] at hx
    rw [h]
    exact List.mem_cons_of_mem m hx
  · rwa [Function.update_of_ne hj] at hx

/-- A message goes from the front of one queue to the back of another, and the two read
the same one after the other. -/
theorem push_append_pop {box : K → List M} {k : K} {m : M} {rest : List M}
    (h : box k = m :: rest) (past : K → List M) (j : K) :
    push past k [m] j ++ Function.update box k rest j = past j ++ box j := by
  by_cases hj : j = k
  · subst hj
    rw [push_self, Function.update_self, h, List.append_assoc, List.singleton_append]
  · rw [push_of_ne hj, Function.update_of_ne hj]

/-- An address receives one copy for each time it is listed. -/
theorem pushEach_apply (ms : List M) (j : K) : ∀ (ks : List K) (box : K → List M),
    pushEach box ks ms j = box j ++ (List.replicate (ks.count j) ms).flatten
  | [], box => by simp [pushEach]
  | k :: ks, box => by
      have ih := pushEach_apply ms j ks (push box k ms)
      rw [pushEach, List.foldl_cons]
      rw [pushEach] at ih
      rw [ih, push_apply]
      by_cases h : j = k
      · subst h
        simp [List.replicate_succ]
      · simp [h, List.count_cons_of_ne (Ne.symm h)]

/-- Listed once, an address receives one copy; not listed, none. -/
theorem pushEach_of_nodup {ks : List K} (h : ks.Nodup) (box : K → List M) (ms : List M) (j : K) :
    pushEach box ks ms j = box j ++ (if j ∈ ks then ms else []) := by
  rw [pushEach_apply]
  by_cases hj : j ∈ ks
  · simp [hj, List.count_eq_one_of_mem h hj]
  · simp [hj, List.count_eq_zero_of_not_mem hj]

theorem broadcast_of_nodup {ks : List K} (h : ks.Nodup) (j : K) :
    ∀ (ms : List M) (box : K → List M),
      broadcast box ks ms j = box j ++ (if j ∈ ks then ms else [])
  | [], box => by simp [broadcast]
  | m :: ms, box => by
      have ih := broadcast_of_nodup h j ms (pushEach box ks [m])
      rw [broadcast, List.foldl_cons]
      rw [broadcast] at ih
      rw [ih, pushEach_of_nodup h]
      by_cases hj : j ∈ ks <;> simp [hj]

end Mailbox
