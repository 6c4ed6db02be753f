/-
# `Tavernmx.Shared.RingTraversal` — reading a ring buffer in both directions

`Holds` says which slots the buffer shows.  Here the loops over it are run: from
`begin()` to `end()` with `operator++`, and from `rbegin()` to `rend()`, where
`std::reverse_iterator` steps with `operator--` and reads the place before its
base.  A loop that meets a null pointer, or never meets its end, has no result.

The history of a buffer is the list of the calls made on it, and `written` is what
they inserted since the last `reset`.  The buffer holds the end of that
(`holds_runCalls`), whatever the positions were when it was reset; and both loops,
`tail()` and `empty()` can be read off what it holds.
-/
import Tavernmx.Lib.Traversal
import Tavernmx.Shared.RingBuffer

namespace Tavernmx.RingBuffer

open Traversal

variable {T : Type} {Capacity : Nat}

/-! ## Iterators -/

/-- `Iterator::operator--`. -/
def prev (pos : Fin Capacity) : Fin Capacity :=
  if (pos : Nat) = 0 then ⟨Capacity - 1, Nat.sub_lt pos.pos Nat.one_pos⟩
  else ⟨pos - 1, Nat.lt_of_le_of_lt (Nat.sub_le _ _) pos.isLt⟩

/-- The position of `begin()`. -/
def beginPos (b : RingBuffer T Capacity) : Fin Capacity := b.tail

/-- The position of `end()`. -/
def endPos (b : RingBuffer T Capacity) : Fin Capacity := b.head

/-- `for (it = begin(); it != end(); ++it)`, reading `*it`. -/
def forward (b : RingBuffer T Capacity) : Option (List T) :=
  loop next b.data b.endPos Capacity b.beginPos

/-- `for (it = rbegin(); it != rend(); ++it)`, reading `*it`.  The base of the reverse
iterator goes from `end()` to `begin()`, and `*it` is what is before the base. -/
def backward (b : RingBuffer T Capacity) : Option (List T) :=
  loop prev (fun base => b.data (prev base)) b.beginPos Capacity b.endPos

/-- `tail()`, where `none` is a null pointer. -/
def tailItem (b : RingBuffer T Capacity) : Option T := if b.empty then none else b.data b.tail

/-! ## Calls -/

/-- `insert(std::unique_ptr<T>)`. -/
def insertPointer (b : RingBuffer T Capacity) (pointer : Option T) : RingBuffer T Capacity :=
  { b with data := Function.update b.data b.head pointer }.increment

/-- The calls that change a buffer; the pointer of `insertOwned` is not null. -/
inductive Call (T : Type) where
  | insertCopy (value : T)
  | insertMove (value : T)
  | insertOwned (value : T)
  | reset

def call (b : RingBuffer T Capacity) : Call T → RingBuffer T Capacity
  | .insertCopy value => b.insert value
  | .insertMove value => b.insert value
  | .insertOwned value => b.insertPointer (some value)
  | .reset => b.reset

/-- A new buffer after these calls. -/
def runCalls [NeZero Capacity] (calls : List (Call T)) : RingBuffer T Capacity :=
  calls.foldl call new

/-- What a call makes of the values inserted since the last `reset`. -/
def write (xs : List T) : Call T → List T
  | .insertCopy value => xs ++ [value]
  | .insertMove value => xs ++ [value]
  | .insertOwned value => xs ++ [value]
  | .reset => []

/-- The values inserted since the last `reset`. -/
def written (calls : List (Call T)) : List T := calls.foldl write []

/-- One call, on what the buffer holds. -/
theorem Holds.call {b : RingBuffer T Capacity} {xs : List T}
    (h : b.Holds (xs.rtake (Capacity - 1))) (c : Call T) :
    (b.call c).Holds ((write xs c).rtake (Capacity - 1)) := by
  have hinsert : ∀ value, (b.insert value).Holds ((xs ++ [value]).rtake (Capacity - 1)) := by
    intro value
    have hstep := h.insert value
    rwa [BoundedLog.rtake_rtake_append] at hstep
  cases c with
  | insertCopy value => exact hinsert value
  | insertMove value => exact hinsert value
  | insertOwned value => exact hinsert value
  | reset =>
      rw [write, List.rtake_nil]
      exact holds_reset b

theorem Holds.foldl_call {b : RingBuffer T Capacity} {xs : List T}
    (h : b.Holds (xs.rtake (Capacity - 1))) (calls : List (Call T)) :
    (calls.foldl RingBuffer.call b).Holds ((calls.foldl write xs).rtake (Capacity - 1)) := by
  induction calls generalizing b xs with
  | nil => exact h
  | cons c calls ih => exact ih (h.call c)

/-- The buffer holds the end of what was written since the last `reset`. -/
theorem holds_runCalls [NeZero Capacity] (calls : List (Call T)) :
    (runCalls calls : RingBuffer T Capacity).Holds ((written calls).rtake (Capacity - 1)) := by
  have hnew : (new : RingBuffer T Capacity).Holds (([] : List T).rtake (Capacity - 1)) := by
    rw [List.rtake_nil]
    exact holds_new
  exact hnew.foldl_call calls

/-! ## The loops -/

theorem prev_slot (pos : Fin Capacity) (i : Nat) : prev (slot pos (i + 1)) = slot pos i := by
  have hlt : (pos + i) % Capacity < Capacity := Nat.mod_lt _ pos.pos
  have hsucc : (slot pos (i + 1) : Nat) = ((pos + i) % Capacity + 1) % Capacity := by
    rw [Nat.mod_add_mod]
    rfl
  refine Fin.ext ?_
  by_cases hwrap : (pos + i) % Capacity + 1 = Capacity
  · -- the next slot is the first one of the array
    have hzero : (slot pos (i + 1) : Nat) = 0 := by rw [hsucc, hwrap, Nat.mod_self]
    rw [prev, if_pos hzero]
    show Capacity - 1 = (pos + i) % Capacity
    omega
  · have hnext : (slot pos (i + 1) : Nat) = (pos + i) % Capacity + 1 := by
      rw [hsucc, Nat.mod_eq_of_lt (by omega)]
    rw [prev, if_neg (by omega)]
    show (slot pos (i + 1) : Nat) - 1 = (pos + i) % Capacity
    omega

theorem visits_forward {data : Fin Capacity → Option T} {xs : List T} {pos : Fin Capacity}
    (hlen : xs.length < Capacity)
    (hdata : (List.range xs.length).map (fun i => data (slot pos i)) = xs.map some) :
    Visits next data (slot pos xs.length) pos xs := by
  induction xs generalizing pos with
  | nil =>
      rw [List.length_nil, slot_zero]
      exact .done
  | cons x xs ih =>
      rw [List.length_cons] at hlen hdata ⊢
      rw [List.range_succ_eq_map, List.map_cons, List.map_map, List.map_cons] at hdata
      obtain ⟨hhead, htail⟩ := List.cons.inj hdata
      rw [slot_zero] at hhead
      refine .more (ne_slot_succ hlen) hhead ?_
      rw [next_eq_succMod, slot_succ]
      refine ih (by omega) ?_
      rw [← htail]
      exact List.map_congr_left fun i _ => by
        simp only [Function.comp_apply, Nat.succ_eq_add_one, slot_succ]

/-- From the end down to `pos`; the last value is the first one read. -/
theorem visits_backward {data : Fin Capacity → Option T} {pos : Fin Capacity} (xs : List T) :
    xs.length < Capacity →
    (List.range xs.length).map (fun i => data (slot pos i)) = xs.map some →
    Visits prev (fun base => data (prev base)) pos (slot pos xs.length) xs.reverse := by
  induction xs using List.reverseRecOn with
  | nil =>
      intro _ _
      rw [List.length_nil, slot_zero]
      exact .done
  | append_singleton xs x ih =>
      intro hlen hdata
      rw [List.length_append, List.length_singleton] at hlen hdata ⊢
      rw [List.range_succ, List.map_append, List.map_append] at hdata
      obtain ⟨hinit, hlast⟩ := List.append_inj' hdata rfl
      rw [List.reverse_append, List.reverse_singleton, List.singleton_append]
      refine .more (ne_slot_succ hlen).symm ?_ ?_
      · show data (prev (slot pos (xs.length + 1))) = some x
        rw [prev_slot]
        exact (List.cons.inj hlast).1
      · rw [prev_slot]
        exact ih (by omega) hinit

variable {b : RingBuffer T Capacity} {xs : List T}

theorem Holds.forward_eq (h : b.Holds xs) : b.forward = some xs := by
  obtain ⟨hlen, hslot⟩ := h.slot_length
  have hvisits := visits_forward hlen h.data_slot
  rw [hslot] at hvisits
  exact hvisits.loop_eq (Nat.le_of_lt hlen)

theorem Holds.backward_eq (h : b.Holds xs) : b.backward = some xs.reverse := by
  obtain ⟨hlen, hslot⟩ := h.slot_length
  have hvisits := visits_backward xs hlen h.data_slot
  rw [hslot] at hvisits
  exact hvisits.loop_eq (by rw [List.length_reverse]; exact Nat.le_of_lt hlen)

theorem Holds.tailItem_eq (h : b.Holds xs) : b.tailItem = xs.head? := by
  cases xs with
  | nil => exact if_pos (h.empty_iff.mpr rfl)
  | cons x xs =>
      have hne : ¬ b.empty = true := fun hempty => List.cons_ne_nil x xs (h.empty_iff.mp hempty)
      have hdata := h.data_slot
      rw [List.length_cons, List.range_succ_eq_map, List.map_cons, slot_zero, List.map_cons]
        at hdata
      rw [tailItem, if_neg hne]
      exact (List.cons.inj hdata).1

/-- **A ring buffer is a bounded log**: what it shows, in either direction, is the
last `Capacity - 1` of the values inserted since the last `reset`. -/
theorem ringBuffer_refines_log [NeZero Capacity] (calls : List (Call T)) :
    (runCalls calls : RingBuffer T Capacity).forward
      = some ((written calls).rtake (Capacity - 1)) ∧
    (runCalls calls : RingBuffer T Capacity).backward
      = some ((written calls).rtake (Capacity - 1)).reverse ∧
    (runCalls calls : RingBuffer T Capacity).tailItem
      = ((written calls).rtake (Capacity - 1)).head? ∧
    ((runCalls calls : RingBuffer T Capacity).empty = true ↔
      (runCalls calls : RingBuffer T Capacity).beginPos = (runCalls calls).endPos) := by
  have hholds : (runCalls calls : RingBuffer T Capacity).Holds _ := holds_runCalls calls
  refine ⟨hholds.forward_eq, hholds.backward_eq, hholds.tailItem_eq, ?_⟩
  rw [empty, decide_eq_true_eq]
  exact eq_comm

/-- Of capacity 3, wrapped, reset, and wrapped again. -/
theorem ringBuffer_refines_log_wrapped :
    (runCalls [.insertCopy 1, .insertMove 2, .insertOwned 3, .insertCopy 4, .reset, .insertCopy 5,
        .insertCopy 6, .insertMove 7] : RingBuffer Nat 3).forward = some [6, 7] ∧
    (runCalls [.insertCopy 1, .insertMove 2, .insertOwned 3, .insertCopy 4, .reset, .insertCopy 5,
        .insertCopy 6, .insertMove 7] : RingBuffer Nat 3).backward = some [7, 6] :=
  ⟨(ringBuffer_refines_log _).1, (ringBuffer_refines_log _).2.1⟩

end Tavernmx.RingBuffer
