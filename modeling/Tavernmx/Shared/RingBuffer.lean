/-
# `Tavernmx.Shared.RingBuffer` — the ring buffer, and the log it refines

`RingBuffer<T, Capacity>` stores pointers in an array with two positions: `tail`,
the oldest element, and `head`, where the next one goes.  The positions are
`Fin Capacity`, so an out-of-range position cannot be written down; a slot is an
`Option`, because a pointer can be null.

`Holds b xs` is the abstraction: walking from `begin()` to `end()` visits slots
that hold exactly `xs`.  An insertion appends to `xs` and, since `head = tail`
means empty, keeps the last `Capacity - 1` of the result (`Holds.insert`).
-/
import Mathlib.Data.Fin.Basic
import Mathlib.Data.Nat.ModEq
import Mathlib.Logic.Function.Basic
import Tavernmx.Lib.BoundedLog
import Tavernmx.Shared.Json

namespace Tavernmx

structure RingBuffer (T : Type) (Capacity : Nat) where
  data : Fin Capacity → Option T
  head : Fin Capacity
  tail : Fin Capacity

namespace RingBuffer

variable {T : Type} {Capacity : Nat}

/-- `RingBuffer()`: every slot null, both positions zero. -/
def new [NeZero Capacity] : RingBuffer T Capacity := ⟨fun _ => none, 0, 0⟩

/-- `(pos + 1) % capacity()`. -/
def succMod (pos : Fin Capacity) : Fin Capacity :=
  ⟨(pos + 1) % Capacity, Nat.mod_lt _ pos.pos⟩

def empty (b : RingBuffer T Capacity) : Bool := b.head = b.tail

def full (b : RingBuffer T Capacity) : Bool := succMod b.head = b.tail

/-- `increment()`: the head moves on, and pushes the tail along when it meets it. -/
def increment (b : RingBuffer T Capacity) : RingBuffer T Capacity :=
  let head := succMod b.head
  { b with head, tail := if b.tail = head then succMod b.tail else b.tail }

/-- `insert(value)`. -/
def insert (b : RingBuffer T Capacity) (value : T) : RingBuffer T Capacity :=
  { b with data := Function.update b.data b.head (some value) }.increment

/-- `reset()`. -/
def reset (b : RingBuffer T Capacity) : RingBuffer T Capacity :=
  { b with data := fun _ => none, head := b.tail }

/-! ## Iteration -/

/-- `Iterator::operator++`. -/
def next (pos : Fin Capacity) : Fin Capacity :=
  if h : pos + 1 < Capacity then ⟨pos + 1, h⟩ else ⟨0, pos.pos⟩

/-- The positions a loop `for (; it != stop; ++it)` visits, in at most `k` rounds. -/
def walk (stop : Fin Capacity) : Nat → Fin Capacity → List (Fin Capacity)
  | 0, _ => []
  | k + 1, pos => if pos = stop then [] else pos :: walk stop k (next pos)

/-- The positions from `begin()` to `end()`; `Capacity` rounds reach the end. -/
def positions (b : RingBuffer T Capacity) : List (Fin Capacity) := walk b.head Capacity b.tail

/-- `*it`, which dereferences the pointer in the slot. -/
def deref (b : RingBuffer T Capacity) (pos : Fin Capacity) : Exec T :=
  match b.data pos with
  | some value => pure value
  | none => throw .assertion

/-- The abstraction: from `begin()` to `end()` the buffer shows exactly `xs`. -/
def Holds (b : RingBuffer T Capacity) (xs : List T) : Prop :=
  b.positions.map b.data = xs.map some

instance [DecidableEq T] (b : RingBuffer T Capacity) (xs : List T) : Decidable (b.Holds xs) :=
  inferInstanceAs (Decidable (_ = _))

/-! ## Positions as offsets from the tail -/

theorem next_eq_succMod (pos : Fin Capacity) : next pos = succMod pos := by
  have hlt := pos.isLt
  unfold next succMod
  split
  case isTrue h => exact Fin.ext (Nat.mod_eq_of_lt h).symm
  case isFalse h =>
    have : (pos : Nat) + 1 = Capacity := by omega
    exact Fin.ext (by simp [this])

/-- The slot `i` places after `pos`. -/
def slot (pos : Fin Capacity) (i : Nat) : Fin Capacity :=
  ⟨(pos + i) % Capacity, Nat.mod_lt _ pos.pos⟩

@[simp] theorem slot_zero (pos : Fin Capacity) : slot pos 0 = pos :=
  Fin.ext (Nat.mod_eq_of_lt pos.isLt)

/-- Once around. -/
theorem slot_capacity (pos : Fin Capacity) : slot pos Capacity = pos := by
  refine Fin.ext ?_
  show (pos + Capacity) % Capacity = (pos : Nat)
  rw [Nat.add_mod_right, Nat.mod_eq_of_lt pos.isLt]

theorem slot_succ (pos : Fin Capacity) (i : Nat) : slot pos (i + 1) = slot (succMod pos) i :=
  Fin.ext (by simp only [slot, succMod, Nat.mod_add_mod]; congr 1; omega)

theorem succMod_slot (pos : Fin Capacity) (i : Nat) : succMod (slot pos i) = slot pos (i + 1) :=
  Fin.ext (by simp only [slot, succMod, Nat.mod_add_mod, Nat.add_assoc])

/-- Fewer than `Capacity` places apart, two offsets name different slots. -/
theorem slot_injective {pos : Fin Capacity} {i j : Nat} (hi : i < Capacity) (hj : j < Capacity)
    (h : slot pos i = slot pos j) : i = j := by
  have h' : (pos + i) % Capacity = (pos + j) % Capacity := congrArg Fin.val h
  have hmod : i % Capacity = j % Capacity := Nat.ModEq.add_left_cancel' (pos : Nat) h'
  rwa [Nat.mod_eq_of_lt hi, Nat.mod_eq_of_lt hj] at hmod

/-- Short of a whole round, a loop has not come back to its start. -/
theorem ne_slot_succ {pos : Fin Capacity} {n : Nat} (h : n + 1 < Capacity) :
    pos ≠ slot pos (n + 1) := by
  intro heq
  have hzero : 0 = n + 1 := slot_injective (by omega) h ((slot_zero pos).trans heq)
  omega

/-- How many places `stop` is after `pos`. -/
theorem exists_slot (pos stop : Fin Capacity) : ∃ d < Capacity, slot pos d = stop := by
  have hp := pos.isLt
  have hs := stop.isLt
  by_cases h : (pos : Nat) ≤ stop
  · refine ⟨stop - pos, by omega, Fin.ext ?_⟩
    show (pos + (stop - pos)) % Capacity = (stop : Nat)
    rw [Nat.add_sub_cancel' h, Nat.mod_eq_of_lt hs]
  · refine ⟨stop + Capacity - pos, by omega, Fin.ext ?_⟩
    show (pos + (stop + Capacity - pos)) % Capacity = (stop : Nat)
    rw [show (pos : Nat) + (stop + Capacity - pos) = stop + Capacity by omega,
      Nat.add_mod_right, Nat.mod_eq_of_lt hs]

theorem walk_slot {pos : Fin Capacity} : ∀ (k d : Nat), d ≤ k → d < Capacity →
    walk (slot pos d) k pos = (List.range d).map (slot pos)
  | 0, d, hk, _ => by
      obtain rfl : d = 0 := by omega
      rfl
  | k + 1, 0, _, _ => by simp [walk]
  | k + 1, d + 1, hk, hd => by
      rw [walk, if_neg (ne_slot_succ hd), next_eq_succMod, slot_succ,
        walk_slot k d (by omega) (by omega), List.range_succ_eq_map, List.map_cons, List.map_map,
        slot_zero]
      congr 1
      exact List.map_congr_left fun i _ => (slot_succ pos i).symm

/-- With the head `d` places after the tail, the buffer shows the `d` slots from the tail on. -/
theorem positions_eq {b : RingBuffer T Capacity} {d : Nat} (hd : d < Capacity)
    (h : slot b.tail d = b.head) : b.positions = (List.range d).map (slot b.tail) := by
  rw [positions, ← h, walk_slot Capacity d (by omega) hd]

/-- Of the slots from the tail on, only the `d`-th is the head. -/
theorem slot_eq_head_iff {b : RingBuffer T Capacity} {d i : Nat} (hd : d < Capacity)
    (h : slot b.tail d = b.head) (hi : i < Capacity) : slot b.tail i = b.head ↔ i = d := by
  rw [← h]
  constructor
  · exact slot_injective hi hd
  · rintro rfl
    rfl

/-- The tail moves when the head meets it. -/
theorem insert_tail {b : RingBuffer T Capacity} {d : Nat} (hd : d < Capacity)
    (h : slot b.tail d = b.head) (v : T) :
    (b.insert v).tail = if d + 1 = Capacity then succMod b.tail else b.tail := by
  show (if b.tail = succMod b.head then succMod b.tail else b.tail) = _
  rw [← h, succMod_slot]
  by_cases hfull : d + 1 = Capacity
  · rw [hfull, slot_capacity, if_pos rfl, if_pos rfl]
  · rw [if_neg hfull, if_neg (ne_slot_succ (by omega))]

/-! ## The operations on the abstraction -/

theorem holds_new [NeZero Capacity] : (new : RingBuffer T Capacity).Holds [] := by
  have : (new : RingBuffer T Capacity).positions = [] := by
    rw [positions_eq (d := 0) (NeZero.pos Capacity) (slot_zero _)]
    rfl
  simp [Holds, this]

theorem holds_reset (b : RingBuffer T Capacity) : b.reset.Holds [] := by
  have : b.reset.positions = [] := by
    rw [positions_eq (d := 0) b.tail.pos (slot_zero _)]
    rfl
  simp [Holds, this]

/-- What a buffer shows determines how far its head is from its tail. -/
theorem Holds.slot_length {b : RingBuffer T Capacity} {xs : List T} (h : b.Holds xs) :
    xs.length < Capacity ∧ slot b.tail xs.length = b.head := by
  obtain ⟨d, hd, hslot⟩ := exists_slot b.tail b.head
  have hlen := congrArg List.length h
  rw [positions_eq hd hslot] at hlen
  simp only [List.length_map, List.length_range] at hlen
  exact hlen ▸ ⟨hd, hslot⟩

theorem Holds.data_slot {b : RingBuffer T Capacity} {xs : List T} (h : b.Holds xs) :
    (List.range xs.length).map (fun i => b.data (slot b.tail i)) = xs.map some := by
  obtain ⟨hlt, hslot⟩ := h.slot_length
  have h' := h
  rw [Holds, positions_eq hlt hslot, List.map_map] at h'
  exact h'

/-- **An insertion appends, and keeps the last `Capacity - 1`.** -/
theorem Holds.insert {b : RingBuffer T Capacity} {xs : List T} (h : b.Holds xs) (v : T) :
    (b.insert v).Holds ((xs ++ [v]).rtake (Capacity - 1)) := by
  obtain ⟨hlt, hslot⟩ := h.slot_length
  have hdata := h.data_slot
  have hhead : (b.insert v).head = slot b.tail (xs.length + 1) := by
    rw [← succMod_slot, hslot]
    rfl
  -- the slots shown before keep their contents, as the head is not among them
  have hold : (List.range xs.length).map (fun i => (b.insert v).data (slot b.tail i))
      = xs.map some := by
    rw [← hdata]
    refine List.map_congr_left fun i hi => Function.update_of_ne ?_ _ _
    have hi' := List.mem_range.mp hi
    rw [ne_eq, slot_eq_head_iff hlt hslot (by omega)]
    omega
  have hnew : (b.insert v).data (slot b.tail xs.length) = some v := by
    rw [hslot]
    exact Function.update_self _ _ _
  have hall : (List.range (xs.length + 1)).map (fun i => (b.insert v).data (slot b.tail i))
      = (xs ++ [v]).map some := by
    rw [List.range_succ, List.map_append, hold, List.map_append, List.map_singleton, hnew]
    rfl
  have htail := insert_tail hlt hslot v
  by_cases hfull : xs.length + 1 = Capacity
  · -- the head meets the tail, and the oldest element is no longer shown
    rw [if_pos hfull] at htail
    have hpos : slot (b.insert v).tail xs.length = (b.insert v).head := by
      rw [htail, hhead, slot_succ]
    have hrtake : (xs ++ [v]).rtake (Capacity - 1) = (xs ++ [v]).tail := by
      rw [List.rtake, ← List.drop_one]
      congr 1
      simp
      omega
    rw [Holds, positions_eq hlt hpos, List.map_map, hrtake, List.map_tail, ← hall,
      List.range_succ_eq_map, List.map_cons, List.tail_cons, List.map_map]
    refine List.map_congr_left fun i _ => ?_
    simp only [Function.comp, htail, Nat.succ_eq_add_one, slot_succ]
  · rw [if_neg hfull] at htail
    have hpos : slot (b.insert v).tail (xs.length + 1) = (b.insert v).head := by
      rw [htail, hhead]
    rw [Holds, positions_eq (by omega) hpos, List.map_map,
      BoundedLog.rtake_of_length_le (by simp; omega), ← hall]
    exact List.map_congr_left fun i _ => by simp only [Function.comp, htail]

/-- Inserting a whole list. -/
theorem Holds.foldl_insert {b : RingBuffer T Capacity} {xs : List T} (h : b.Holds xs) :
    ∀ ys : List T, xs.length < Capacity →
      (ys.foldl RingBuffer.insert b).Holds ((xs ++ ys).rtake (Capacity - 1)) := by
  intro ys
  induction ys generalizing b xs with
  | nil =>
      intro hlt
      rw [List.append_nil, BoundedLog.rtake_of_length_le (by omega)]
      exact h
  | cons y ys ih =>
      intro _
      have hstep := h.insert y
      have := ih hstep hstep.slot_length.1
      rw [BoundedLog.rtake_rtake_append, List.append_assoc] at this
      exact this

theorem Holds.empty_iff {b : RingBuffer T Capacity} {xs : List T} (h : b.Holds xs) :
    b.empty = true ↔ xs = [] := by
  obtain ⟨hlt, hslot⟩ := h.slot_length
  simp only [RingBuffer.empty, decide_eq_true_eq, ← hslot, ← List.length_eq_zero_iff]
  constructor
  · intro heq
    exact (slot_injective hlt b.tail.pos (by rw [slot_zero]; exact heq))
  · intro hnil
    rw [hnil, slot_zero]

/-- Reading the shown slots one after the other never meets a null pointer. -/
theorem Holds.mapM_deref {b : RingBuffer T Capacity} {xs : List T} (h : b.Holds xs) :
    b.positions.map b.deref = xs.map Except.ok := by
  have hcongr : ∀ (ps : List (Fin Capacity)) (ys : List T), ps.map b.data = ys.map some →
      ps.map b.deref = ys.map Except.ok := by
    intro ps
    induction ps with
    | nil =>
        intro ys hys
        cases ys with
        | nil => rfl
        | cons y ys => cases hys
    | cons p ps ih =>
        intro ys hys
        cases ys with
        | nil => cases hys
        | cons y ys =>
            simp only [List.map_cons, List.cons.injEq] at hys ⊢
            exact ⟨by rw [deref, hys.1]; rfl, ih ys hys.2⟩
  exact hcongr _ _ h

end RingBuffer

end Tavernmx
