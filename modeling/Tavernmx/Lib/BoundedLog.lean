/-
# `Tavernmx.Lib.BoundedLog` — a log that keeps its last `n` entries

`List.rtake n` is what such a log holds of everything ever written to it.  The
lemmas here say that writing to the kept part and writing to the whole agree,
which is what lets a bounded buffer be compared with an unbounded history.
`take_eq_rtake_iff` compares it with a log that keeps its first entries instead.
Nothing in this module is about a particular buffer.
-/
import Mathlib.Data.List.DropRight

namespace BoundedLog

variable {α : Type} {n : Nat} {xs : List α}

theorem length_rtake (n : Nat) (xs : List α) : (xs.rtake n).length = min n xs.length := by
  simp only [List.rtake, List.length_drop]
  omega

/-- Nothing is dropped while the log is short. -/
theorem rtake_of_length_le (h : xs.length ≤ n) : xs.rtake n = xs := by
  rw [List.rtake, Nat.sub_eq_zero_of_le h, List.drop_zero]

/-- Writing to what was kept keeps the same as writing to everything. -/
theorem rtake_rtake_append (n : Nat) (xs ys : List α) :
    (xs.rtake n ++ ys).rtake n = (xs ++ ys).rtake n := by
  simp only [List.rtake, List.length_append, List.length_drop, List.drop_append, List.drop_drop]
  congr 2 <;> omega

/-- Every entry that has one `period` places behind it is equal to it. -/
def Periodic (period : Nat) (xs : List α) : Prop :=
  ∀ i, i + period < xs.length → xs[i]? = xs[i + period]?

/-- The first `n` entries are the last `n` when there are no others, or by repetition. -/
theorem take_eq_rtake_iff (n : Nat) (xs : List α) :
    xs.take n = xs.rtake n ↔ xs.length ≤ n ∨ Periodic (xs.length - n) xs := by
  rcases Nat.lt_or_ge n xs.length with hlong | hshort
  · rw [or_iff_right (Nat.not_le.mpr hlong), List.rtake]
    constructor
    · intro h i hi
      have hentry := congrArg (·[i]?) h
      simp only [List.getElem?_take, List.getElem?_drop] at hentry
      rw [if_pos (by omega), Nat.add_comm] at hentry
      exact hentry
    · intro h
      refine List.ext_getElem? fun i => ?_
      rw [List.getElem?_take, List.getElem?_drop]
      by_cases hi : i < n
      · rw [if_pos hi, Nat.add_comm]
        exact h i (by omega)
      · rw [if_neg hi, List.getElem?_eq_none (by omega)]
  · rw [List.take_of_length_le hshort, rtake_of_length_le hshort]
    exact iff_of_true rfl (Or.inl hshort)

end BoundedLog
