/-
# `Tavernmx.Lib.Traversal` — loops from one position to another

A loop `for (; pos != stop; ++pos) use(*pos)` over positions of any type.
`loop` runs it for so many rounds; `Visits` is the same as a relation, which
holds only of loops that end.  `Visits.loop_eq` is the bridge: a proof builds
the visit, one position after the other, and reads off what the loop computes.
-/
import Mathlib.Tactic.Common

namespace Traversal

variable {P T : Type}

section

variable [DecidableEq P]

/-- The values that the loop reads; `none` when a position cannot be read, or when
`stop` is not reached within `rounds` rounds. -/
def loop (advance : P → P) (read : P → Option T) (stop : P) : Nat → P → Option (List T)
  | 0, pos => if pos = stop then some [] else none
  | rounds + 1, pos =>
    if pos = stop then some []
    else (read pos).bind fun value => (loop advance read stop rounds (advance pos)).map (value :: ·)

end

/-- The loop from a position reads these values, and reaches `stop`. -/
inductive Visits (advance : P → P) (read : P → Option T) (stop : P) : P → List T → Prop where
  | done : Visits advance read stop stop []
  | more {pos : P} {value : T} {values : List T} (hne : pos ≠ stop) (hread : read pos = some value)
      (hrest : Visits advance read stop (advance pos) values) :
      Visits advance read stop pos (value :: values)

variable [DecidableEq P] {advance : P → P} {read : P → Option T} {stop : P}

theorem Visits.loop_eq {pos : P} {values : List T} (h : Visits advance read stop pos values)
    {rounds : Nat} (hrounds : values.length ≤ rounds) :
    loop advance read stop rounds pos = some values := by
  induction h generalizing rounds with
  | done => cases rounds <;> exact if_pos rfl
  | more hne hread _ ih =>
      cases rounds with
      | zero => exact absurd hrounds (by simp)
      | succ rounds =>
          have hrest := ih (Nat.le_of_succ_le_succ hrounds)
          rw [loop, if_neg hne, hread, Option.bind_some, hrest, Option.map_some]

end Traversal
