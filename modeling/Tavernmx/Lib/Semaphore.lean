/-
# `Tavernmx.Lib.Semaphore` — a binary semaphore

`release` may only be called while the count is 0.  A program that calls it all the
same is outside what the semaphore promises; here the count goes on, and
`overReleased` keeps that it happened.
-/
import Mathlib.Tactic.Common

structure BinarySemaphore where
  count : Nat
  overReleased : Bool
  deriving DecidableEq, Repr

namespace BinarySemaphore

def create : BinarySemaphore := ⟨0, false⟩

def release (s : BinarySemaphore) : BinarySemaphore :=
  ⟨s.count + 1, s.overReleased || decide (0 < s.count)⟩

/-- The semaphore after a successful attempt. -/
def tryAcquire (s : BinarySemaphore) : Option BinarySemaphore :=
  if 0 < s.count then some { s with count := s.count - 1 } else none

/-- Never released while it was not taken. -/
structure Sound (s : BinarySemaphore) : Prop where
  bound : s.count ≤ 1
  notOver : s.overReleased = false

theorem sound_create : create.Sound := ⟨Nat.zero_le 1, rfl⟩

@[simp] theorem count_release (s : BinarySemaphore) : s.release.count = s.count + 1 := rfl

theorem exists_tryAcquire {s : BinarySemaphore} (h : 0 < s.count) : ∃ s', s.tryAcquire = some s' :=
  ⟨_, if_pos h⟩

theorem pos_of_tryAcquire {s s' : BinarySemaphore} (h : s.tryAcquire = some s') : 0 < s.count :=
  (Option.ite_none_right_eq_some.mp h).1

theorem not_pos_of_tryAcquire {s : BinarySemaphore} (h : s.tryAcquire = none) : ¬ 0 < s.count := by
  intro hpos
  rw [tryAcquire, if_pos hpos] at h
  cases h

theorem Sound.release {s : BinarySemaphore} (h : s.Sound) (hzero : s.count = 0) :
    s.release.Sound := by
  refine ⟨?_, ?_⟩
  · exact Nat.le_of_eq (congrArg (· + 1) hzero)
  · rw [BinarySemaphore.release, h.notOver, hzero]
    rfl

/-- An attempt that succeeds leaves nothing of one release. -/
theorem Sound.tryAcquire {s s' : BinarySemaphore} (h : s.Sound) (hs' : s.tryAcquire = some s') :
    s'.Sound ∧ s.count = 1 ∧ s'.count = 0 := by
  rw [BinarySemaphore.tryAcquire, Option.ite_none_right_eq_some] at hs'
  obtain ⟨hpos, hs'⟩ := hs'
  have hbound := h.bound
  cases hs'
  exact ⟨⟨by simp only; omega, h.notOver⟩, by omega, by simp only; omega⟩

end BinarySemaphore
