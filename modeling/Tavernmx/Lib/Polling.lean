/-
# `Tavernmx.Lib.Polling` — looking again and again until something is there

A loop that looks, returns what it sees, and otherwise looks again as long as a
condition holds that is tested after the look.  What it looks at is a list that
the surroundings choose, so `poll` has no result while every look was in vain and
every test told it to go on.

Each of the three ways in which the loop can stand is characterised by the looks
alone (`poll_eq_found_iff`, `poll_eq_gaveUp_iff`, `poll_eq_none_iff`).
-/
import Mathlib.Tactic.Common

namespace Polling

variable {X R : Type}

/-- The loop, over what it looks at: `some (some r)` when it has returned with `r`,
`some none` when it was told to stop. -/
def poll (look : X → Option R) (goOn : X → Bool) : List X → Option (Option R)
  | [] => none
  | x :: xs =>
    match look x with
    | some r => some (some r)
    | none => if goOn x then poll look goOn xs else some none

/-- A look in vain, after which the loop goes on. -/
def InVain (look : X → Option R) (goOn : X → Bool) (x : X) : Prop :=
  look x = none ∧ goOn x = true

variable {look : X → Option R} {goOn : X → Bool} {xs : List X} {r : R}

theorem poll_of_inVain {x : X} (h : InVain look goOn x) (xs : List X) :
    poll look goOn (x :: xs) = poll look goOn xs := by
  simp only [poll, h.1, h.2, if_true]

theorem poll_append_of_inVain {earlier : List X} (h : ∀ x ∈ earlier, InVain look goOn x)
    (later : List X) : poll look goOn (earlier ++ later) = poll look goOn later := by
  induction earlier with
  | nil => rfl
  | cons x earlier ih =>
      obtain ⟨hx, hearlier⟩ := List.forall_mem_cons.mp h
      rw [List.cons_append, poll_of_inVain hx, ih hearlier]

/-- Either all looks are in vain, or there is a first one that is not. -/
theorem inVain_or_first (look : X → Option R) (goOn : X → Bool) (xs : List X) :
    (∀ x ∈ xs, InVain look goOn x) ∨
      ∃ earlier x later, xs = earlier ++ x :: later ∧
        (∀ y ∈ earlier, InVain look goOn y) ∧ ¬ InVain look goOn x := by
  induction xs with
  | nil => exact .inl fun x hx => absurd hx List.not_mem_nil
  | cons x xs ih =>
      by_cases hx : InVain look goOn x
      · rcases ih with hall | ⟨earlier, y, later, rfl, hearlier, hy⟩
        · exact .inl (List.forall_mem_cons.mpr ⟨hx, hall⟩)
        · exact .inr ⟨x :: earlier, y, later, rfl, List.forall_mem_cons.mpr ⟨hx, hearlier⟩, hy⟩
      · exact .inr ⟨[], x, xs, rfl, (fun y hy => absurd hy List.not_mem_nil), hx⟩

/-- The first look that is not in vain decides. -/
theorem poll_of_first {x : X} (h : ¬ InVain look goOn x) (xs : List X) :
    poll look goOn (x :: xs) = some (look x) := by
  rw [poll]
  cases hlook : look x with
  | some r => rfl
  | none =>
      have hstop : goOn x = false := by
        cases hgo : goOn x with
        | false => rfl
        | true => exact absurd ⟨hlook, hgo⟩ h
      simp only [hstop, Bool.false_eq_true, if_false]

/-- **The loop returns what the first successful look sees**, when it went on until then. -/
theorem poll_eq_found_iff : poll look goOn xs = some (some r) ↔
    ∃ earlier x later, xs = earlier ++ x :: later ∧
      (∀ y ∈ earlier, InVain look goOn y) ∧ look x = some r := by
  constructor
  · intro h
    rcases inVain_or_first look goOn xs with hall | ⟨earlier, x, later, rfl, hearlier, hx⟩
    · rw [← List.append_nil xs, poll_append_of_inVain hall] at h
      cases h
    · rw [poll_append_of_inVain hearlier, poll_of_first hx] at h
      exact ⟨earlier, x, later, rfl, hearlier, Option.some.inj h⟩
  · rintro ⟨earlier, x, later, rfl, hearlier, hlook⟩
    rw [poll_append_of_inVain hearlier, poll, hlook]

/-- **It gives up at the first test that fails**, when every look up to it was in vain. -/
theorem poll_eq_gaveUp_iff : poll look goOn xs = some none ↔
    ∃ earlier x later, xs = earlier ++ x :: later ∧
      (∀ y ∈ earlier, InVain look goOn y) ∧ look x = none ∧ goOn x = false := by
  constructor
  · intro h
    rcases inVain_or_first look goOn xs with hall | ⟨earlier, x, later, rfl, hearlier, hx⟩
    · rw [← List.append_nil xs, poll_append_of_inVain hall] at h
      cases h
    · rw [poll_append_of_inVain hearlier, poll_of_first hx] at h
      have hlook : look x = none := Option.some.inj h
      refine ⟨earlier, x, later, rfl, hearlier, hlook, ?_⟩
      exact Bool.eq_false_iff.mpr fun hgo => hx ⟨hlook, hgo⟩
  · rintro ⟨earlier, x, later, rfl, hearlier, hlook, hgo⟩
    rw [poll_append_of_inVain hearlier, poll, hlook]
    simp only [hgo, Bool.false_eq_true, if_false]

/-- **It is still looking exactly while every look was in vain.** -/
theorem poll_eq_none_iff : poll look goOn xs = none ↔ ∀ x ∈ xs, InVain look goOn x := by
  constructor
  · intro h
    rcases inVain_or_first look goOn xs with hall | ⟨earlier, x, later, rfl, hearlier, hx⟩
    · exact hall
    · rw [poll_append_of_inVain hearlier, poll_of_first hx] at h
      cases h
  · intro h
    rw [← List.append_nil xs, poll_append_of_inVain h]
    rfl

end Polling
