/-
# `Tavernmx.Lib.Fallible` — steps that may fail, and the pure steps they refine

A program that takes one input after the other and may fail at any of them is a
`foldlM` in `Except`.  What it computes while it does not fail is often a pure
step on an abstraction of its state.  Two facts about one step are enough for
whole runs:

    Refines     a step that succeeds does what the pure step does
    GuardedBy   a step succeeds exactly when the guard holds of the abstraction

From them a run that succeeds does what the pure run does (`Refines.foldlM`),
and a run succeeds exactly when every input passes the guard in the abstract
state it meets (`GuardedBy.foldlM`).
-/
import Mathlib.Tactic.Common

namespace Fallible

variable {S A X E : Type}

/-- A step that succeeds keeps the relation to the pure step. -/
def Refines (rel : S → A → Prop) (f : S → X → Except E S) (g : A → X → A) : Prop :=
  ∀ ⦃s a x s'⦄, rel s a → f s x = .ok s' → rel s' (g a x)

/-- Whether a step succeeds can be told from the abstraction. -/
def GuardedBy (rel : S → A → Prop) (f : S → X → Except E S) (guard : A → X → Prop) : Prop :=
  ∀ ⦃s a x⦄, rel s a → ((∃ s', f s x = .ok s') ↔ guard a x)

/-- Every input passes the guard in the state it meets. -/
def Passes (guard : A → X → Prop) (g : A → X → A) : A → List X → Prop
  | _, [] => True
  | a, x :: xs => guard a x ∧ Passes guard g (g a x) xs

variable {rel : S → A → Prop} {f : S → X → Except E S} {g : A → X → A} {guard : A → X → Prop}

theorem isOk_iff {X : Type} {result : Except E X} : result.isOk = true ↔ ∃ x, result = .ok x := by
  cases result with
  | ok x => exact iff_of_true rfl ⟨x, rfl⟩
  | error e =>
      refine iff_of_false Bool.false_ne_true ?_
      rintro ⟨x, hx⟩
      cases hx

/-- Two steps succeed when the first does, and then the second. -/
theorem bind_ok {X Y : Type} {first : Except E X} {second : X → Except E Y} {y : Y} :
    first >>= second = .ok y ↔ ∃ x, first = .ok x ∧ second x = .ok y := by
  cases first with
  | ok x => simp [bind, Except.bind]
  | error e => simp [bind, Except.bind]

/-- The second step succeeds whatever the first has left. -/
theorem exists_bind_ok {X Y : Type} {first : Except E X} {second : X → Except E Y} {P Q : Prop}
    (hfirst : (∃ x, first = .ok x) ↔ P) (hsecond : ∀ x, (∃ y, second x = .ok y) ↔ Q) :
    (∃ y, first >>= second = .ok y) ↔ P ∧ Q := by
  rw [← hfirst]
  constructor
  · rintro ⟨y, hy⟩
    obtain ⟨x, hx, hy⟩ := bind_ok.mp hy
    exact ⟨⟨x, hx⟩, (hsecond x).mp ⟨y, hy⟩⟩
  · rintro ⟨⟨x, hx⟩, hQ⟩
    obtain ⟨y, hy⟩ := (hsecond x).mpr hQ
    exact ⟨y, bind_ok.mpr ⟨x, hx, hy⟩⟩

theorem foldlM_cons_ok {s s' : S} {x : X} {xs : List X} :
    (x :: xs).foldlM f s = .ok s' ↔ ∃ mid, f s x = .ok mid ∧ xs.foldlM f mid = .ok s' := by
  rw [List.foldlM_cons]
  exact bind_ok

theorem mapM_cons_ok {X Y : Type} {f : X → Except E Y} {x : X} {xs : List X} {ys : List Y} :
    (x :: xs).mapM f = .ok ys ↔
      ∃ y, f x = .ok y ∧ ∃ rest, xs.mapM f = .ok rest ∧ ys = y :: rest := by
  rw [List.mapM_cons]
  constructor
  · intro h
    obtain ⟨y, hy, h⟩ := bind_ok.mp h
    obtain ⟨rest, hrest, h⟩ := bind_ok.mp h
    cases h
    exact ⟨y, hy, rest, hrest, rfl⟩
  · rintro ⟨y, hy, rest, hrest, rfl⟩
    exact bind_ok.mpr ⟨y, hy, bind_ok.mpr ⟨rest, hrest, rfl⟩⟩

/-- A function of each element, where it has results. -/
theorem mapM_eq_map {X Y : Type} {f : X → Except E Y} {g : X → Y} {xs : List X}
    (h : ∀ x ∈ xs, f x = .ok (g x)) : xs.mapM f = .ok (xs.map g) := by
  induction xs with
  | nil => rfl
  | cons x xs ih =>
      have hrest := ih fun other hother => h other (List.mem_cons_of_mem x hother)
      exact mapM_cons_ok.mpr ⟨g x, h x List.mem_cons_self, xs.map g, hrest, rfl⟩

theorem mapM_ok_iff {X Y : Type} {f : X → Except E Y} {xs : List X} :
    (∃ ys, xs.mapM f = .ok ys) ↔ ∀ x ∈ xs, ∃ y, f x = .ok y := by
  induction xs with
  | nil => exact iff_of_true ⟨[], rfl⟩ fun x hx => absurd hx List.not_mem_nil
  | cons x xs ih =>
      rw [List.forall_mem_cons, ← ih]
      constructor
      · rintro ⟨ys, hys⟩
        obtain ⟨y, hy, rest, hrest, -⟩ := mapM_cons_ok.mp hys
        exact ⟨⟨y, hy⟩, rest, hrest⟩
      · rintro ⟨⟨y, hy⟩, rest, hrest⟩
        exact ⟨y :: rest, mapM_cons_ok.mpr ⟨y, hy, rest, hrest, rfl⟩⟩

/-- A run that succeeds does what the pure run does. -/
theorem Refines.foldlM (h : Refines rel f g) {s s' : S} {a : A} {xs : List X} (hrel : rel s a)
    (hrun : xs.foldlM f s = .ok s') : rel s' (xs.foldl g a) := by
  induction xs generalizing s a with
  | nil =>
      obtain rfl : s = s' := by simpa [pure, Except.pure] using hrun
      exact hrel
  | cons x xs ih =>
      obtain ⟨mid, hstep, hrest⟩ := foldlM_cons_ok.mp hrun
      exact ih (h hrel hstep) hrest

/-- A run succeeds exactly when every input passes the guard. -/
theorem GuardedBy.foldlM (hg : GuardedBy rel f guard) (h : Refines rel f g) {s : S} {a : A}
    (hrel : rel s a) (xs : List X) :
    (∃ s', xs.foldlM f s = .ok s') ↔ Passes guard g a xs := by
  induction xs generalizing s a with
  | nil => simp [Passes, pure, Except.pure]
  | cons x xs ih =>
      rw [Passes]
      constructor
      · rintro ⟨s', hrun⟩
        obtain ⟨mid, hstep, hrest⟩ := foldlM_cons_ok.mp hrun
        exact ⟨(hg hrel).mp ⟨mid, hstep⟩, (ih (h hrel hstep)).mp ⟨s', hrest⟩⟩
      · rintro ⟨hpass, hrest⟩
        obtain ⟨mid, hstep⟩ := (hg hrel).mpr hpass
        obtain ⟨s', hrun⟩ := (ih (h hrel hstep)).mpr hrest
        exact ⟨s', foldlM_cons_ok.mpr ⟨mid, hstep, hrun⟩⟩

end Fallible
