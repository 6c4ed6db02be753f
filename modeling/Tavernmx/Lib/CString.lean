/-
# `Tavernmx.Lib.CString` — terminated strings in arrays of a fixed size

An array has as many places as were allocated, and a place that was not written
has no value.  Writing is defined inside the array only, reading only where
something was written; so a function on such arrays has a result exactly when it
stays inside.

`strcpy` writes one place more than the string is long, for the terminator.  Both
its lemmas look at the array as a part that is kept and a rest that is written to:
the rest is longer than the string (`strcpy_fits`), or there is no result
(`strcpy_overflows`).
-/
import Mathlib.Data.List.Basic
import Mathlib.Tactic.Common

namespace CString

variable {α : Type}

/-- An array, with `none` for a place that was not written. -/
abbrev Chars (α : Type) := List (Option α)

/-- `new char[size]`. -/
def alloc (size : Nat) : Chars α := List.replicate size none

def write (a : Chars α) (i : Nat) (c : α) : Option (Chars α) :=
  if i < a.length then some (a.set i (some c)) else none

/-- A string in front of its terminator. -/
def terminated (nul : α) (source : List α) : Chars α := source.map some ++ [some nul]

theorem write_append (kept rest : Chars α) (old : Option α) (c : α) :
    write (kept ++ old :: rest) kept.length c = some (kept ++ some c :: rest) := by
  rw [write, if_pos (by simp), List.set_append_right _ _ (Nat.le_refl _), Nat.sub_self]
  rfl

theorem write_end (kept : Chars α) (c : α) : write kept kept.length c = none :=
  if_neg (Nat.lt_irrefl _)

/-- The first place of a new array. -/
theorem write_alloc (size : Nat) (c : α) :
    write (alloc (size + 1)) 0 c = some ([some c] ++ alloc size) := by
  rw [alloc, List.replicate_succ]
  exact write_append [] (alloc size) none c

variable [DecidableEq α] (nul : α)

/-- Copies the string to the place at `offset`, up to its first terminator. -/
def strcpy (a : Chars α) (offset : Nat) : List α → Option (Chars α)
  | [] => write a offset nul
  | c :: rest =>
    if c = nul then write a offset nul
    else (write a offset c).bind fun a => strcpy a (offset + 1) rest

/-- The string that starts at the first place. -/
def scan : Chars α → Option (List α)
  | some c :: rest => if c = nul then some [] else (scan rest).map (c :: ·)
  | _ => none

/-- The string that starts at `offset`. -/
def scanAt (a : Chars α) (offset : Nat) : Option (List α) := scan nul (a.drop offset)

variable {nul} {source : List α}

/-- The string fits, and its terminator. -/
theorem strcpy_fits (kept rest : Chars α) (hnul : nul ∉ source)
    (hfits : source.length < rest.length) :
    strcpy nul (kept ++ rest) kept.length source
      = some (kept ++ terminated nul source ++ rest.drop (source.length + 1)) := by
  induction source generalizing kept rest with
  | nil =>
      obtain ⟨old, rest, rfl⟩ := List.exists_cons_of_length_pos hfits
      rw [strcpy, write_append]
      simp [terminated]
  | cons c source ih =>
      obtain ⟨old, rest, rfl⟩ := List.exists_cons_of_length_pos (Nat.zero_lt_of_lt hfits)
      obtain ⟨hc, hnul'⟩ := not_or.mp (List.mem_cons.not.mp hnul)
      have hnext := ih (kept ++ [some c]) rest hnul' (Nat.lt_of_succ_lt_succ hfits)
      rw [List.length_append, List.length_singleton] at hnext
      rw [strcpy, if_neg (Ne.symm hc), write_append, Option.bind_some, List.append_cons, hnext]
      simp [terminated]

/-- There is no place for the terminator. -/
theorem strcpy_overflows (kept rest : Chars α) (hnul : nul ∉ source)
    (hover : rest.length ≤ source.length) :
    strcpy nul (kept ++ rest) kept.length source = none := by
  induction source generalizing kept rest with
  | nil =>
      obtain rfl := List.eq_nil_of_length_eq_zero (Nat.le_zero.mp hover)
      rw [strcpy, List.append_nil, write_end]
  | cons c source ih =>
      obtain ⟨hc, hnul'⟩ := not_or.mp (List.mem_cons.not.mp hnul)
      rw [strcpy, if_neg (Ne.symm hc)]
      cases rest with
      | nil => rw [List.append_nil, write_end, Option.bind_none]
      | cons old rest =>
          have hnext := ih (kept ++ [some c]) rest hnul' (Nat.le_of_succ_le_succ hover)
          rw [List.length_append, List.length_singleton] at hnext
          rw [write_append, Option.bind_some, List.append_cons, hnext]

/-- Reading finds the string that was written. -/
theorem scan_terminated (hnul : nul ∉ source) (rest : Chars α) :
    scan nul (terminated nul source ++ rest) = some source := by
  induction source with
  | nil => simp [terminated, scan]
  | cons c source ih =>
      obtain ⟨hc, hnul'⟩ := not_or.mp (List.mem_cons.not.mp hnul)
      have hnext := ih hnul'
      show scan nul (some c :: (terminated nul source ++ rest)) = _
      rw [scan, if_neg (Ne.symm hc), hnext]
      rfl

end CString
