/-
# `Tavernmx.Lib.MaximalRuns` — the maximal runs of a list between delimiters

A list is cut at every occurrence of a delimiter, and the empty pieces are left
out.  `MaximalRuns` says what is left, without saying how it is found:

    gap ++ run ++ rest      a gap of delimiters, which may be empty,
                            a run without delimiters, which may not,
                            and a rest that is empty or starts with a delimiter

A list has one list of runs at most (`unique`).  The three lemmas on one element
more in front are what a recursion over the list needs to find it.
-/
import Mathlib.Data.List.Basic
import Mathlib.Tactic.Common

/-- These are the maximal runs of non-delimiters, in order. -/
inductive MaximalRuns {α : Type} (delimiter : α) : List α → List (List α) → Prop where
  | none {gap : List α} (hgap : ∀ c ∈ gap, c = delimiter) : MaximalRuns delimiter gap []
  | run {gap run rest : List α} {runs : List (List α)} (hgap : ∀ c ∈ gap, c = delimiter)
      (hne : run ≠ []) (hrun : delimiter ∉ run) (hend : ∀ c, rest.head? = some c → c = delimiter)
      (hrest : MaximalRuns delimiter rest runs) :
      MaximalRuns delimiter (gap ++ run ++ rest) (run :: runs)

namespace MaximalRuns

variable {α : Type} {delimiter c : α} {xs run : List α} {runs runs' : List (List α)}

/-! ## One element more -/

theorem cons_delimiter (h : MaximalRuns delimiter xs runs) :
    MaximalRuns delimiter (delimiter :: xs) runs := by
  cases h with
  | none hgap => exact .none (List.forall_mem_cons.mpr ⟨rfl, hgap⟩)
  | run hgap hne hrun hend hrest =>
      rw [← List.cons_append, ← List.cons_append]
      exact .run (List.forall_mem_cons.mpr ⟨rfl, hgap⟩) hne hrun hend hrest

theorem nil : MaximalRuns delimiter [] [] := .none fun _ hc => absurd hc List.not_mem_nil

/-- A run in front of nothing, or of a delimiter. -/
theorem append_run (hne : run ≠ []) (hrun : delimiter ∉ run)
    (hend : ∀ c, xs.head? = some c → c = delimiter) (h : MaximalRuns delimiter xs runs) :
    MaximalRuns delimiter (run ++ xs) (run :: runs) := by
  have hnone : ∀ c ∈ ([] : List α), c = delimiter := fun c hc => absurd hc List.not_mem_nil
  show MaximalRuns delimiter ([] ++ run ++ xs) (run :: runs)
  exact .run hnone hne hrun hend h

theorem of_run (hne : run ≠ []) (hrun : delimiter ∉ run) :
    MaximalRuns delimiter run [run] := by
  have hnil : MaximalRuns delimiter [] [] := nil
  have h := append_run hne hrun (fun c hc => by cases hc) hnil
  rwa [List.append_nil] at h

/-! ## What the runs are -/

/-- No run is empty, or contains the delimiter. -/
theorem of_mem (h : MaximalRuns delimiter xs runs) (hmem : run ∈ runs) :
    run ≠ [] ∧ delimiter ∉ run := by
  induction h with
  | none hgap => cases hmem
  | run hgap hne hrun hend hrest ih =>
      rcases List.mem_cons.mp hmem with rfl | hmem
      · exact ⟨hne, hrun⟩
      · exact ih hmem

theorem ne_nil_iff (h : MaximalRuns delimiter xs runs) :
    runs ≠ [] ↔ ∃ c ∈ xs, c ≠ delimiter := by
  cases h with
  | none hgap =>
      refine iff_of_false (fun hne => hne rfl) ?_
      rintro ⟨c, hc, hne⟩
      exact hne (hgap c hc)
  | @run gap run rest runs hgap hne hrun hend hrest =>
      obtain ⟨c, hc⟩ := List.exists_mem_of_ne_nil run hne
      refine iff_of_true (List.cons_ne_nil run runs) ⟨c, ?_, fun heq => hrun (heq ▸ hc)⟩
      exact List.mem_append_left rest (List.mem_append_right gap hc)

section Decidable
variable [DecidableEq α]

theorem filter_gap {gap : List α} (hgap : ∀ c ∈ gap, c = delimiter) :
    gap.filter (· ≠ delimiter) = [] := by
  rw [List.filter_eq_nil_iff]
  intro c hc
  simp [hgap c hc]

theorem filter_run (hrun : delimiter ∉ run) : run.filter (· ≠ delimiter) = run := by
  rw [List.filter_eq_self]
  intro c hc
  have hne : c ≠ delimiter := fun heq => hrun (heq ▸ hc)
  exact decide_eq_true hne

/-- The runs are all there is but the delimiters. -/
theorem flatten_eq (h : MaximalRuns delimiter xs runs) :
    runs.flatten = xs.filter (· ≠ delimiter) := by
  induction h with
  | none hgap =>
      rw [filter_gap hgap]
      rfl
  | run hgap hne hrun hend hrest ih =>
      rw [List.filter_append, List.filter_append, filter_gap hgap, filter_run hrun,
        List.nil_append, List.flatten_cons, ih]

/-- The first run starts with the first element that is no delimiter. -/
theorem head?_head? (h : MaximalRuns delimiter xs (run :: runs)) :
    run.head? = xs.find? (· ≠ delimiter) := by
  cases h with
  | @run gap _ rest _ hgap hne hrun hend hrest =>
      rw [← List.head?_filter, List.filter_append, List.filter_append, filter_gap hgap,
        filter_run hrun, List.nil_append, List.head?_append_of_ne_nil _ hne]

end Decidable

/-! ## Uniqueness -/

/-- A list of elements with a property, and then one without: where it ends is determined. -/
theorem append_cancel {p : α → Prop} {before before' after after' : List α}
    (hbefore : ∀ c ∈ before, p c) (hbefore' : ∀ c ∈ before', p c)
    (hafter : ∀ c, after.head? = some c → ¬ p c) (hafter' : ∀ c, after'.head? = some c → ¬ p c)
    (h : before ++ after = before' ++ after') : before = before' ∧ after = after' := by
  induction before generalizing before' with
  | nil =>
      cases before' with
      | nil => exact ⟨rfl, h⟩
      | cons c before' =>
          have hhead : after.head? = some c := by
            rw [List.nil_append] at h
            rw [h]
            rfl
          exact absurd (hbefore' c List.mem_cons_self) (hafter c hhead)
  | cons c before ih =>
      cases before' with
      | nil =>
          have hhead : after'.head? = some c := by
            rw [List.nil_append] at h
            rw [← h]
            rfl
          exact absurd (hbefore c List.mem_cons_self) (hafter' c hhead)
      | cons c' before' =>
          obtain ⟨rfl, hrest⟩ := List.cons.inj h
          obtain ⟨rfl, hafters⟩ := ih (fun x hx => hbefore x (List.mem_cons_of_mem c hx))
            (fun x hx => hbefore' x (List.mem_cons_of_mem c hx)) hrest
          exact ⟨rfl, hafters⟩

/-- A run starts with no delimiter, whatever follows it. -/
theorem head?_run (hne : run ≠ []) (hrun : delimiter ∉ run) :
    ∀ c, (run ++ xs).head? = some c → ¬ c = delimiter := by
  intro c hc
  rw [List.head?_append_of_ne_nil _ hne] at hc
  exact fun heq => hrun (heq ▸ List.mem_of_head? hc)

theorem unique (h : MaximalRuns delimiter xs runs) (h' : MaximalRuns delimiter xs runs') :
    runs = runs' := by
  induction h generalizing runs' with
  | @none gap hgap =>
      generalize hxs : gap = ys at h'
      cases h' with
      | none _ => rfl
      | @run gap' run rest runs hgap' hne hrun hend hrest =>
          -- the run would be in the gap
          obtain ⟨c, hc⟩ := List.exists_mem_of_ne_nil run hne
          have hmem : c ∈ gap := by
            rw [hxs]
            exact List.mem_append_left rest (List.mem_append_right gap' hc)
          exact absurd (hgap c hmem ▸ hc) hrun
  | @run gap run rest runs hgap hne hrun hend hrest ih =>
      generalize hxs : gap ++ run ++ rest = ys at h'
      cases h' with
      | none hgap' =>
          obtain ⟨c, hc⟩ := List.exists_mem_of_ne_nil run hne
          have hmem : c ∈ gap ++ run ++ rest :=
            List.mem_append_left rest (List.mem_append_right gap hc)
          rw [hxs] at hmem
          exact absurd (hgap' c hmem ▸ hc) hrun
      | @run gap' run' rest' runs' hgap' hne' hrun' hend' hrest' =>
          rw [List.append_assoc, List.append_assoc] at hxs
          obtain ⟨rfl, hruns⟩ := append_cancel hgap hgap' (head?_run hne hrun)
            (head?_run hne' hrun') hxs
          have hnot : ∀ {run : List α}, delimiter ∉ run → ∀ c ∈ run, ¬ c = delimiter :=
            fun hrun c hc heq => hrun (heq ▸ hc)
          obtain ⟨rfl, rfl⟩ := append_cancel (hnot hrun) (hnot hrun')
            (fun c hc => not_not_intro (hend c hc)) (fun c hc => not_not_intro (hend' c hc)) hruns
          rw [ih hrest']

end MaximalRuns
