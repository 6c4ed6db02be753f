/-
# `Tavernmx.Lib.Runs` — runs of a labelled system

A system has initial states and a step relation with labels.  A run takes steps
that also meet a condition `allowed`, which may look at the state before the
step; a theorem about the runs under a condition is a theorem about the system
as far as the condition goes.

An invariant is proved once, along `Reachable`: it holds initially and every
allowed step keeps it.  The step may use invariants proved before.

Where the steps can be executed, a run is given by its labels, and a state that
passes a test is found by evaluation (`exists_of_execute`).  Where a state is not
given, `LeadsTo` says that there is such a run from it.  A `Path` goes on from a state.
A rank bounds how many steps of a kind it has (`Path.countP_le`), and one that can
always fall leads to the goal (`Path.exists_of_rank`).

A system can be looked at through a smaller one that forgets part of its state.
When every step is matched by a step of the smaller system, or by none, what
holds of the reachable states of the smaller one can be used of the larger one
(`Reachable.simulate`).

What happened in a run need not be in its last state.  `recording` keeps what the
steps show beside the state, and changes nothing else (`recording_reachable_iff`).
-/
import Mathlib.Tactic.Common

structure LabelledSystem (S L : Type) where
  init : S → Prop
  step : S → L → S → Prop

namespace LabelledSystem

variable {S L : Type} (sys : LabelledSystem S L)

/-- The states of the runs whose steps are all allowed. -/
inductive Reachable (allowed : S → L → Prop) : S → Prop where
  | init {s : S} (h : sys.init s) : Reachable allowed s
  | step {s s' : S} (l : L) (h : Reachable allowed s) (hallowed : allowed s l)
      (hstep : sys.step s l s') : Reachable allowed s'

/-- No condition on the steps. -/
abbrev anyStep : S → L → Prop := fun _ _ => True

variable {sys} {allowed : S → L → Prop}

/-- **Invariants by induction on the run.** -/
@[elab_as_elim]
theorem Reachable.invariant {Inv : S → Prop} (hinit : ∀ s, sys.init s → Inv s)
    (hstep : ∀ s l s', sys.Reachable allowed s → Inv s → allowed s l → sys.step s l s' → Inv s')
    {s : S} (h : sys.Reachable allowed s) : Inv s := by
  induction h with
  | init h => exact hinit _ h
  | step l h hallowed hok ih => exact hstep _ l _ h ih hallowed hok

/-- A weaker condition has more runs. -/
theorem Reachable.mono {allowed' : S → L → Prop} (hle : ∀ s l, allowed s l → allowed' s l) {s : S}
    (h : sys.Reachable allowed s) : sys.Reachable allowed' s := by
  induction h with
  | init h => exact .init h
  | step l _ hallowed hstep ih => exact ih.step l (hle _ l hallowed) hstep

/-! ## Executing a run -/

section Execute

variable (allowed : S → L → Prop) [∀ s l, Decidable (allowed s l)] (exec : S → L → Option S)

/-- The labels one after the other, as long as each is allowed and can be executed. -/
def execute : List L → S → Option S
  | [], s => some s
  | l :: ls, s => if allowed s l then (exec s l).bind (execute ls) else none

variable {allowed exec}

/-- An execution of the steps is a run. -/
theorem Reachable.execute (hexec : ∀ s l s', exec s l = some s' → sys.step s l s') :
    ∀ {ls : List L} {s s' : S}, sys.Reachable allowed s →
      LabelledSystem.execute allowed exec ls s = some s' → sys.Reachable allowed s'
  | [], s, s', hs, h => by
      obtain rfl := Option.some.inj h
      exact hs
  | l :: ls, s, s', hs, h => by
      obtain ⟨hallowed, h⟩ := Option.ite_none_right_eq_some.mp h
      obtain ⟨mid, hmid, hrest⟩ := Option.bind_eq_some_iff.mp h
      exact Reachable.execute hexec (.step l hs hallowed (hexec s l mid hmid)) hrest

variable (sys) (allowed) in
/-- An execution that passes a test ends in a reachable state that passes it. -/
theorem exists_of_execute (hexec : ∀ s l s', exec s l = some s' → sys.step s l s') {s : S}
    (hs : sys.init s) (ls : List L) (test : S → Bool)
    (h : (LabelledSystem.execute allowed exec ls s).any test = true) :
    ∃ s', sys.Reachable allowed s' ∧ test s' = true := by
  cases hrun : LabelledSystem.execute allowed exec ls s with
  | none =>
      rw [hrun] at h
      cases h
  | some s' =>
      rw [hrun] at h
      exact ⟨s', Reachable.execute hexec (.init hs) hrun, h⟩

end Execute

/-- Some execution from the state leads to one with the property. -/
inductive LeadsTo (exec : S → L → Option S) (P : S → Prop) : S → Prop where
  | here {s : S} (h : P s) : LeadsTo exec P s
  | step {s : S} (l : L) (s' : S) (hexec : exec s l = some s') (h : LeadsTo exec P s') :
      LeadsTo exec P s

/-! ## From a state on -/

variable (sys) (allowed) in
/-- The labels lead from the one state to the other. -/
inductive Path : S → List L → S → Prop where
  | nil (s : S) : Path s [] s
  | cons {s mid s' : S} {l : L} {ls : List L} (hallowed : allowed s l) (hstep : sys.step s l mid)
      (h : Path mid ls s') : Path s (l :: ls) s'

theorem Reachable.path {s s' : S} {ls : List L} (h : sys.Reachable allowed s)
    (hpath : sys.Path allowed s ls s') : sys.Reachable allowed s' := by
  induction hpath with
  | nil s => exact h
  | cons hallowed hstep _ ih => exact ih (h.step _ hallowed hstep)

theorem Path.mono {allowed' : S → L → Prop} (hle : ∀ s l, allowed s l → allowed' s l) {s s' : S}
    {ls : List L} (h : sys.Path allowed s ls s') : sys.Path allowed' s ls s' := by
  induction h with
  | nil s => exact .nil s
  | cons hallowed hstep _ ih => exact .cons (hle _ _ hallowed) hstep ih

theorem Path.append {s mid s' : S} {ls ls' : List L} (h : sys.Path allowed s ls mid)
    (h' : sys.Path allowed mid ls' s') : sys.Path allowed s (ls ++ ls') s' := by
  induction h with
  | nil s => exact h'
  | cons hallowed hstep _ ih => exact .cons hallowed hstep (ih h')

/-- A path of one system is one of another that sees less of it. -/
theorem Path.map {T M : Type} {sys' : LabelledSystem T M} (f : S → T) (g : L → M)
    (hstep : ∀ s l s', sys.step s l s' → sys'.step (f s) (g l) (f s')) {s s' : S} {ls : List L}
    (h : sys.Path allowed s ls s') : sys'.Path anyStep (f s) (ls.map g) (f s') := by
  induction h with
  | nil s => exact .nil _
  | cons _ hok _ ih => exact .cons trivial (hstep _ _ _ hok) ih

theorem Path.of_execute [∀ s l, Decidable (allowed s l)] {exec : S → L → Option S}
    (hexec : ∀ s l s', exec s l = some s' → sys.step s l s') :
    ∀ {ls : List L} {s s' : S}, LabelledSystem.execute allowed exec ls s = some s' →
      sys.Path allowed s ls s'
  | [], s, s', h => by
      obtain rfl := Option.some.inj h
      exact .nil s
  | l :: ls, s, s', h => by
      obtain ⟨hallowed, h⟩ := Option.ite_none_right_eq_some.mp h
      obtain ⟨mid, hmid, hrest⟩ := Option.bind_eq_some_iff.mp h
      exact .cons hallowed (hexec s l mid hmid) (Path.of_execute hexec hrest)

/-- **A rank that can fall has an end.**  If from every other state some path takes the rank
down, some path leads to the goal. -/
theorem Path.exists_of_rank {Inv Goal : S → Prop} {rank : S → Nat}
    (hprogress : ∀ s, Inv s → Goal s ∨
      ∃ ls s', sys.Path allowed s ls s' ∧ Inv s' ∧ rank s' < rank s)
    {s : S} (hs : Inv s) : ∃ ls s', sys.Path allowed s ls s' ∧ Inv s' ∧ Goal s' := by
  induction hrank : rank s using Nat.strongRecOn generalizing s with
  | _ k ih =>
      rcases hprogress s hs with hgoal | ⟨ls, mid, hpath, hmid, hlt⟩
      · exact ⟨[], s, .nil s, hs, hgoal⟩
      · obtain ⟨ls', s', hpath', hs', hgoal⟩ := ih (rank mid) (hrank ▸ hlt) hmid rfl
        exact ⟨ls ++ ls', s', hpath.append hpath', hs', hgoal⟩

/-- **A rank bounds how often.**  The counted steps take it down, and no step takes it up. -/
theorem Path.countP_le {Inv : S → Prop} {rank : S → Nat} {counted : L → Bool}
    (hstep : ∀ s l s', Inv s → allowed s l → sys.step s l s' →
      Inv s' ∧ rank s' + (if counted l then 1 else 0) ≤ rank s)
    {s s' : S} {ls : List L} (h : sys.Path allowed s ls s') (hs : Inv s) :
    Inv s' ∧ rank s' + ls.countP counted ≤ rank s := by
  induction h with
  | nil s => exact ⟨hs, Nat.le_refl _⟩
  | @cons s mid s' l ls hallowed hok _ ih =>
      obtain ⟨hmid, hrank⟩ := hstep s l mid hs hallowed hok
      obtain ⟨hs', hrest⟩ := ih hmid
      refine ⟨hs', ?_⟩
      rw [List.countP_cons]
      omega

/-! ## Simulation -/

variable {T M : Type} {sys' : LabelledSystem T M} {allowed' : T → M → Prop}

/-- **Simulation.**  `rel` is kept, and each step is matched by one step of the
other system or by none. -/
theorem Reachable.simulate {rel : S → T → Prop}
    (hinit : ∀ s, sys.init s → ∃ t, rel s t ∧ sys'.init t)
    (hstep : ∀ s l s' t, sys.Reachable allowed s → rel s t → allowed s l → sys.step s l s' →
      rel s' t ∨ ∃ m t', rel s' t' ∧ allowed' t m ∧ sys'.step t m t')
    {s : S} (h : sys.Reachable allowed s) : ∃ t, rel s t ∧ sys'.Reachable allowed' t := by
  induction h with
  | init h =>
      obtain ⟨t, hrel, ht⟩ := hinit _ h
      exact ⟨t, hrel, .init ht⟩
  | step l h hallowed hok ih =>
      obtain ⟨t, hrel, ht⟩ := ih
      rcases hstep _ l _ t h hrel hallowed hok with hsame | ⟨m, t', hrel', hallowed', hok'⟩
      · exact ⟨t, hsame, ht⟩
      · exact ⟨t', hrel', .step m ht hallowed' hok'⟩

/-! ## Records -/

section Record

variable {O : Type}

/-- The system with a record of what its steps show. -/
def recording (sys : LabelledSystem S L) (observe : S → L → List O) :
    LabelledSystem (S × List O) L where
  init s := sys.init s.1 ∧ s.2 = []
  step s l s' := sys.step s.1 l s'.1 ∧ s'.2 = s.2 ++ observe s.1 l

variable {observe : S → L → List O} {record : List O}

/-- A step, and what it shows. -/
theorem Reachable.extend {allowed' : S × List O → L → Prop} {s s' : S}
    (h : (recording sys observe).Reachable allowed' (s, record)) (l : L)
    (hallowed : allowed' (s, record) l) (hstep : sys.step s l s') :
    (recording sys observe).Reachable allowed' (s', record ++ observe s l) :=
  h.step l hallowed ⟨hstep, rfl⟩

theorem Reachable.forget {s : S × List O}
    (h : (recording sys observe).Reachable (fun s => allowed s.1) s) :
    sys.Reachable allowed s.1 := by
  induction h with
  | init h => exact .init h.1
  | step l _ hallowed hstep ih => exact ih.step l hallowed hstep.1

theorem Reachable.recorded {s : S} (h : sys.Reachable allowed s) :
    ∃ record, (recording sys observe).Reachable (fun s => allowed s.1) (s, record) := by
  induction h with
  | init h => exact ⟨[], .init ⟨h, rfl⟩⟩
  | @step s s' l _ hallowed hstep ih =>
      obtain ⟨record, hrecord⟩ := ih
      exact ⟨record ++ observe s l, hrecord.step l hallowed ⟨hstep, rfl⟩⟩

/-- The record disturbs nothing. -/
theorem recording_reachable_iff {s : S} :
    (∃ record, (recording sys observe).Reachable (fun s => allowed s.1) (s, record)) ↔
      sys.Reachable allowed s :=
  ⟨fun ⟨_, h⟩ => h.forget, Reachable.recorded⟩

end Record

end LabelledSystem
