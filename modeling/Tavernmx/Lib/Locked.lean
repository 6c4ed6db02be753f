/-
# `Tavernmx.Lib.Locked` — an object behind a mutex

Threads call the operations of one object.  An operation takes the mutex, runs its
body statement by statement, gives the mutex back and returns.

    idle ──call──▸ calling ──lock──▸ inside ──statements──▸ leaving ──unlock──▸ returning
      ▴                                                                            │
      └────────────────────────────────────back────────────────────────────────────┘

Whoever uses the object wants to forget all this: in `atomic` an operation happens at
once, at some time between its call and its return.  `linearizable` is that the calls
and returns of the first system are calls and returns of the second, if every body
does what it should when nobody interrupts it.  And threads that wait for the mutex do
not wait for each other (`exists_step`).
-/
import Mathlib.Logic.Function.Basic
import Tavernmx.Lib.Runs

/-- The bodies of the operations: where they begin, and what a statement does. -/
structure LockedObject (Obj Op Loc Res : Type) where
  enter : Op → Loc
  run : Loc → Obj → Obj × (Loc ⊕ Res)

namespace LockedObject

variable {Obj Op Loc Res Thread : Type}

/-- A body from some place to its end. -/
inductive Runs (code : LockedObject Obj Op Loc Res) : Loc → Obj → Obj × Res → Prop where
  | returns {l : Loc} {o o' : Obj} {r : Res} (hrun : code.run l o = (o', .inr r)) :
      Runs code l o (o', r)
  | goesOn {l l' : Loc} {o mid : Obj} {out : Obj × Res} (hrun : code.run l o = (mid, .inl l'))
      (h : Runs code l' mid out) : Runs code l o out

inductive Event (Op Res Thread : Type) where
  | call (t : Thread) (op : Op)
  | lock (t : Thread)
  | statement (t : Thread)
  | unlock (t : Thread)
  | back (t : Thread) (r : Res)

/-- What a thread sees of the object. -/
inductive Visible (Op Res Thread : Type) where
  | call (t : Thread) (op : Op)
  | back (t : Thread) (r : Res)

/-! ## With the mutex -/

inductive Place (Op Loc Res : Type) where
  | idle
  | calling (op : Op)
  | inside (l : Loc)
  /-- The body is over, and the mutex not given back. -/
  | leaving (r : Res)
  | returning (r : Res)

structure Shared (Obj Op Loc Res Thread : Type) where
  object : Obj
  holder : Option Thread
  place : Thread → Place Op Loc Res

section Steps

variable [DecidableEq Thread]

def Shared.move (s : Shared Obj Op Loc Res Thread) (t : Thread) (place : Place Op Loc Res) :
    Shared Obj Op Loc Res Thread :=
  { s with place := Function.update s.place t place }

inductive Step (code : LockedObject Obj Op Loc Res) :
    Shared Obj Op Loc Res Thread → Event Op Res Thread → Shared Obj Op Loc Res Thread → Prop where
  | call {s : Shared Obj Op Loc Res Thread} (t : Thread) (op : Op) (hidle : s.place t = .idle) :
      Step code s (.call t op) (s.move t (.calling op))
  | lock {s : Shared Obj Op Loc Res Thread} {t : Thread} {op : Op}
      (hcalling : s.place t = .calling op) (hfree : s.holder = none) :
      Step code s (.lock t) { s.move t (.inside (code.enter op)) with holder := some t }
  | goesOn {s : Shared Obj Op Loc Res Thread} {t : Thread} {l l' : Loc} {o : Obj}
      (hinside : s.place t = .inside l) (hrun : code.run l s.object = (o, .inl l')) :
      Step code s (.statement t) { s.move t (.inside l') with object := o }
  | finishes {s : Shared Obj Op Loc Res Thread} {t : Thread} {l : Loc} {o : Obj} {r : Res}
      (hinside : s.place t = .inside l) (hrun : code.run l s.object = (o, .inr r)) :
      Step code s (.statement t) { s.move t (.leaving r) with object := o }
  | unlock {s : Shared Obj Op Loc Res Thread} {t : Thread} {r : Res}
      (hleaving : s.place t = .leaving r) :
      Step code s (.unlock t) { s.move t (.returning r) with holder := none }
  | back {s : Shared Obj Op Loc Res Thread} {t : Thread} {r : Res}
      (hreturning : s.place t = .returning r) : Step code s (.back t r) (s.move t .idle)

/-- The threads, with an object that nobody has called. -/
def locked (code : LockedObject Obj Op Loc Res) (Thread : Type) [DecidableEq Thread] (object : Obj) :
    LabelledSystem (Shared Obj Op Loc Res Thread) (Event Op Res Thread) where
  init s := s = ⟨object, none, fun _ => .idle⟩
  step := Step code

def visible (_ : Shared Obj Op Loc Res Thread) : Event Op Res Thread → List (Visible Op Res Thread)
  | .call t op => [.call t op]
  | .back t r => [.back t r]
  | .lock _ | .statement _ | .unlock _ => []

end Steps

/-! ## At once -/

inductive AtomicPlace (Op Res : Type) where
  | idle
  | calling (op : Op)
  | returning (r : Res)

structure Atomic (Obj Op Res Thread : Type) where
  object : Obj
  place : Thread → AtomicPlace Op Res

inductive AtomicEvent (Op Res Thread : Type) where
  | call (t : Thread) (op : Op)
  | effect (t : Thread)
  | back (t : Thread) (r : Res)

section Atomic

variable [DecidableEq Thread]

def Atomic.move (a : Atomic Obj Op Res Thread) (t : Thread) (place : AtomicPlace Op Res) :
    Atomic Obj Op Res Thread :=
  { a with place := Function.update a.place t place }

@[simp] theorem Atomic.move_object (a : Atomic Obj Op Res Thread) (t : Thread)
    (place : AtomicPlace Op Res) : (a.move t place).object = a.object := rfl

@[simp] theorem Atomic.move_self (a : Atomic Obj Op Res Thread) (t : Thread)
    (place : AtomicPlace Op Res) : (a.move t place).place t = place := Function.update_self ..

theorem Atomic.move_of_ne (a : Atomic Obj Op Res Thread) {t u : Thread}
    (place : AtomicPlace Op Res) (h : u ≠ t) : (a.move t place).place u = a.place u :=
  Function.update_of_ne h ..

inductive AtomicStep (spec : Op → Obj → Obj × Res) :
    Atomic Obj Op Res Thread → AtomicEvent Op Res Thread → Atomic Obj Op Res Thread → Prop where
  | call {a : Atomic Obj Op Res Thread} (t : Thread) (op : Op) (hidle : a.place t = .idle) :
      AtomicStep spec a (.call t op) (a.move t (.calling op))
  | effect {a : Atomic Obj Op Res Thread} {t : Thread} {op : Op}
      (hcalling : a.place t = .calling op) :
      AtomicStep spec a (.effect t)
        { a.move t (.returning (spec op a.object).2) with object := (spec op a.object).1 }
  | back {a : Atomic Obj Op Res Thread} {t : Thread} {r : Res}
      (hreturning : a.place t = .returning r) : AtomicStep spec a (.back t r) (a.move t .idle)

def atomic (spec : Op → Obj → Obj × Res) (Thread : Type) [DecidableEq Thread] (object : Obj) :
    LabelledSystem (Atomic Obj Op Res Thread) (AtomicEvent Op Res Thread) where
  init a := a = ⟨object, fun _ => .idle⟩
  step := AtomicStep spec

def atomicVisible (_ : Atomic Obj Op Res Thread) :
    AtomicEvent Op Res Thread → List (Visible Op Res Thread)
  | .call t op => [.call t op]
  | .back t r => [.back t r]
  | .effect _ => []

end Atomic

/-! ## The one is the other -/

/-- The place of one thread in both: until its body is over its operation has not happened. -/
inductive Matches (code : LockedObject Obj Op Loc Res) (spec : Op → Obj → Obj × Res)
    (now before : Obj) : Place Op Loc Res → AtomicPlace Op Res → Prop where
  | idle : Matches code spec now before .idle .idle
  | calling (op : Op) : Matches code spec now before (.calling op) (.calling op)
  | inside {l : Loc} {op : Op} (hruns : code.Runs l now (spec op before)) :
      Matches code spec now before (.inside l) (.calling op)
  | leaving (r : Res) : Matches code spec now before (.leaving r) (.returning r)
  | returning (r : Res) : Matches code spec now before (.returning r) (.returning r)

def Place.Holds : Place Op Loc Res → Prop
  | .inside _ | .leaving _ => True
  | .idle | .calling _ | .returning _ => False

structure Linearized (code : LockedObject Obj Op Loc Res) (spec : Op → Obj → Obj × Res)
    (s : Shared Obj Op Loc Res Thread) (a : Atomic Obj Op Res Thread) : Prop where
  holder : ∀ t, s.holder = some t ↔ (s.place t).Holds
  places : ∀ t, Matches code spec s.object a.object (s.place t) (a.place t)
  object : (∀ t l, s.place t ≠ .inside l) → a.object = s.object

variable {code : LockedObject Obj Op Loc Res} {spec : Op → Obj → Obj × Res}
  {now now' before before' : Obj} {place : Place Op Loc Res} {place' : AtomicPlace Op Res}

/-- A thread that is not in a body sees nothing of the object. -/
theorem Matches.elsewhere (h : Matches code spec now before place place')
    (hplace : ∀ l, place ≠ .inside l) : Matches code spec now' before' place place' := by
  cases h with
  | idle => exact .idle
  | calling op => exact .calling op
  | inside _ => exact (hplace _ rfl).elim
  | leaving r => exact .leaving r
  | returning r => exact .returning r

/-- A body ends as it should. -/
theorem Runs.next {l l' : Loc} {o mid : Obj} {out : Obj × Res} (h : code.Runs l o out)
    (hrun : code.run l o = (mid, .inl l')) : code.Runs l' mid out := by
  cases h with
  | returns hrun' => cases (Prod.mk.inj (hrun.symm.trans hrun')).2
  | goesOn hrun' hrest =>
      obtain ⟨rfl, hl⟩ := Prod.mk.inj (hrun.symm.trans hrun')
      obtain rfl := Sum.inl.inj hl
      exact hrest

theorem Runs.result {l : Loc} {o o' : Obj} {r : Res} {out : Obj × Res} (h : code.Runs l o out)
    (hrun : code.run l o = (o', .inr r)) : out = (o', r) := by
  cases h with
  | returns hrun' =>
      obtain ⟨rfl, hr⟩ := Prod.mk.inj (hrun.symm.trans hrun')
      rw [Sum.inr.inj hr]
  | goesOn hrun' _ => cases (Prod.mk.inj (hrun.symm.trans hrun')).2

section Simulation

variable {s s' : Shared Obj Op Loc Res Thread} {a : Atomic Obj Op Res Thread} {t : Thread}

/-- Two threads are never in a body. -/
theorem Linearized.alone (h : Linearized code spec s a) (hholds : (s.place t).Holds) {u : Thread}
    (hu : u ≠ t) (l : Loc) : s.place u ≠ .inside l := by
  intro hinside
  have ht := (h.holder t).mpr hholds
  have hholder := (h.holder u).mpr (by rw [hinside]; trivial)
  exact hu (Option.some.inj (hholder.symm.trans ht))

theorem Linearized.nobody (h : Linearized code spec s a) (hfree : s.holder = none) (t : Thread)
    (l : Loc) : s.place t ≠ .inside l := by
  intro hinside
  have hholder := (h.holder t).mpr (by rw [hinside]; trivial)
  cases hfree.symm.trans hholder

variable [DecidableEq Thread]

theorem holds_move {holder holder' : Option Thread} {places : Thread → Place Op Loc Res}
    (h : ∀ u, holder = some u ↔ (places u).Holds) (ht : holder' = some t ↔ place.Holds)
    (hothers : ∀ u, u ≠ t → (holder' = some u ↔ holder = some u)) (u : Thread) :
    holder' = some u ↔ (Function.update places t place u).Holds := by
  by_cases hu : u = t
  · rw [hu, Function.update_self]
    exact ht
  · rw [Function.update_of_ne hu]
    exact (hothers u hu).trans (h u)

theorem matches_move {places : Thread → Place Op Loc Res} {places' : Thread → AtomicPlace Op Res}
    (ht : Matches code spec now before place (places' t))
    (hothers : ∀ u, u ≠ t → Matches code spec now before (places u) (places' u)) (u : Thread) :
    Matches code spec now before (Function.update places t place u) (places' u) := by
  by_cases hu : u = t
  · rw [hu, Function.update_self]
    exact ht
  · rw [Function.update_of_ne hu]
    exact hothers u hu

theorem matches_both {places : Thread → Place Op Loc Res} {places' : Thread → AtomicPlace Op Res}
    (ht : Matches code spec now before place place')
    (hothers : ∀ u, u ≠ t → Matches code spec now before (places u) (places' u)) (u : Thread) :
    Matches code spec now before (Function.update places t place u)
      (Function.update places' t place' u) := by
  refine matches_move ?_ (fun u hu => ?_) u
  · rw [Function.update_self]
    exact ht
  · rw [Function.update_of_ne hu]
    exact hothers u hu

/-- One thread calls or returns. -/
theorem Linearized.move (h : Linearized code spec s a) (hbefore : ¬ (s.place t).Holds)
    (hafter : ¬ place.Holds) (hmatches : Matches code spec s.object a.object place place') :
    Linearized code spec (s.move t place) (a.move t place') where
  holder := holds_move h.holder
    ((h.holder t).trans (iff_of_false hbefore hafter)) fun _ _ => Iff.rfl
  places := matches_both hmatches fun u _ => h.places u
  object := by
    intro hnobody
    refine h.object fun u l hinside => ?_
    have hu : u ≠ t := by
      rintro rfl
      exact hbefore (by rw [hinside]; trivial)
    exact hnobody u l ((Function.update_of_ne hu ..).trans hinside)

variable {e : Event Op Res Thread}

/-- **An operation happens with the last statement of its body.** -/
theorem linearized_step (hspec : ∀ op o, code.Runs (code.enter op) o (spec op o))
    (h : Linearized code spec s a) (hstep : Step code s e s') :
    (Linearized code spec s' a ∧ visible s e = []) ∨
      ∃ e' a', Linearized code spec s' a' ∧ AtomicStep spec a e' a' ∧
        atomicVisible a e' = visible s e ∧ ∀ u op, e' = .call u op → e = .call u op := by
  cases hstep with
  | call t op hidle =>
      have hplace := h.places t
      rw [hidle] at hplace
      generalize hsame : a.place t = place' at hplace
      cases hplace
      exact .inr ⟨.call t op, _, h.move (by rw [hidle]; exact id) id (.calling op),
        .call t op hsame, rfl, fun _ _ => by rintro ⟨⟩; rfl⟩
  | @lock t op hcalling hfree =>
      have hplace := h.places t
      rw [hcalling] at hplace
      generalize hsame : a.place t = place' at hplace
      cases hplace
      refine .inl ⟨⟨?_, ?_, ?_⟩, rfl⟩
      · refine holds_move h.holder (iff_of_true rfl trivial) fun u hu => ?_
        rw [hfree]
        exact iff_of_false (fun hsome => hu (Option.some.inj hsome).symm) (by rintro ⟨⟩)
      · refine matches_move ?_ fun u _ => h.places u
        rw [hsame]
        refine .inside ?_
        rw [h.object (h.nobody hfree)]
        exact hspec op s.object
      · exact fun hnobody => (hnobody t _ (Function.update_self ..)).elim
  | @goesOn t l l' o hinside hrun =>
      have hholds : (s.place t).Holds := by rw [hinside]; trivial
      have hplace := h.places t
      rw [hinside] at hplace
      generalize hsame : a.place t = place' at hplace
      cases hplace with
      | inside hruns =>
          refine .inl ⟨⟨?_, ?_, ?_⟩, rfl⟩
          · exact holds_move h.holder (iff_of_true ((h.holder t).mpr hholds) trivial)
              fun _ _ => Iff.rfl
          · refine matches_move ?_ fun u hu => (h.places u).elsewhere (h.alone hholds hu)
            rw [hsame]
            exact .inside (hruns.next hrun)
          · exact fun hnobody => (hnobody t _ (Function.update_self ..)).elim
  | @finishes t l o r hinside hrun =>
      have hholds : (s.place t).Holds := by rw [hinside]; trivial
      have hplace := h.places t
      rw [hinside] at hplace
      generalize hsame : a.place t = place' at hplace
      cases hplace with
      | @inside _ op hruns =>
          have hresult := hruns.result hrun
          refine .inr ⟨.effect t, _, ⟨?_, ?_, ?_⟩, .effect hsame, rfl, fun _ _ => by rintro ⟨⟩⟩
          · exact holds_move h.holder (iff_of_true ((h.holder t).mpr hholds) trivial)
              fun _ _ => Iff.rfl
          · rw [hresult]
            exact matches_both (.leaving r) fun u hu =>
              (h.places u).elsewhere (h.alone hholds hu)
          · exact fun _ => congrArg Prod.fst hresult
  | @unlock t r hleaving =>
      have hholds : (s.place t).Holds := by rw [hleaving]; trivial
      have hplace := h.places t
      rw [hleaving] at hplace
      generalize hsame : a.place t = place' at hplace
      cases hplace
      refine .inl ⟨⟨?_, ?_, ?_⟩, rfl⟩
      · refine holds_move h.holder (iff_of_false (by rintro ⟨⟩) id) fun u hu => ?_
        rw [(h.holder t).mpr hholds]
        exact iff_of_false (by rintro ⟨⟩) fun hsome => hu (Option.some.inj hsome).symm
      · refine matches_move ?_ fun u _ => h.places u
        rw [hsame]
        exact .returning r
      · refine fun _ => h.object fun u l hinside => ?_
        by_cases hu : u = t
        · rw [hu, hleaving] at hinside
          cases hinside
        · exact h.alone hholds hu l hinside
  | @back t r hreturning =>
      have hplace := h.places t
      rw [hreturning] at hplace
      generalize hsame : a.place t = place' at hplace
      cases hplace
      exact .inr ⟨.back t r, _, h.move (by rw [hreturning]; exact id) id .idle, .back hsame, rfl,
        fun _ _ => by rintro ⟨⟩⟩

/-- With the same calls and returns so far. -/
def LinearizedWith (code : LockedObject Obj Op Loc Res) (spec : Op → Obj → Obj × Res)
    (s : Shared Obj Op Loc Res Thread × List (Visible Op Res Thread))
    (a : Atomic Obj Op Res Thread × List (Visible Op Res Thread)) : Prop :=
  Linearized code spec s.1 a.1 ∧ s.2 = a.2

variable {calls : Thread → Op → Prop} {object : Obj} {history : List (Visible Op Res Thread)}

/-- **The object is linearizable.**  Whatever the threads call and get back, they can call and
get back when each operation happens at once. -/
theorem linearizable (hspec : ∀ op o, code.Runs (code.enter op) o (spec op o))
    (h : ((locked code Thread object).recording visible).Reachable
      (fun _ e => ∀ t op, e = .call t op → calls t op) (s, history)) :
    ∃ a, LinearizedWith code spec (s, history) a ∧
      ((atomic spec Thread object).recording atomicVisible).Reachable
        (fun _ e => ∀ t op, e = .call t op → calls t op) a := by
  refine h.simulate ?_ ?_
  · rintro ⟨s, history⟩ ⟨rfl, rfl⟩
    refine ⟨(⟨object, fun _ => .idle⟩, []), ⟨⟨fun t => ?_, fun _ => .idle, fun _ => rfl⟩, rfl⟩,
      rfl, rfl⟩
    exact iff_of_false (by rintro ⟨⟩) id
  · rintro ⟨s, history⟩ e ⟨s', history'⟩ ⟨a, history''⟩ - ⟨hrel, rfl⟩ hcalls ⟨hstep, hshows⟩
    rcases linearized_step hspec hrel hstep with
      ⟨hsame, hsilent⟩ | ⟨e', a', hrel', hstep', hsees, hcall⟩
    · refine .inl ⟨hsame, ?_⟩
      rw [hshows, hsilent, List.append_nil]
    · exact .inr ⟨e', (a', history'), ⟨hrel', rfl⟩, fun t op he => hcalls t op (hcall t op he),
        hstep', by rw [hsees]; exact hshows⟩

/-- Whoever holds the mutex can go on. -/
theorem exists_step_of_holds (code : LockedObject Obj Op Loc Res) (hholds : (s.place t).Holds) :
    ∃ e s', (e = .statement t ∨ e = .unlock t) ∧ Step code s e s' := by
  cases hplace : s.place t with
  | inside l =>
      cases hrun : code.run l s.object with
      | mk o next =>
          cases next with
          | inl l' => exact ⟨_, _, .inl rfl, .goesOn hplace hrun⟩
          | inr r => exact ⟨_, _, .inl rfl, .finishes hplace hrun⟩
  | leaving r => exact ⟨_, _, .inr rfl, .unlock hplace⟩
  | idle | calling op | returning r =>
      rw [hplace] at hholds
      exact hholds.elim

/-- **Nobody waits in vain.**  As long as an operation is not over, some operation goes on. -/
theorem exists_step (h : Linearized code spec s a) (hbusy : s.place t ≠ .idle) :
    ∃ e s', (∀ u op, e ≠ .call u op) ∧ Step code s e s' := by
  have hholder : ∀ u, (s.place u).Holds → ∃ e s', (∀ u op, e ≠ .call u op) ∧ Step code s e s' := by
    intro u hu
    obtain ⟨e, s', rfl | rfl, hstep⟩ := exists_step_of_holds code hu
    · exact ⟨_, s', fun _ _ => by rintro ⟨⟩, hstep⟩
    · exact ⟨_, s', fun _ _ => by rintro ⟨⟩, hstep⟩
  cases hplace : s.place t with
  | idle => exact (hbusy hplace).elim
  | calling op =>
      cases hfree : s.holder with
      | none => exact ⟨_, _, fun _ _ => by rintro ⟨⟩, .lock hplace hfree⟩
      | some u => exact hholder u ((h.holder u).mp hfree)
  | inside l | leaving r => exact hholder t (by rw [hplace]; trivial)
  | returning r => exact ⟨_, _, fun _ _ => by rintro ⟨⟩, .back hplace⟩

end Simulation

end LockedObject
