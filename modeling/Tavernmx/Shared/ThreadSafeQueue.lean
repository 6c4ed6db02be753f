/-
# `Tavernmx.Shared.ThreadSafeQueue` — the containers between the threads

`ThreadSafeQueue` and `ThreadSafeStack` are the same code around two containers of the
standard library: every operation takes the mutex for as long as it runs.  A container
is the list of its elements, with `front()`, or `top()`, at its head; so they differ in
where an element is put.

Everywhere else a queue is a list to which an element is added, or from which one is
taken, in a single step.  That this may be done is `container_linearizable`.  And each
queue of this program has one thread that pushes and one that pops, so that whatever
comes out went in, in that order (`queue_fifo`).

`emplace`, `front` and `top` are not here: they return references into the container,
which nothing guards, and only the thread of the UI uses one of them.
-/
import Tavernmx.Lib.Locked

namespace Tavernmx

variable {T Thread : Type}

/-! ## The code -/

inductive ContainerOp (T : Type) where
  | push (item : T)
  | pop
  | empty
  | size

inductive ContainerResult (T : Type) where
  | pushed
  | popped (item : Option T)
  | isEmpty (b : Bool)
  | count (n : Nat)

/-- The statements under the `lock_guard`. -/
inductive ContainerLine (T : Type) where
  | push (item : T)
  /-- `if (this->_queue.empty())` -/
  | popTest
  /-- `T returned = std::move(this->_queue.front())` -/
  | popMove
  /-- `this->_queue.pop()` -/
  | popErase (returned : T)
  | empty
  | size

def safeContainer (insert : T → List T → List T) :
    LockedObject (List T) (ContainerOp T) (ContainerLine T) (ContainerResult T) where
  enter
    | .push item => .push item
    | .pop => .popTest
    | .empty => .empty
    | .size => .size
  run
    | .push item, xs => (insert item xs, .inr .pushed)
    | .popTest, xs => if xs.isEmpty then (xs, .inr (.popped none)) else (xs, .inl .popMove)
    | .popMove, x :: xs => (x :: xs, .inl (.popErase x))
    -- the test has seen an element
    | .popMove, [] => ([], .inr (.popped none))
    | .popErase returned, xs => (xs.tail, .inr (.popped (some returned)))
    | .empty, xs => (xs, .inr (.isEmpty xs.isEmpty))
    | .size, xs => (xs, .inr (.count xs.length))

def ThreadSafeQueue : LockedObject (List T) (ContainerOp T) (ContainerLine T) (ContainerResult T) :=
  safeContainer fun item xs => xs ++ [item]

def ThreadSafeStack : LockedObject (List T) (ContainerOp T) (ContainerLine T) (ContainerResult T) :=
  safeContainer List.cons

/-! ## What it should do -/

def containerSpec (insert : T → List T → List T) :
    ContainerOp T → List T → List T × ContainerResult T
  | .push item, xs => (insert item xs, .pushed)
  | .pop, [] => ([], .popped none)
  | .pop, x :: xs => (xs, .popped (some x))
  | .empty, xs => (xs, .isEmpty xs.isEmpty)
  | .size, xs => (xs, .count xs.length)

theorem safeContainer_runs (insert : T → List T → List T) (op : ContainerOp T) (xs : List T) :
    (safeContainer insert).Runs ((safeContainer insert).enter op) xs
      (containerSpec insert op xs) := by
  cases op with
  | push item => exact .returns rfl
  | pop =>
      cases xs with
      | nil => exact .returns rfl
      | cons x xs => exact .goesOn rfl (.goesOn rfl (.returns rfl))
  | empty => exact .returns rfl
  | size => exact .returns rfl

open LockedObject

abbrev ContainerState (T Thread : Type) :=
  Shared (List T) (ContainerOp T) (ContainerLine T) (ContainerResult T) Thread

abbrev AtomicContainer (T Thread : Type) :=
  Atomic (List T) (ContainerOp T) (ContainerResult T) Thread

abbrev ContainerHistory (T Thread : Type) :=
  List (Visible (ContainerOp T) (ContainerResult T) Thread)

variable [DecidableEq Thread] {s : ContainerState T Thread} {history : ContainerHistory T Thread}

/-- **The containers are linearizable, and do not block.**  However many threads call them,
and however their statements meet, they get what they could get if each operation were
one step; and as long as an operation is not over, one can go on. -/
theorem container_linearizable (insert : T → List T → List T)
    (h : ((locked (safeContainer insert) Thread []).recording visible).Reachable
      LabelledSystem.anyStep (s, history)) :
    (∃ a, ((atomic (containerSpec insert) Thread []).recording atomicVisible).Reachable
      LabelledSystem.anyStep (a, history)) ∧
    ∀ t, s.place t ≠ .idle →
      ∃ e s', (∀ u op, e ≠ .call u op) ∧ Step (safeContainer insert) s e s' := by
  have hany : ((locked (safeContainer insert) Thread []).recording visible).Reachable
      (fun _ e => ∀ t op, e = .call t op → True) (s, history) :=
    h.mono fun _ _ _ _ _ _ => trivial
  obtain ⟨⟨a, history'⟩, ⟨hrel, rfl⟩, ha⟩ := linearizable (safeContainer_runs insert) hany
  exact ⟨⟨a, ha.mono fun _ _ _ => trivial⟩, fun t hbusy => exists_step hrel hbusy⟩

/-- One thread pushes, and another waits for the mutex. -/
theorem container_linearizable_waits : ∃ (s : ContainerState Nat Bool)
    (history : ContainerHistory Nat Bool),
    s.holder = some true ∧ s.place false = .calling .pop ∧
    (∃ a, ((atomic (containerSpec List.cons) Bool []).recording atomicVisible).Reachable
      LabelledSystem.anyStep (a, history)) ∧
    ∃ e s', (∀ u op, e ≠ .call u op) ∧ Step (safeContainer List.cons) s e s' := by
  have hstart : ((locked (safeContainer List.cons) Bool ([] : List Nat)).recording
      visible).Reachable LabelledSystem.anyStep (_, []) := .init ⟨rfl, rfl⟩
  have hcalls := hstart.extend (.call true (.push 7)) trivial (Step.call true (ContainerOp.push 7) rfl)
  have hlocks := hcalls.extend (.lock true) trivial (.lock rfl rfl)
  have hwaits := hlocks.extend (.call false .pop) trivial (Step.call false ContainerOp.pop rfl)
  obtain ⟨hatomic, hgoes⟩ := container_linearizable List.cons hwaits
  exact ⟨_, _, rfl, rfl, hatomic, hgoes false (by rintro ⟨⟩)⟩

/-! ## From one thread to another -/

/-- What has been given to `push`, by whomever. -/
def given : ContainerHistory T Thread → List T :=
  List.filterMap fun
    | .call _ (.push x) => some x
    | _ => none

/-- What `pop` has returned. -/
def taken : ContainerHistory T Thread → List T :=
  List.filterMap fun
    | .back _ (.popped item) => item
    | _ => none

/-- No thread but `p` pushes, and none but `c` pops. -/
def OneToOne (p c t : Thread) : ContainerOp T → Prop
  | .push _ => t = p
  | .pop => t = c
  | .empty | .size => True

/-- The element that is to be pushed. -/
def pushing : AtomicPlace (ContainerOp T) (ContainerResult T) → List T
  | .calling (.push x) => [x]
  | _ => []

/-- The element that was popped, and not returned. -/
def popping : AtomicPlace (ContainerOp T) (ContainerResult T) → List T
  | .returning (.popped (some x)) => [x]
  | _ => []

structure Fifo (p c : Thread) (a : AtomicContainer T Thread) (history : ContainerHistory T Thread) :
    Prop where
  order : taken history ++ popping (a.place c) ++ a.object ++ pushing (a.place p) = given history
  calling : ∀ t op, a.place t = .calling op → OneToOne p c t op
  popped : ∀ t x, a.place t = .returning (.popped (some x)) → t = c

section Fifo

variable {p c t : Thread} {a a' : AtomicContainer T Thread}
  {place : AtomicPlace (ContainerOp T) (ContainerResult T)}

/-- What of a place does not change is the same for everybody. -/
theorem same_of_move {X : Type} (f : AtomicPlace (ContainerOp T) (ContainerResult T) → X)
    (hsame : f place = f (a.place t)) (u : Thread) : f ((a.move t place).place u) = f (a.place u) := by
  by_cases hu : u = t
  · rw [hu, Atomic.move_self, hsame]
  · rw [Atomic.move_of_ne _ _ hu]

theorem calling_move (h : ∀ u op, a.place u = .calling op → OneToOne p c u op)
    (hplace : ∀ op, place = .calling op → OneToOne p c t op) (u : Thread) (op : ContainerOp T)
    (hu : (a.move t place).place u = .calling op) : OneToOne p c u op := by
  by_cases hut : u = t
  · rw [hut, Atomic.move_self] at hu
    rw [hut]
    exact hplace op hu
  · exact h u op ((Atomic.move_of_ne _ _ hut).symm.trans hu)

theorem popped_move (h : ∀ u x, a.place u = .returning (.popped (some x)) → u = c)
    (hplace : ∀ x, place = .returning (.popped (some x)) → t = c) (u : Thread) (x : T)
    (hu : (a.move t place).place u = .returning (.popped (some x))) : u = c := by
  by_cases hut : u = t
  · rw [hut, Atomic.move_self] at hu
    rw [hut]
    exact hplace x hu
  · exact h u x ((Atomic.move_of_ne _ _ hut).symm.trans hu)

omit [DecidableEq Thread] in
theorem taken_append (history more : ContainerHistory T Thread) :
    taken (history ++ more) = taken history ++ taken more := List.filterMap_append

omit [DecidableEq Thread] in
theorem given_append (history more : ContainerHistory T Thread) :
    given (history ++ more) = given history ++ given more := List.filterMap_append

theorem fifo_call {op : ContainerOp T} (h : Fifo p c a history) (hidle : a.place t = .idle)
    (hop : OneToOne p c t op) : Fifo p c (a.move t (.calling op)) (history ++ [.call t op]) := by
  have hpopping : popping ((a.move t (.calling op)).place c) = popping (a.place c) :=
    same_of_move popping (by rw [hidle]; rfl) c
  refine ⟨?_, calling_move h.calling fun op' hop' => ?_, popped_move h.popped fun _ => by rintro ⟨⟩⟩
  · rw [taken_append, given_append, hpopping, ← h.order]
    cases op with
    | push x =>
        obtain rfl : t = p := hop
        rw [Atomic.move_self, hidle]
        simp [taken, given, pushing]
    | pop | empty | size =>
        rw [same_of_move pushing (by rw [hidle]; rfl) p]
        simp [taken, given]
  · obtain rfl := AtomicPlace.calling.inj hop'
    exact hop

theorem fifo_effect {op : ContainerOp T} (h : Fifo p c a history)
    (hcalling : a.place t = .calling op) :
    Fifo p c { a.move t (.returning (containerSpec (fun item xs => xs ++ [item]) op a.object).2) with
      object := (containerSpec (fun item xs => xs ++ [item]) op a.object).1 } history := by
  have hop := h.calling t op hcalling
  refine ⟨?_, calling_move h.calling fun _ => by rintro ⟨⟩, popped_move h.popped fun x hx => ?_⟩
  · show taken history ++ popping ((a.move t _).place c) ++ _ ++ pushing ((a.move t _).place p) = _
    rw [← h.order]
    cases op with
    | push x =>
        obtain rfl : t = p := hop
        rw [same_of_move popping (by rw [hcalling]; rfl) c, Atomic.move_self, hcalling]
        simp [containerSpec, pushing]
    | pop =>
        obtain rfl : t = c := hop
        have hpushing : ∀ r, pushing ((a.move t (.returning r)).place p) = pushing (a.place p) :=
          fun r => same_of_move pushing (by rw [hcalling]; rfl) p
        rw [hpushing, Atomic.move_self, hcalling]
        cases a.object with
        | nil => rfl
        | cons x xs => simp [containerSpec, popping]
    | empty | size =>
        rw [same_of_move popping (by rw [hcalling]; rfl) c,
          same_of_move pushing (by rw [hcalling]; rfl) p]
        rfl
  · cases op with
    | push _ | empty | size => cases hx
    | pop => exact hop

theorem fifo_back {r : ContainerResult T} (h : Fifo p c a history)
    (hreturning : a.place t = .returning r) :
    Fifo p c (a.move t .idle) (history ++ [.back t r]) := by
  have hpushing : pushing ((a.move t .idle).place p) = pushing (a.place p) :=
    same_of_move pushing (by rw [hreturning]; rfl) p
  refine ⟨?_, calling_move h.calling fun _ => by rintro ⟨⟩, popped_move h.popped fun _ => by rintro ⟨⟩⟩
  rw [taken_append, given_append, hpushing]
  show _ = given history ++ []
  rw [← h.order]
  cases r with
  | popped item =>
      cases item with
      | none =>
          rw [same_of_move popping (by rw [hreturning]; rfl) c]
          simp [taken]
      | some x =>
          obtain rfl : t = c := h.popped t x hreturning
          rw [Atomic.move_self, hreturning]
          simp [taken, popping]
  | pushed | isEmpty b | count n =>
      rw [same_of_move popping (by rw [hreturning]; rfl) c]
      simp [taken]

theorem fifo_reachable {a : AtomicContainer T Thread × ContainerHistory T Thread}
    (h : ((atomic (containerSpec fun item xs => xs ++ [item]) Thread []).recording
      atomicVisible).Reachable (fun _ e => ∀ t op, e = .call t op → OneToOne p c t op) a) :
    Fifo p c a.1 a.2 := by
  refine h.invariant ?_ ?_
  · rintro ⟨a, history⟩ ⟨rfl, rfl⟩
    exact ⟨rfl, fun _ _ => by rintro ⟨⟩, fun _ _ => by rintro ⟨⟩⟩
  · rintro ⟨a, history⟩ e ⟨a', history'⟩ - hfifo hcalls ⟨hstep, hshows⟩
    obtain rfl : history' = history ++ atomicVisible a e := hshows
    show Fifo p c a' _
    cases hstep with
    | call t op hidle => exact fifo_call hfifo hidle (hcalls t op rfl)
    | effect hcalling =>
        rw [show atomicVisible a _ = [] from rfl, List.append_nil]
        exact fifo_effect hfifo hcalling
    | back hreturning => exact fifo_back hfifo hreturning

end Fifo

/-- **What comes out went in, in that order.**  If one thread pushes and one pops, what has been
popped is the beginning of what has been pushed, at any time and however the two meet;
and when no call is going on, the rest is in the queue. -/
theorem queue_fifo {p c : Thread}
    (h : ((locked ThreadSafeQueue Thread []).recording visible).Reachable
      (fun _ e => ∀ t op, e = .call t op → OneToOne p c t op) (s, history)) :
    taken history <+: given history ∧
      ((∀ t, s.place t = .idle) → taken history ++ s.object = given history) := by
  obtain ⟨⟨a, history'⟩, ⟨hrel, rfl⟩, ha⟩ := linearizable (safeContainer_runs _) h
  have horder := (fifo_reachable ha).order
  refine ⟨⟨popping (a.place c) ++ a.object ++ pushing (a.place p), ?_⟩, fun hidle => ?_⟩
  · rw [← List.append_assoc, ← List.append_assoc]
    exact horder
  · have hplace : ∀ t, a.place t = .idle := fun t => by
      have hmatches := hrel.places t
      rw [hidle t] at hmatches
      generalize a.place t = place at hmatches
      cases hmatches
      rfl
    have hobject : a.object = s.object :=
      hrel.object fun t l hinside => by cases (hidle t).symm.trans hinside
    rw [hplace c, hplace p, hobject] at horder
    simpa [popping, pushing] using horder

/-- A message is pushed, and popped by a thread that had to wait for the mutex. -/
theorem queue_fifo_one : ∃ (s : ContainerState Nat Bool) (history : ContainerHistory Nat Bool),
    s.place false = .returning (.popped (some 7)) ∧ given history = [7] ∧
    taken history <+: given history := by
  have hstart : ((locked ThreadSafeQueue Bool ([] : List Nat)).recording visible).Reachable
      (fun _ e => ∀ t op, e = .call t op → OneToOne true false t op) (_, []) := .init ⟨rfl, rfl⟩
  have hpushes := hstart.extend (.call true (.push 7)) (fun _ _ h => by cases h; rfl)
    (Step.call true (ContainerOp.push 7) rfl)
  have hlocks := hpushes.extend (.lock true) (fun _ _ h => by cases h) (.lock rfl rfl)
  have hpops := hlocks.extend (.call false .pop) (fun _ _ h => by cases h; rfl)
    (Step.call false ContainerOp.pop rfl)
  have hpushed := hpops.extend (.statement true) (fun _ _ h => by cases h) (.finishes rfl rfl)
  have hunlocks := hpushed.extend (.unlock true) (fun _ _ h => by cases h) (.unlock rfl)
  have henters := hunlocks.extend (.lock false) (fun _ _ h => by cases h) (.lock rfl rfl)
  have htests := henters.extend (.statement false) (fun _ _ h => by cases h) (.goesOn rfl rfl)
  have hmoves := htests.extend (.statement false) (fun _ _ h => by cases h) (.goesOn rfl rfl)
  have herases := hmoves.extend (.statement false) (fun _ _ h => by cases h) (.finishes rfl rfl)
  have hleaves := herases.extend (.unlock false) (fun _ _ h => by cases h) (.unlock rfl)
  have hfifo := queue_fifo (p := true) (c := false) hleaves
  generalize hs : Prod.mk _ _ = state at hleaves
  exact ⟨state.1, state.2, by rw [← hs]; rfl, by rw [← hs]; rfl, by rw [← hs]; exact hfifo.1⟩

end Tavernmx
