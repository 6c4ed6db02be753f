/-
# `Tavernmx.Server.LifeCycle` — how the server starts, and how it stops

Two threads and a signal handler share three semaphores and the accept socket.

    main            server_worker                 SIGINT, on any thread
    acquire ready   creates the rooms
                    release ready
    begin_accept    acquire accept
    release accept
    loop            loop                          closes the connections
    join            release shutdown              and the accept socket

Both loops go on while there is an accept socket, so closing it is how the server is
stopped.  Several things go against that.  `await_next_connection` begins with
`begin_accept`, which opens a socket when there is none: an interrupt that comes after
the loop has looked and before this is undone (`interrupt_undone`), as is one before
the first socket is opened.  The handler logs, and takes the mutex of the list of
connections, also when the thread it interrupts is in a call that has the same lock:
then that thread is stuck for good.  And it frees the accept socket and the connections,
also when somebody is in a call on one of them; what comes of that is left out here, but
for the fact that such a moment is not a good one.

However `main` leaves its loop, it has to destroy the pool, which waits for the client
workers that are not over (`serving`), however long their peers stay.

`startup` is what holds whenever signals come, and `standstill` what it can be that
neither thread goes on: such a handler, or that wait.  `interrupt_stops` is that a signal
which comes at a good moment stops the server: no connection is left open, and the two
threads and the client workers end after a bounded number of steps.
-/
import Tavernmx.Lib.Runs
import Tavernmx.Lib.Semaphore
import Tavernmx.Server.Worker

namespace Tavernmx.Server

open Rooms

inductive Thread where
  | main
  | worker
  | other
  deriving DecidableEq, Repr

/-- What a handler waits for on the thread that has it. -/
inductive Lock where
  /-- `active_connections_mutex`. -/
  | connections
  /-- That of a library call, such as the one of the logger's sink. -/
  | library
  deriving DecidableEq, Repr

/-- Where `main` is. -/
inductive MainThread where
  /-- At `server_ready_signal.acquire()`. -/
  | awaiting
  | opening
  | signalling
  /-- At the condition of the loop. -/
  | checking
  /-- At the `begin_accept` of `await_next_connection`. -/
  | beginning
  /-- In `BIO_do_accept`. -/
  | accepting
  /-- No connection has come. -/
  | sleeping
  /-- With a new connection, before `cleanup_connections`. -/
  | connecting (c : ConnId)
  /-- In `cleanup_connections`, with the mutex. -/
  | cleaning (c : ConnId)
  | cleaned (c : ConnId)
  /-- At the `push_back`, with the mutex. -/
  | registering (c : ConnId)
  /-- In the loop's body. -/
  | admitting (c : ConnId)
  | joining
  /-- The worker is joined, and the pool is destroyed. -/
  | closing
  | returned
  /-- An exception leaves the loop, and the pool is destroyed. -/
  | unwinding
  /-- The exception has met the joinable thread. -/
  | terminated
  deriving DecidableEq, Repr

/-- Where `server_worker` is. -/
inductive WorkerThread where
  | creating (left : List String)
  | signalling
  | awaiting
  /-- At the condition of the loop. -/
  | checking
  /-- In `get_active_connections`, with the mutex. -/
  | copying
  /-- In the rest of a tick. -/
  | working
  | ended
  deriving DecidableEq, Repr

structure ServerLife where
  main : MainThread
  worker : WorkerThread
  ready : BinarySemaphore
  accept : BinarySemaphore
  shutdown : BinarySemaphore
  rooms : RoomManager ServerRoom
  /-- There is an `accept_bio`. -/
  acceptBio : Bool
  active : List ConnId
  /-- The identity of the next connection. -/
  next : ConnId
  connected : ConnId → Bool
  /-- The client workers that were handed to the pool and are not over. -/
  serving : List ConnId
  /-- The lock that the handler on this thread waits for, and the thread has itself. -/
  stuck : Thread → Option Lock
  /-- A handler has returned. -/
  interrupted : Bool

namespace ServerLife

def start (initialRooms : List String) : ServerLife where
  main := .awaiting
  worker := .creating initialRooms
  ready := .create
  accept := .create
  shutdown := .create
  rooms := .new
  acceptBio := false
  active := []
  next := 0
  connected _ := false
  serving := []
  stuck _ := none
  interrupted := false

/-- The thread holds `active_connections_mutex`. -/
def Holds (s : ServerLife) : Thread → Prop
  | .main => (∃ c, s.main = .cleaning c) ∨ ∃ c, s.main = .registering c
  | .worker => s.worker = .copying
  | .other => False

/-- `ClientConnectionManager::shutdown`. -/
def shutdownConnections (s : ServerLife) : ServerLife :=
  { s with
    connected := fun c => s.connected c && decide (c ∉ s.active)
    active := []
    acceptBio := false }

end ServerLife

inductive LifeEvent where
  | main
  | worker
  /-- SIGINT.  It is `quiet` when the thread it comes to is in no call that has a lock the
  handler takes, and no thread is in a call on what the handler frees. -/
  | interrupt (on : Thread) (quiet : Bool)
  | peerCloses (c : ConnId)
  /-- A client worker is over. -/
  | taskEnds (c : ConnId)

/-- The steps of `main`. -/
inductive MainStep : ServerLife → ServerLife → Prop where
  | acquireReady {s : ServerLife} {ready : BinarySemaphore} (hmain : s.main = .awaiting)
      (hready : s.ready.tryAcquire = some ready) :
      MainStep s { s with main := .opening, ready }
  | openSocket {s : ServerLife} (hmain : s.main = .opening) :
      MainStep s { s with main := .signalling, acceptBio := true }
  /-- `accept_bio` is there, but does not listen. -/
  | openFails {s : ServerLife} (hmain : s.main = .opening) :
      MainStep s { s with main := .terminated, acceptBio := true }
  | releaseAccept {s : ServerLife} (hmain : s.main = .signalling) :
      MainStep s { s with main := .checking, accept := s.accept.release }
  | leave {s : ServerLife} {shutdown : BinarySemaphore} (hmain : s.main = .checking)
      (hshutdown : s.shutdown.tryAcquire = some shutdown) :
      MainStep s { s with main := .joining, shutdown }
  | leaveClosed {s : ServerLife} (hmain : s.main = .checking)
      (hshutdown : s.shutdown.tryAcquire = none) (hclosed : s.acceptBio = false) :
      MainStep s { s with main := .joining }
  | goOn {s : ServerLife} (hmain : s.main = .checking) (hshutdown : s.shutdown.tryAcquire = none)
      (hopen : s.acceptBio = true) : MainStep s { s with main := .beginning }
  | beginAccept {s : ServerLife} (hmain : s.main = .beginning) :
      MainStep s { s with main := .accepting, acceptBio := true }
  | beginFails {s : ServerLife} (hmain : s.main = .beginning) (hclosed : s.acceptBio = false) :
      MainStep s { s with main := .unwinding, acceptBio := true }
  | acceptNothing {s : ServerLife} (hmain : s.main = .accepting) :
      MainStep s { s with main := .sleeping }
  | wake {s : ServerLife} (hmain : s.main = .sleeping) : MainStep s { s with main := .checking }
  | accept {s : ServerLife} (hmain : s.main = .accepting) (hopen : s.acceptBio = true) :
      MainStep s { s with
        main := .connecting s.next
        next := s.next + 1
        connected := Function.update s.connected s.next true }
  | lockToClean {s : ServerLife} {c : ConnId} (hmain : s.main = .connecting c)
      (hfree : ¬ s.Holds .worker) : MainStep s { s with main := .cleaning c }
  | clean {s : ServerLife} {c : ConnId} (hmain : s.main = .cleaning c) :
      MainStep s { s with main := .cleaned c, active := s.active.filter s.connected }
  | lockToRegister {s : ServerLife} {c : ConnId} (hmain : s.main = .cleaned c)
      (hfree : ¬ s.Holds .worker) : MainStep s { s with main := .registering c }
  | register {s : ServerLife} {c : ConnId} (hmain : s.main = .registering c) :
      MainStep s { s with main := .admitting c, active := s.active ++ [c] }
  /-- The connection is handed to the pool. -/
  | detach {s : ServerLife} {c : ConnId} (hmain : s.main = .admitting c) :
      MainStep s { s with main := .checking, serving := s.serving ++ [c] }
  /-- The NAK is sent, and the connection shut down. -/
  | deny {s : ServerLife} {c : ConnId} (hmain : s.main = .admitting c) :
      MainStep s { s with main := .checking, connected := Function.update s.connected c false }
  | denyFails {s : ServerLife} {c : ConnId} (hmain : s.main = .admitting c) :
      MainStep s { s with main := .unwinding }
  /-- The pool has waited for its tasks, and the destructor of the thread ends the process. -/
  | terminate {s : ServerLife} (hmain : s.main = .unwinding) (hserved : s.serving = []) :
      MainStep s { s with main := .terminated }
  | join {s : ServerLife} (hmain : s.main = .joining) (hended : s.worker = .ended) :
      MainStep s { s with main := .closing }
  | destroyPool {s : ServerLife} (hmain : s.main = .closing) (hserved : s.serving = []) :
      MainStep s { s with main := .returned }

/-- The steps of `server_worker`. -/
inductive ServerWorkerStep : ServerLife → ServerLife → Prop where
  | createRoom {s : ServerLife} {name : String} {left : List String}
      (hworker : s.worker = .creating (name :: left)) :
      ServerWorkerStep s
        { s with worker := .creating left, rooms := (s.rooms.createRoom name).getD s.rooms }
  | allRooms {s : ServerLife} (hworker : s.worker = .creating []) :
      ServerWorkerStep s { s with worker := .signalling }
  | releaseReady {s : ServerLife} (hworker : s.worker = .signalling) :
      ServerWorkerStep s { s with worker := .awaiting, ready := s.ready.release }
  | acquireAccept {s : ServerLife} {accept : BinarySemaphore} (hworker : s.worker = .awaiting)
      (haccept : s.accept.tryAcquire = some accept) :
      ServerWorkerStep s { s with worker := .checking, accept }
  | lockToCopy {s : ServerLife} (hworker : s.worker = .checking) (hopen : s.acceptBio = true)
      (hfree : ¬ s.Holds .main) : ServerWorkerStep s { s with worker := .copying }
  | copy {s : ServerLife} (hworker : s.worker = .copying) :
      ServerWorkerStep s { s with worker := .working }
  /-- The tick ends; what it does to the rooms is no matter here. -/
  | tick {s : ServerLife} (hworker : s.worker = .working) :
      ServerWorkerStep s { s with worker := .checking }
  | tickFails {s : ServerLife} (hworker : s.worker = .working) :
      ServerWorkerStep s { s with worker := .ended, shutdown := s.shutdown.release }
  | leave {s : ServerLife} (hworker : s.worker = .checking) (hclosed : s.acceptBio = false) :
      ServerWorkerStep s { s with worker := .ended, shutdown := s.shutdown.release }

inductive LifeStep : ServerLife → LifeEvent → ServerLife → Prop where
  | main {s s' : ServerLife} (hstuck : s.stuck .main = none) (hstep : MainStep s s') :
      LifeStep s .main s'
  | worker {s s' : ServerLife} (hrunning : s.main ≠ .terminated)
      (hstuck : s.stuck .worker = none)
      (hstep : ServerWorkerStep s s') : LifeStep s .worker s'
  /-- The handler takes its locks and returns. -/
  | interrupt {s : ServerLife} (on : Thread) (quiet : Bool)
      (hrunning : s.main ≠ .terminated ∧ s.main ≠ .returned)
      (hstuck : s.stuck on = none) (hfree : ∀ thread, ¬ s.Holds thread) :
      LifeStep s (.interrupt on quiet) { s.shutdownConnections with interrupted := true }
  /-- It interrupts the thread that has the mutex. -/
  | interruptHolder {s : ServerLife} (on : Thread) (quiet : Bool) (hstuck : s.stuck on = none)
      (hholds : s.Holds on) : LifeStep s (.interrupt on quiet)
        { s with stuck := Function.update s.stuck on (some .connections) }
  /-- It interrupts a thread in a call that has another of the handler's locks. -/
  | interruptCall {s : ServerLife} (on : Thread)
      (hrunning : s.main ≠ .terminated ∧ s.main ≠ .returned)
      (hstuck : s.stuck on = none) : LifeStep s (.interrupt on false)
        { s with stuck := Function.update s.stuck on (some .library) }
  | peerCloses {s : ServerLife} (c : ConnId) :
      LifeStep s (.peerCloses c) { s with connected := Function.update s.connected c false }
  | taskEnds {s : ServerLife} {c : ConnId} (hserving : c ∈ s.serving) :
      LifeStep s (.taskEnds c) { s with serving := s.serving.erase c }

/-- `main`, `server_worker`, the client workers, and SIGINT. -/
def serverLife (initialRooms : List String) : LabelledSystem ServerLife LifeEvent where
  init s := s = .start initialRooms
  step := LifeStep

/-! ## What a run keeps -/

/-- `main` has not released `server_accept_signal`. -/
def MainThread.Opening : MainThread → Prop
  | .awaiting | .opening | .signalling => True
  | _ => False

/-- `server_worker` has not released `server_ready_signal`. -/
def WorkerThread.Preparing : WorkerThread → Prop
  | .creating _ | .signalling => True
  | _ => False

namespace ServerLife

/-- The rooms, when those that are left are created too. -/
def allRooms (s : ServerLife) : RoomManager ServerRoom :=
  match s.worker with
  | .creating left => left.foldl (fun rooms name => (rooms.createRoom name).getD rooms) s.rooms
  | _ => s.rooms

/-- What `server_ready_signal` says. -/
structure Prepared (s : ServerLife) : Prop where
  sound : s.ready.Sound
  preparing : s.worker.Preparing → s.main = .awaiting ∧ s.ready.count = 0
  prepared : ¬ s.worker.Preparing → s.main = .awaiting → s.ready.count = 1

/-- What `server_accept_signal` says. -/
structure Accepting (s : ServerLife) : Prop where
  sound : s.accept.Sound
  opening : s.main.Opening →
    (s.worker.Preparing ∨ s.worker = .awaiting) ∧ s.accept.count = 0
  opened : ¬ s.main.Opening → s.main ≠ .terminated → s.worker = .awaiting → s.accept.count = 1

/-- What `server_shutdown_signal` says. -/
structure Ending (s : ServerLife) : Prop where
  sound : s.shutdown.Sound
  running : s.worker ≠ .ended → s.shutdown.count = 0
  joining : s.main = .joining → s.worker = .ended ∨ s.acceptBio = false
  joined : s.main = .closing ∨ s.main = .returned → s.worker = .ended

theorem Prepared.main {s s' : ServerLife} (h : s.Prepared) (hstep : MainStep s s') :
    s'.Prepared := by
  cases hstep with
  | acquireReady hmain hready =>
      obtain ⟨hsound, hcount, -⟩ := h.sound.tryAcquire hready
      refine ⟨hsound, fun hworker => ?_, fun _ hmain => ?_⟩
      · rw [(h.preparing hworker).2] at hcount
        cases hcount
      · cases hmain
  | _ =>
      refine ⟨h.sound, fun hworker => ?_, fun _ hmain => ?_⟩
      · have := (h.preparing hworker).1
        simp_all
      · cases hmain

theorem Prepared.worker {s s' : ServerLife} (h : s.Prepared) (hstep : ServerWorkerStep s s') :
    s'.Prepared := by
  have hprepared := h.prepared
  cases hstep with
  | createRoom hworker =>
      exact ⟨h.sound, fun _ => h.preparing (by rw [hworker]; trivial),
        fun hprepared => (hprepared trivial).elim⟩
  | allRooms hworker =>
      exact ⟨h.sound, fun _ => h.preparing (by rw [hworker]; trivial),
        fun hprepared => (hprepared trivial).elim⟩
  | releaseReady hworker =>
      have hzero := (h.preparing (by rw [hworker]; trivial)).2
      refine ⟨h.sound.release hzero, fun hworker => hworker.elim, fun _ _ => ?_⟩
      rw [BinarySemaphore.count_release, hzero]
  | _ =>
      refine ⟨h.sound, fun hworker => hworker.elim, fun _ => hprepared ?_⟩
      simp_all [WorkerThread.Preparing]

theorem Accepting.main {s s' : ServerLife} (h : s.Accepting) (hstep : MainStep s s') :
    s'.Accepting := by
  cases hstep with
  | acquireReady hmain hready =>
      exact ⟨h.sound, fun _ => h.opening (by rw [hmain]; trivial),
        fun hopened => (hopened trivial).elim⟩
  | openSocket hmain =>
      exact ⟨h.sound, fun _ => h.opening (by rw [hmain]; trivial),
        fun hopened => (hopened trivial).elim⟩
  | openFails hmain =>
      exact ⟨h.sound, fun hopening => hopening.elim, fun _ hrunning => (hrunning rfl).elim⟩
  | releaseAccept hmain =>
      obtain ⟨-, hzero⟩ := h.opening (by rw [hmain]; trivial)
      refine ⟨h.sound.release hzero, fun hopening => hopening.elim, fun _ _ _ => ?_⟩
      rw [BinarySemaphore.count_release, hzero]
  | _ =>
      refine ⟨h.sound, fun hopening => hopening.elim, fun _ _ hworker => ?_⟩
      refine h.opened ?_ ?_ hworker <;> simp_all [MainThread.Opening]

theorem Accepting.worker {s s' : ServerLife} (h : s.Accepting) (hprepared : s.Prepared)
    (hstep : ServerWorkerStep s s') : s'.Accepting := by
  have hopened := h.opened
  cases hstep with
  | createRoom hworker =>
      refine ⟨h.sound, fun hopening => ⟨.inl trivial, (h.opening hopening).2⟩, fun _ _ hawait => ?_⟩
      cases hawait
  | allRooms hworker =>
      refine ⟨h.sound, fun hopening => ⟨.inl trivial, (h.opening hopening).2⟩, fun _ _ hawait => ?_⟩
      cases hawait
  | releaseReady hworker =>
      have hmain := (hprepared.preparing (by rw [hworker]; trivial)).1
      exact ⟨h.sound, fun hopening => ⟨.inr rfl, (h.opening hopening).2⟩,
        fun hopened => (hopened (by rw [hmain]; trivial)).elim⟩
  | acquireAccept hworker haccept =>
      obtain ⟨hsound, hcount, -⟩ := h.sound.tryAcquire haccept
      refine ⟨hsound, fun hopening => ?_, fun _ _ hawait => ?_⟩
      · rw [(h.opening hopening).2] at hcount
        cases hcount
      · cases hawait
  | _ =>
      refine ⟨h.sound, fun hopening => ?_, fun _ _ hawait => ?_⟩
      · have := (h.opening hopening).1
        simp_all [WorkerThread.Preparing]
      · cases hawait

theorem Ending.main {s s' : ServerLife} (h : s.Ending) (hstep : MainStep s s') : s'.Ending := by
  cases hstep with
  | leave hmain hshutdown =>
      obtain ⟨hsound, hcount, hzero⟩ := h.sound.tryAcquire hshutdown
      have hended : s.worker = .ended := by
        by_contra hworker
        rw [h.running hworker] at hcount
        cases hcount
      refine ⟨hsound, fun _ => hzero, fun _ => .inl hended, fun _ => hended⟩
  | leaveClosed hmain hshutdown hclosed =>
      refine ⟨h.sound, h.running, fun _ => .inr hclosed, fun hjoined => ?_⟩
      rcases hjoined with hjoined | hjoined <;> cases hjoined
  | join hmain hended => exact ⟨h.sound, h.running, fun _ => .inl hended, fun _ => hended⟩
  | destroyPool hmain hserved =>
      have hended := h.joined (.inl hmain)
      exact ⟨h.sound, h.running, fun _ => .inl hended, fun _ => hended⟩
  | _ =>
      refine ⟨h.sound, h.running, fun hjoining => ?_, fun hjoined => ?_⟩
      · cases hjoining
      · rcases hjoined with hjoined | hjoined <;> cases hjoined

theorem Ending.worker {s s' : ServerLife} (h : s.Ending) (hstep : ServerWorkerStep s s') :
    s'.Ending := by
  have hjoining := h.joining
  have hjoined := h.joined
  have hrunning := h.running
  cases hstep with
  | tickFails hworker =>
      have hzero := h.running (by rw [hworker]; exact WorkerThread.noConfusion)
      exact ⟨h.sound.release hzero, fun hended => (hended rfl).elim, fun _ => .inl rfl,
        fun _ => rfl⟩
  | leave hworker hclosed =>
      have hzero := h.running (by rw [hworker]; exact WorkerThread.noConfusion)
      exact ⟨h.sound.release hzero, fun hended => (hended rfl).elim, fun _ => .inl rfl,
        fun _ => rfl⟩
  | _ => exact ⟨h.sound, by simp_all, by simp_all, by simp_all⟩

/-- The two threads never have the mutex together. -/
def Exclusive (s : ServerLife) : Prop := ¬ (s.Holds .main ∧ s.Holds .worker)

theorem exclusive_main {s s' : ServerLife} (hstep : MainStep s s') : s'.Exclusive := by
  cases hstep with
  | lockToClean hmain hfree => exact fun hboth => hfree hboth.2
  | lockToRegister hmain hfree => exact fun hboth => hfree hboth.2
  | _ =>
      rintro ⟨⟨c, hmain⟩ | ⟨c, hmain⟩, -⟩
      · cases hmain
      · cases hmain

theorem exclusive_worker {s s' : ServerLife} (hstep : ServerWorkerStep s s') : s'.Exclusive := by
  cases hstep with
  | lockToCopy hworker hopen hfree => exact fun hboth => hfree hboth.1
  | _ =>
      rintro ⟨-, hworker⟩
      cases hworker

theorem allRooms_main {s s' : ServerLife} (hstep : MainStep s s') : s'.allRooms = s.allRooms := by
  cases hstep <;> rfl

theorem allRooms_worker {s s' : ServerLife} (hstep : ServerWorkerStep s s') :
    s'.allRooms = s.allRooms := by
  cases hstep <;> simp_all [allRooms]

/-- The three semaphores, the mutex and the rooms, together. -/
structure Orderly (initialRooms : List String) (s : ServerLife) : Prop where
  prepared : s.Prepared
  accepting : s.Accepting
  ending : s.Ending
  exclusive : s.Exclusive
  rooms : s.allRooms = (Worker.start initialRooms).rooms

theorem orderly_start (initialRooms : List String) :
    (start initialRooms).Orderly initialRooms where
  prepared := ⟨BinarySemaphore.sound_create, fun _ => ⟨rfl, rfl⟩,
    fun hprepared => (hprepared trivial).elim⟩
  accepting := ⟨BinarySemaphore.sound_create, fun _ => ⟨.inl trivial, rfl⟩,
    fun hopened => (hopened trivial).elim⟩
  ending := by
    refine ⟨BinarySemaphore.sound_create, fun _ => rfl, fun hjoining => ?_, fun hjoined => ?_⟩
    · cases hjoining
    · rcases hjoined with hjoined | hjoined <;> cases hjoined
  exclusive := by
    rintro ⟨-, hworker⟩
    cases hworker
  rooms := rfl

/-- A handler that returns leaves both threads where they are. -/
theorem Orderly.shutdownConnections {initialRooms : List String} {s : ServerLife}
    (h : s.Orderly initialRooms) :
    { s.shutdownConnections with interrupted := true }.Orderly initialRooms where
  prepared := ⟨h.prepared.sound, h.prepared.preparing, h.prepared.prepared⟩
  accepting := ⟨h.accepting.sound, h.accepting.opening, h.accepting.opened⟩
  ending := ⟨h.ending.sound, h.ending.running, fun _ => .inr rfl, h.ending.joined⟩
  exclusive := h.exclusive
  rooms := h.rooms

/-- Nor does it matter to them who is stuck, who is connected, and who is served. -/
theorem Orderly.congr {initialRooms : List String} {s : ServerLife} (h : s.Orderly initialRooms)
    (connected : ConnId → Bool) (serving : List ConnId) (stuck : Thread → Option Lock) :
    { s with connected, serving, stuck }.Orderly initialRooms where
  prepared := ⟨h.prepared.sound, h.prepared.preparing, h.prepared.prepared⟩
  accepting := ⟨h.accepting.sound, h.accepting.opening, h.accepting.opened⟩
  ending := ⟨h.ending.sound, h.ending.running, h.ending.joining, h.ending.joined⟩
  exclusive := h.exclusive
  rooms := h.rooms

theorem Orderly.step {initialRooms : List String} {s s' : ServerLife} {e : LifeEvent}
    (h : s.Orderly initialRooms) (hstep : LifeStep s e s') : s'.Orderly initialRooms := by
  cases hstep with
  | main hstuck hstep =>
      exact ⟨h.prepared.main hstep, h.accepting.main hstep, h.ending.main hstep,
        exclusive_main hstep, (allRooms_main hstep).trans h.rooms⟩
  | worker hrunning hstuck hstep =>
      exact ⟨h.prepared.worker hstep, h.accepting.worker h.prepared hstep, h.ending.worker hstep,
        exclusive_worker hstep, (allRooms_worker hstep).trans h.rooms⟩
  | interrupt on quiet hrunning hstuck hfree => exact h.shutdownConnections
  | interruptHolder _ _ _ _ | interruptCall _ _ _ => exact h.congr s.connected s.serving _
  | peerCloses _ => exact h.congr _ s.serving s.stuck
  | taskEnds _ => exact h.congr s.connected _ s.stuck

end ServerLife

variable {initialRooms : List String} {allowed : ServerLife → LifeEvent → Prop}

theorem orderly_reachable {s : ServerLife}
    (h : (serverLife initialRooms).Reachable allowed s) : s.Orderly initialRooms := by
  refine h.invariant ?_ ?_
  · rintro s rfl
    exact ServerLife.orderly_start initialRooms
  · rintro s e s' - hs - hstep
    exact hs.step hstep

/-- **The start, whatever signals come.**  No semaphore is released while it is not
taken; there is no connection before all rooms are there, and no tick before
connections are accepted; and what `main` joins has ended, or is about to. -/
theorem startup {s : ServerLife}
    (h : (serverLife initialRooms).Reachable LabelledSystem.anyStep s) :
    (s.ready.Sound ∧ s.accept.Sound ∧ s.shutdown.Sound) ∧
    (s.main ≠ .awaiting → s.rooms = (Worker.start initialRooms).rooms) ∧
    (s.main.Opening → s.worker.Preparing ∨ s.worker = .awaiting) ∧
    ¬ (s.Holds .main ∧ s.Holds .worker) ∧
    (s.main = .joining → s.worker = .ended ∨ s.acceptBio = false) ∧
    (s.main = .returned → s.worker = .ended) := by
  have hs := orderly_reachable h
  refine ⟨⟨hs.prepared.sound, hs.accepting.sound, hs.ending.sound⟩, fun hmain => ?_,
    fun hopening => (hs.accepting.opening hopening).1, hs.exclusive, hs.ending.joining,
    fun hreturned => hs.ending.joined (.inr hreturned)⟩
  rw [← hs.rooms, ServerLife.allRooms]
  cases hworker : s.worker with
  | creating left =>
      have hawaiting := (hs.prepared.preparing (by rw [hworker]; trivial)).1
      exact (hmain hawaiting).elim
  | _ => rfl

/-! ## When the threads stand still -/

def LifeEvent.ofThread : LifeEvent → Bool
  | .main | .worker => true
  | _ => false

def LifeEvent.isTaskEnd : LifeEvent → Bool
  | .taskEnds _ => true
  | _ => false

/-- `main` has returned, or the process has been ended. -/
def ServerLife.Over (s : ServerLife) : Prop := s.main = .returned ∨ s.main = .terminated

/-- `main` is in the destructor of the pool, which waits for client workers, and there is
nobody else. -/
structure ServerLife.Serves (s : ServerLife) : Prop where
  main : s.main = .unwinding ∨ s.main = .closing
  serving : s.serving ≠ []
  worker : s.worker = .ended

theorem ServerWorkerStep.enabled {s : ServerLife} (hrunning : s.worker ≠ .ended)
    (haccept : s.worker = .awaiting → s.accept.count = 1)
    (hfree : s.acceptBio = true → ¬ s.Holds .main) : ∃ s', ServerWorkerStep s s' := by
  cases hworker : s.worker with
  | creating left =>
      cases left with
      | nil => exact ⟨_, .allRooms hworker⟩
      | cons name left => exact ⟨_, .createRoom hworker⟩
  | signalling => exact ⟨_, .releaseReady hworker⟩
  | awaiting =>
      have hpos : 0 < s.accept.count := by
        rw [haccept hworker]
        exact Nat.one_pos
      obtain ⟨accept, hsome⟩ := BinarySemaphore.exists_tryAcquire hpos
      exact ⟨_, .acquireAccept hworker hsome⟩
  | checking =>
      cases hopen : s.acceptBio with
      | false => exact ⟨_, .leave hworker hopen⟩
      | true => exact ⟨_, .lockToCopy hworker hopen (hfree hopen)⟩
  | copying => exact ⟨_, .copy hworker⟩
  | working => exact ⟨_, .tick hworker⟩
  | ended => exact (hrunning hworker).elim

/-- Whichever thread waits, the other one goes on, or both wait for the client workers. -/
theorem ServerLife.Orderly.enabled {s : ServerLife} (h : s.Orderly initialRooms)
    (hover : ¬ s.Over) : ((∃ s', MainStep s s') ∨ ∃ s', ServerWorkerStep s s') ∨ s.Serves := by
  have hcopying : s.Holds .worker → ∃ s', ServerWorkerStep s s' := fun hworker => ⟨_, .copy hworker⟩
  -- with `main` past the start and without the mutex, the worker can go on
  have hgoes : ¬ s.main.Opening → s.main ≠ .terminated → (s.acceptBio = true → ¬ s.Holds .main) →
      s.worker ≠ .ended → ∃ s', ServerWorkerStep s s' := fun hopening hrunning hfree hended =>
    ServerWorkerStep.enabled hended (h.accepting.opened hopening hrunning) hfree
  cases hmain : s.main with
  | awaiting =>
      left
      by_cases hworker : s.worker.Preparing
      · refine .inr (ServerWorkerStep.enabled ?_ ?_ ?_)
        · rintro hended
          rw [hended] at hworker
          exact hworker
        · rintro hawaiting
          rw [hawaiting] at hworker
          exact hworker.elim
        · rintro - (⟨c, hholds⟩ | ⟨c, hholds⟩)
          · rw [hmain] at hholds
            cases hholds
          · rw [hmain] at hholds
            cases hholds
      · have hpos : 0 < s.ready.count := by
          rw [h.prepared.prepared hworker hmain]
          exact Nat.one_pos
        obtain ⟨ready, hready⟩ := BinarySemaphore.exists_tryAcquire hpos
        exact .inl ⟨_, .acquireReady hmain hready⟩
  | opening => exact .inl (.inl ⟨_, .openSocket hmain⟩)
  | signalling => exact .inl (.inl ⟨_, .releaseAccept hmain⟩)
  | checking =>
      left
      cases hshutdown : s.shutdown.tryAcquire with
      | some shutdown => exact .inl ⟨_, .leave hmain hshutdown⟩
      | none =>
          cases hopen : s.acceptBio with
          | false => exact .inl ⟨_, .leaveClosed hmain hshutdown hopen⟩
          | true => exact .inl ⟨_, .goOn hmain hshutdown hopen⟩
  | beginning => exact .inl (.inl ⟨_, .beginAccept hmain⟩)
  | accepting => exact .inl (.inl ⟨_, .acceptNothing hmain⟩)
  | sleeping => exact .inl (.inl ⟨_, .wake hmain⟩)
  | connecting c =>
      left
      by_cases hworker : s.Holds .worker
      · exact .inr (hcopying hworker)
      · exact .inl ⟨_, .lockToClean hmain hworker⟩
  | cleaning c => exact .inl (.inl ⟨_, .clean hmain⟩)
  | cleaned c =>
      left
      by_cases hworker : s.Holds .worker
      · exact .inr (hcopying hworker)
      · exact .inl ⟨_, .lockToRegister hmain hworker⟩
  | registering c => exact .inl (.inl ⟨_, .register hmain⟩)
  | admitting c => exact .inl (.inl ⟨_, .detach hmain⟩)
  | joining =>
      left
      by_cases hended : s.worker = .ended
      · exact .inl ⟨_, .join hmain hended⟩
      · have hclosed := (h.ending.joining hmain).resolve_left hended
        refine .inr (hgoes ?_ ?_ ?_ hended)
        · rw [hmain]
          exact id
        · rw [hmain]
          exact MainThread.noConfusion
        · rw [hclosed]
          exact Bool.noConfusion
  | unwinding =>
      by_cases hserved : s.serving = []
      · exact .inl (.inl ⟨_, .terminate hmain hserved⟩)
      by_cases hended : s.worker = .ended
      · exact .inr ⟨.inl hmain, hserved, hended⟩
      · refine .inl (.inr (hgoes ?_ ?_ ?_ hended))
        · rw [hmain]
          exact id
        · rw [hmain]
          exact MainThread.noConfusion
        · rintro - (⟨c, hholds⟩ | ⟨c, hholds⟩)
          · cases hmain.symm.trans hholds
          · cases hmain.symm.trans hholds
  | closing =>
      by_cases hserved : s.serving = []
      · exact .inl (.inl ⟨_, .destroyPool hmain hserved⟩)
      · exact .inr ⟨.inr hmain, hserved, h.ending.joined (.inl hmain)⟩
  | returned => exact (hover (.inl hmain)).elim
  | terminated => exact (hover (.inr hmain)).elim

/-- A thread whose handler waits for the mutex of the connections still has it. -/
theorem holds_of_stuck {s : ServerLife} (h : (serverLife initialRooms).Reachable allowed s) :
    ∀ thread, s.stuck thread = some .connections → s.Holds thread := by
  refine h.invariant ?_ ?_
  · rintro s rfl thread hstuck
    cases hstuck
  · rintro s e s' - hs - hstep thread hstuck
    cases hstep with
    | main hmain hstep =>
        have hsame : s'.stuck = s.stuck ∧ s'.worker = s.worker := by
          cases hstep <;> exact ⟨rfl, rfl⟩
        rw [hsame.1] at hstuck
        have hholds := hs thread hstuck
        cases thread with
        | main => cases hmain.symm.trans hstuck
        | worker => exact hsame.2.trans hholds
        | other => exact hholds
    | worker _ hworker hstep =>
        have hsame : s'.stuck = s.stuck ∧ s'.main = s.main := by
          cases hstep <;> exact ⟨rfl, rfl⟩
        rw [hsame.1] at hstuck
        have hholds := hs thread hstuck
        cases thread with
        | main =>
            rw [ServerLife.Holds, hsame.2]
            exact hholds
        | worker => cases hworker.symm.trans hstuck
        | other => exact hholds
    | interruptHolder on _ _ hholds =>
        change Function.update s.stuck on (some .connections) thread = _ at hstuck
        by_cases hon : thread = on
        · subst hon
          exact hholds
        · rw [Function.update_of_ne hon] at hstuck
          exact hs thread hstuck
    | interruptCall on _ _ =>
        change Function.update s.stuck on (some .library) thread = _ at hstuck
        by_cases hon : thread = on
        · subst hon
          rw [Function.update_self] at hstuck
          cases hstuck
        · rw [Function.update_of_ne hon] at hstuck
          exact hs thread hstuck
    | interrupt _ _ _ _ _ | peerCloses _ | taskEnds _ => exact hs thread hstuck

/-- **What it can be that neither thread goes on**, before `main` has returned: a thread
waits in its handler for the mutex of the connections, which it has; or for the lock of a
library call, which it has; or `main` waits for the client workers, and the other thread
has ended. -/
theorem standstill {s : ServerLife}
    (h : (serverLife initialRooms).Reachable LabelledSystem.anyStep s) (hover : ¬ s.Over)
    (hdead : ∀ e s', e.ofThread = true → ¬ LifeStep s e s') :
    (∃ thread, s.stuck thread = some .connections ∧ s.Holds thread) ∨
      (∃ thread, s.stuck thread = some .library) ∨ s.Serves := by
  have hstuck : ∀ thread, s.stuck thread ≠ none →
      (∃ thread, s.stuck thread = some .connections ∧ s.Holds thread) ∨
        (∃ thread, s.stuck thread = some .library) ∨ s.Serves := by
    intro thread hsome
    obtain ⟨lock, hlock⟩ := Option.ne_none_iff_exists'.mp hsome
    cases lock with
    | connections => exact .inl ⟨thread, hlock, holds_of_stuck h thread hlock⟩
    | library => exact .inr (.inl ⟨thread, hlock⟩)
  have hrunning : s.main ≠ .terminated := fun hterminated => hover (.inr hterminated)
  rcases (orderly_reachable h).enabled hover with (⟨s', hstep⟩ | ⟨s', hstep⟩) | hserves
  · exact hstuck .main fun hnone => hdead .main s' rfl (.main hnone hstep)
  · exact hstuck .worker fun hnone => hdead .worker s' rfl (.worker hrunning hnone hstep)
  · exact .inr (.inr hserves)

/-! ## One interrupt stops the server -/

/-- An interrupt now is undone by the next `begin_accept`, frees the socket under
`BIO_do_accept`, or misses the connection that `main` has. -/
def MainThread.Exposed : MainThread → Prop
  | .awaiting | .opening | .beginning | .accepting => True
  | .connecting _ | .cleaning _ | .cleaned _ | .registering _ => True
  | _ => False

/-- The connection that is not in the list yet. -/
def MainThread.pending : MainThread → Option ConnId
  | .connecting c | .cleaning c | .cleaned c | .registering c => some c
  | _ => none

/-- Interrupts come when none of this is so, to no thread that has the mutex, and quietly. -/
def ServerLife.Timely (s : ServerLife) : LifeEvent → Prop
  | .interrupt on quiet => quiet = true ∧ ¬ s.main.Exposed ∧ ¬ s.Holds on
  | _ => True

/-- What a run with such interrupts keeps. -/
structure ServerLife.Stoppable (s : ServerLife) : Prop where
  stuck : ∀ thread, s.stuck thread = none
  /-- Every connection that is open is where `shutdown` or `main` will find it. -/
  roster : ∀ c, s.connected c = true → c ∈ s.active ∨ s.main.pending = some c
  stopped : s.interrupted = true →
    s.acceptBio = false ∧ (∀ c, s.connected c = false) ∧ ¬ s.main.Exposed

/-- How many more steps the two threads take after the interrupt, at most. -/
def ServerLife.remaining (s : ServerLife) : Nat :=
  (match s.main with
    | .returned | .terminated => 0
    | .closing | .unwinding => 1
    | .joining => 2
    | .checking => 3
    | _ => 4) +
  match s.worker with
    | .ended => 0
    | .checking => 1
    | .awaiting | .working => 2
    | _ => 3

namespace ServerLife

/-- A step that can not be taken after an interrupt keeps what there is to keep. -/
theorem Stoppable.before {s s' : ServerLife} (hstuck : ∀ thread, s'.stuck thread = none)
    (hroster : ∀ c, s'.connected c = true → c ∈ s'.active ∨ s'.main.pending = some c)
    (hinterrupted : s'.interrupted = s.interrupted) (hnot : s.interrupted ≠ true) :
    s'.Stoppable ∧ (s.interrupted = true → s'.remaining < s.remaining) :=
  ⟨⟨hstuck, hroster, fun h => (hnot (hinterrupted ▸ h)).elim⟩, fun h => (hnot h).elim⟩

/-- A connection is closed, by its peer or with a NAK. -/
theorem Stoppable.close {s : ServerLife} (h : s.Stoppable) (c : ConnId) :
    Stoppable { s with connected := Function.update s.connected c false } := by
  have hle : ∀ d, Function.update s.connected c false d = true → s.connected d = true := by
    intro d hd
    by_cases hdc : d = c
    · rw [hdc, Function.update_self] at hd
      cases hd
    · rwa [Function.update_of_ne hdc] at hd
  refine ⟨h.stuck, fun d hd => h.roster d (hle d hd), fun hinterrupted => ?_⟩
  obtain ⟨hclosed, hconnected, hmain⟩ := h.stopped hinterrupted
  refine ⟨hclosed, fun d => Bool.eq_false_of_not_eq_true fun hd => ?_, hmain⟩
  exact Bool.noConfusion ((hconnected d).symm.trans (hle d hd))

/-- `main` goes on without a connection of its own. -/
theorem Stoppable.proceed {s : ServerLife} (h : s.Stoppable) {main : MainThread}
    (accept shutdown : BinarySemaphore) (serving : List ConnId) (hpending : s.main.pending = none)
    (hmain : ¬ main.Exposed) : Stoppable { s with main, accept, shutdown, serving } := by
  refine ⟨h.stuck, fun c hc => .inl ((h.roster c hc).resolve_right ?_), fun hinterrupted => ?_⟩
  · rw [hpending]
    intro hsome
    cases hsome
  · obtain ⟨hclosed, hconnected, -⟩ := h.stopped hinterrupted
    exact ⟨hclosed, hconnected, hmain⟩

theorem Stoppable.main {s s' : ServerLife} (h : s.Stoppable) (hstep : MainStep s s') :
    s'.Stoppable ∧ (s.interrupted = true → s'.remaining < s.remaining) := by
  have hexposed : s.main.Exposed → s.interrupted ≠ true := fun hmain hinterrupted =>
    (h.stopped hinterrupted).2.2 hmain
  have hopened : s.acceptBio = true → s.interrupted ≠ true := fun hopen hinterrupted => by
    have hclosed := (h.stopped hinterrupted).1
    rw [hopen] at hclosed
    cases hclosed
  have hroster := h.roster
  cases hstep with
  | acquireReady hmain _ | openSocket hmain | openFails hmain | beginAccept hmain
  | beginFails hmain _ | acceptNothing hmain =>
      refine Stoppable.before h.stuck ?_ rfl (hexposed (by rw [hmain]; trivial))
      simpa [hmain, MainThread.pending] using hroster
  | lockToClean hmain _ | lockToRegister hmain _ =>
      refine Stoppable.before h.stuck ?_ rfl (hexposed (by rw [hmain]; trivial))
      simpa [hmain, MainThread.pending] using hroster
  | goOn hmain _ hopen =>
      refine Stoppable.before h.stuck ?_ rfl (hopened hopen)
      simpa [hmain, MainThread.pending] using hroster
  | accept hmain hopen =>
      refine Stoppable.before h.stuck ?_ rfl (hopened hopen)
      intro c hc
      by_cases hnew : c = s.next
      · exact .inr (congrArg some hnew.symm)
      · simp only [Function.update_of_ne hnew] at hc
        refine .inl ((hroster c hc).resolve_right ?_)
        rw [hmain]
        intro hpending
        cases hpending
  | clean hmain =>
      refine Stoppable.before h.stuck ?_ rfl (hexposed (by rw [hmain]; trivial))
      intro c hc
      refine (hroster c hc).imp (fun hmem => List.mem_filter.mpr ⟨hmem, hc⟩) fun hpending => ?_
      rw [hmain] at hpending
      exact hpending
  | register hmain =>
      refine Stoppable.before h.stuck ?_ rfl (hexposed (by rw [hmain]; trivial))
      intro c hc
      refine .inl ((hroster c hc).elim (List.mem_append_left _) fun hpending => ?_)
      rw [hmain] at hpending
      cases hpending
      exact List.mem_append_right _ (List.mem_singleton_self _)
  | deny hmain =>
      refine ⟨(h.close _).proceed _ _ _ (by simp [hmain, MainThread.pending]) id, fun _ => ?_⟩
      simp [remaining, hmain]
  | releaseAccept hmain | leave hmain _ | leaveClosed hmain _ _ | wake hmain =>
      refine ⟨h.proceed _ _ _ (by simp [hmain, MainThread.pending]) id, fun _ => ?_⟩
      simp [remaining, hmain]
  | detach hmain | denyFails hmain | terminate hmain _ | join hmain _ | destroyPool hmain _ =>
      refine ⟨h.proceed _ _ _ (by simp [hmain, MainThread.pending]) id, fun _ => ?_⟩
      simp [remaining, hmain]

theorem Stoppable.worker {s s' : ServerLife} (h : s.Stoppable) (hs : s.Orderly initialRooms)
    (hstep : ServerWorkerStep s s') :
    s'.Stoppable ∧ (s.interrupted = true → s'.remaining < s.remaining) := by
  have hprepared : s.worker.Preparing → s.interrupted ≠ true := fun hworker hinterrupted => by
    refine (h.stopped hinterrupted).2.2 ?_
    rw [(hs.prepared.preparing hworker).1]
    trivial
  have hopened : s.acceptBio = true → s.interrupted ≠ true := fun hopen hinterrupted => by
    have hclosed := (h.stopped hinterrupted).1
    rw [hopen] at hclosed
    cases hclosed
  refine ⟨?_, fun hinterrupted => ?_⟩
  · cases hstep <;> exact ⟨h.stuck, h.roster, h.stopped⟩
  · cases hstep with
    | createRoom hworker | allRooms hworker | releaseReady hworker =>
        exact (hprepared (by rw [hworker]; trivial) hinterrupted).elim
    | lockToCopy _ hopen _ => exact (hopened hopen hinterrupted).elim
    | acquireAccept hworker _ | copy hworker | tick hworker | tickFails hworker
    | leave hworker _ => simp [remaining, hworker]

theorem Stoppable.interrupt {s : ServerLife} (h : s.Stoppable) (hmain : ¬ s.main.Exposed) :
    Stoppable { s.shutdownConnections with interrupted := true } := by
  have hconnected : ∀ c, s.shutdownConnections.connected c = false := by
    intro c
    refine Bool.eq_false_of_not_eq_true fun hc => ?_
    obtain ⟨hopen, hnot⟩ := Bool.and_eq_true_iff.mp hc
    have hmissing : c ∉ s.active := by simpa using hnot
    refine (h.roster c hopen).elim hmissing fun hpending => hmain ?_
    cases hstage : s.main <;> simp_all [MainThread.pending, MainThread.Exposed]
  refine ⟨h.stuck, fun c hc => ?_, fun _ => ⟨rfl, hconnected, hmain⟩⟩
  exact Bool.noConfusion ((hconnected c).symm.trans hc)

/-- **What one step of such a run does.** -/
theorem Stoppable.step {s s' : ServerLife} {e : LifeEvent} (h : s.Stoppable)
    (hs : s.Orderly initialRooms) (htimely : s.Timely e) (hstep : LifeStep s e s') :
    s'.Stoppable ∧ (s.interrupted = true →
      s'.interrupted = true ∧ s'.remaining + (if e.ofThread then 1 else 0) ≤ s.remaining) := by
  cases hstep with
  | main hstuck hstep =>
      obtain ⟨hs', hless⟩ := h.main hstep
      refine ⟨hs', fun hinterrupted => ⟨?_, hless hinterrupted⟩⟩
      cases hstep <;> exact hinterrupted
  | worker hrunning hstuck hstep =>
      obtain ⟨hs', hless⟩ := h.worker hs hstep
      refine ⟨hs', fun hinterrupted => ⟨?_, hless hinterrupted⟩⟩
      cases hstep <;> exact hinterrupted
  | interrupt on quiet hrunning hstuck hfree =>
      exact ⟨h.interrupt htimely.2.1, fun _ => ⟨rfl, Nat.le_refl _⟩⟩
  | interruptHolder on quiet hstuck hholds => exact (htimely.2.2 hholds).elim
  | interruptCall on hrunning hstuck => cases htimely.1
  | peerCloses c => exact ⟨h.close c, fun hinterrupted => ⟨hinterrupted, Nat.le_refl _⟩⟩
  | taskEnds hserving =>
      exact ⟨⟨h.stuck, h.roster, h.stopped⟩, fun hinterrupted => ⟨hinterrupted, Nat.le_refl _⟩⟩

theorem remaining_le (s : ServerLife) : s.remaining ≤ 7 := by
  rw [remaining]
  split <;> split <;> decide

/-- How many more client workers can end: those there are, and the one that `main` is about
to hand over. -/
def toServe (s : ServerLife) : Nat :=
  s.serving.length + match s.main with
    | .admitting _ => 1
    | _ => 0

/-- After the interrupt, no other client is let in. -/
theorem Stoppable.toServe_step {s s' : ServerLife} {e : LifeEvent} (h : s.Stoppable)
    (hinterrupted : s.interrupted = true) (hstep : LifeStep s e s') :
    s'.toServe + (if e.isTaskEnd then 1 else 0) ≤ s.toServe := by
  obtain ⟨-, -, hexposed⟩ := h.stopped hinterrupted
  cases hstep with
  | main hstuck hstep =>
      cases hstep with
      | register hmain => exact (hexposed (by rw [hmain]; trivial)).elim
      | detach hmain | deny hmain | denyFails hmain =>
          simp [toServe, hmain, LifeEvent.isTaskEnd]
      | _ => simp [toServe, LifeEvent.isTaskEnd]
  | worker hrunning hstuck hstep => cases hstep <;> exact Nat.le_refl _
  | interrupt _ _ _ _ _ | interruptHolder _ _ _ _ | interruptCall _ _ _ | peerCloses _ =>
      exact Nat.le_refl _
  | taskEnds hserving =>
      have hlength := List.length_erase_of_mem hserving
      have hpos := List.length_pos_of_mem hserving
      simp only [toServe, LifeEvent.isTaskEnd, if_true, hlength]
      omega

end ServerLife

theorem stoppable_reachable {s : ServerLife}
    (h : (serverLife initialRooms).Reachable ServerLife.Timely s) : s.Stoppable := by
  refine h.invariant ?_ ?_
  · rintro s rfl
    refine ⟨fun _ => rfl, fun c hc => ?_, fun hinterrupted => ?_⟩
    · cases hc
    · cases hinterrupted
  · rintro s e s' hreach hs htimely hstep
    exact (hs.step (orderly_reachable hreach) htimely hstep).1

/-- **An interrupt at a good moment stops the server.**  The accept socket and every
connection are closed for good.  In whatever follows the two threads take at most seven
steps, and at most one client worker ends that was not there yet; and until `main` has
returned, one of the threads can go on, or a client worker, whose connection is closed,
can end. -/
theorem interrupt_stops {s : ServerLife}
    (h : (serverLife initialRooms).Reachable ServerLife.Timely s)
    (hinterrupted : s.interrupted = true)
    {es : List LifeEvent} {s' : ServerLife}
    (hpath : (serverLife initialRooms).Path ServerLife.Timely s es s') :
    s'.acceptBio = false ∧ (∀ c, s'.connected c = false) ∧ es.countP LifeEvent.ofThread ≤ 7 ∧
      es.countP LifeEvent.isTaskEnd ≤ s.serving.length + 1 ∧
      (s'.Over ∨ (∃ e s'', e.ofThread = true ∧ LifeStep s' e s'') ∨
        ∃ c s'', LifeStep s' (.taskEnds c) s'') := by
  have hs' := stoppable_reachable (h.path hpath)
  have hstart : s.Stoppable ∧ s.Orderly initialRooms ∧ s.interrupted = true :=
    ⟨stoppable_reachable h, orderly_reachable h, hinterrupted⟩
  have hstep : ∀ (s : ServerLife) (e : LifeEvent) (s' : ServerLife),
      s.Stoppable ∧ s.Orderly initialRooms ∧ s.interrupted = true → s.Timely e →
      (serverLife initialRooms).step s e s' →
      (s'.Stoppable ∧ s'.Orderly initialRooms ∧ s'.interrupted = true) ∧
        s'.remaining + (if e.ofThread then 1 else 0) ≤ s.remaining := by
    rintro s e s' ⟨hs, horderly, hinterrupted⟩ htimely hstep
    obtain ⟨hstoppable, hless⟩ := hs.step horderly htimely hstep
    obtain ⟨hsame, hless⟩ := hless hinterrupted
    exact ⟨⟨hstoppable, horderly.step hstep, hsame⟩, hless⟩
  obtain ⟨⟨hstopped, horderly, hsame⟩, hcount⟩ := hpath.countP_le hstep hstart
  have hends : ∀ (s : ServerLife) (e : LifeEvent) (s' : ServerLife),
      s.Stoppable ∧ s.Orderly initialRooms ∧ s.interrupted = true → s.Timely e →
      (serverLife initialRooms).step s e s' →
      (s'.Stoppable ∧ s'.Orderly initialRooms ∧ s'.interrupted = true) ∧
        s'.toServe + (if LifeEvent.isTaskEnd e then 1 else 0) ≤ s.toServe :=
    fun s e s' hs htimely hok =>
      ⟨(hstep s e s' hs htimely hok).1, hs.1.toServe_step hs.2.2 hok⟩
  obtain ⟨-, htasks⟩ := hpath.countP_le hends hstart
  have hbound := s.remaining_le
  have hserve : s.toServe ≤ s.serving.length + 1 := by
    rw [ServerLife.toServe]
    split <;> omega
  obtain ⟨hclosed, hconnected, -⟩ := hs'.stopped hsame
  refine ⟨hclosed, hconnected, by omega, by omega, ?_⟩
  by_cases hover : s'.Over
  · exact .inl hover
  · right
    rcases horderly.enabled hover with (⟨s'', hstep⟩ | ⟨s'', hstep⟩) | hserves
    · exact .inl ⟨.main, s'', rfl, .main (hs'.stuck .main) hstep⟩
    · exact .inl ⟨.worker, s'', rfl,
        .worker (fun hterminated => hover (.inr hterminated)) (hs'.stuck .worker) hstep⟩
    · obtain ⟨c, hserving⟩ := List.exists_mem_of_ne_nil _ hserves.serving
      exact .inr ⟨c, _, .taskEnds hserving⟩

/-! ## Where an interrupt comes too early -/

/-- The accept socket is opened again. -/
theorem interrupt_undone {s : ServerLife} (on : Thread) (hmain : s.main = .beginning)
    (hfree : ¬ s.Holds .worker) (hstuck : ∀ thread, s.stuck thread = none) :
    ∃ s' s'', LifeStep s (.interrupt on true) s' ∧ LifeStep s' .main s'' ∧
      s''.interrupted = true ∧ s''.acceptBio = true ∧ s''.main = .accepting := by
  have hrunning : s.main ≠ .terminated ∧ s.main ≠ .returned := by
    rw [hmain]
    exact ⟨MainThread.noConfusion, MainThread.noConfusion⟩
  refine ⟨_, _, .interrupt on true hrunning (hstuck on) ?_,
    .main (hstuck .main) (.beginAccept hmain), rfl, rfl, rfl⟩
  rintro (_ | _ | _)
  · rintro (⟨c, hholds⟩ | ⟨c, hholds⟩)
    · rw [hmain] at hholds
      cases hholds
    · rw [hmain] at hholds
      cases hholds
  · exact hfree
  · exact id

/-- The connection that `main` is about to register stays open. -/
theorem interrupt_misses {s s' : ServerLife} {on : Thread} {quiet : Bool} {c : ConnId}
    (hnew : c ∉ s.active) (hstep : LifeStep s (.interrupt on quiet) s') :
    s'.connected c = s.connected c := by
  cases hstep with
  | interrupt _ _ _ _ _ =>
      simp [ServerLife.shutdownConnections, hnew]
  | interruptHolder _ _ _ _ | interruptCall _ _ _ => rfl

/-- One room, and one client that `main` is about to register. -/
theorem one_client : ∃ s, (serverLife ["tavern"]).Reachable ServerLife.Timely s ∧
    s.main = .registering 0 ∧ s.worker = .checking ∧ s.acceptBio = true ∧ s.serving = [] ∧
    s.connected 0 = true ∧ (∀ thread, s.stuck thread = none) ∧ s.shutdown = .create := by
  have hstart : (serverLife ["tavern"]).Reachable ServerLife.Timely (.start ["tavern"]) :=
    .init rfl
  have h1 := hstart.step LifeEvent.worker trivial (.worker (by decide) rfl (.createRoom rfl))
  have h2 := h1.step LifeEvent.worker trivial (.worker (by decide) rfl (.allRooms rfl))
  have h3 := h2.step LifeEvent.worker trivial (.worker (by decide) rfl (.releaseReady rfl))
  have h4 := h3.step LifeEvent.main trivial (.main rfl (.acquireReady rfl rfl))
  have h5 := h4.step LifeEvent.main trivial (.main rfl (.openSocket rfl))
  have h6 := h5.step LifeEvent.main trivial (.main rfl (.releaseAccept rfl))
  have h7 := h6.step LifeEvent.worker trivial (.worker (by decide) rfl (.acquireAccept rfl rfl))
  have h8 := h7.step LifeEvent.main trivial (.main rfl (.goOn rfl rfl rfl))
  have h9 := h8.step LifeEvent.main trivial (.main rfl (.beginAccept rfl))
  have h10 := h9.step LifeEvent.main trivial (.main rfl (.accept rfl rfl))
  have h11 := h10.step LifeEvent.main trivial
    (.main rfl (.lockToClean rfl WorkerThread.noConfusion))
  have h12 := h11.step LifeEvent.main trivial (.main rfl (.clean rfl))
  have h13 := h12.step LifeEvent.main trivial
    (.main rfl (.lockToRegister rfl WorkerThread.noConfusion))
  exact ⟨_, h13, rfl, rfl, rfl, rfl, rfl, fun _ => rfl, rfl⟩

/-- The room is there when the first client is. -/
theorem startup_one_client : ∃ s : ServerLife, s.main = .registering 0 ∧
    s.rooms = (Worker.start ["tavern"]).rooms := by
  obtain ⟨s, hs, hmain, -⟩ := one_client
  refine ⟨s, hmain, (startup (hs.mono fun _ _ _ => trivial)).2.1 ?_⟩
  rw [hmain]
  exact MainThread.noConfusion

/-- A client is served, the NAK for the next one can not be sent, and a tick fails. -/
theorem abandoned_client : ∃ s, (serverLife ["tavern"]).Reachable LabelledSystem.anyStep s ∧
    s.main = .unwinding ∧ s.worker = .ended ∧ s.serving = [0] ∧
    ∀ thread, s.stuck thread = none := by
  obtain ⟨s, hs, hmain, hworker, hopen, hserving, -, hstuck, hshutdown⟩ := one_client
  have hempty : s.shutdown.tryAcquire = none := by
    rw [hshutdown]
    rfl
  have hfree : s.worker ≠ .copying := by
    rw [hworker]
    exact WorkerThread.noConfusion
  have hholds : ¬ ((∃ c, MainThread.unwinding = .cleaning c) ∨
      ∃ c, MainThread.unwinding = .registering c) := by
    rintro (⟨c, hcleaning⟩ | ⟨c, hregistering⟩)
    · cases hcleaning
    · cases hregistering
  have hany : (serverLife ["tavern"]).Reachable LabelledSystem.anyStep s :=
    hs.mono fun _ _ _ => trivial
  have h1 := hany.step LifeEvent.main trivial (.main (hstuck .main) (.register hmain))
  have h2 := h1.step LifeEvent.main trivial (.main (hstuck .main) (.detach rfl))
  have h3 := h2.step LifeEvent.main trivial (.main (hstuck .main) (.goOn rfl hempty hopen))
  have h4 := h3.step LifeEvent.main trivial (.main (hstuck .main) (.beginAccept rfl))
  have h5 := h4.step LifeEvent.main trivial (.main (hstuck .main) (.accept rfl rfl))
  have h6 := h5.step LifeEvent.main trivial (.main (hstuck .main) (.lockToClean rfl hfree))
  have h7 := h6.step LifeEvent.main trivial (.main (hstuck .main) (.clean rfl))
  have h8 := h7.step LifeEvent.main trivial (.main (hstuck .main) (.lockToRegister rfl hfree))
  have h9 := h8.step LifeEvent.main trivial (.main (hstuck .main) (.register rfl))
  have h10 := h9.step LifeEvent.main trivial (.main (hstuck .main) (.denyFails rfl))
  have h11 := h10.step LifeEvent.worker trivial
    (.worker MainThread.noConfusion (hstuck .worker) (.lockToCopy hworker rfl hholds))
  have h12 := h11.step LifeEvent.worker trivial
    (.worker MainThread.noConfusion (hstuck .worker) (.copy rfl))
  have h13 := h12.step LifeEvent.worker trivial
    (.worker MainThread.noConfusion (hstuck .worker) (.tickFails rfl))
  have hserved : s.serving ++ [0] = [0] := by rw [hserving, List.nil_append]
  exact ⟨_, h13, rfl, rfl, hserved, hstuck⟩

/-- `main` waits for that client, who may stay. -/
theorem standstill_abandoned_client : ∃ s : ServerLife, s.main = .unwinding ∧ s.serving = [0] ∧
    (∀ thread, s.stuck thread = none) ∧
      ((∃ thread, s.stuck thread = some .connections ∧ s.Holds thread) ∨
        (∃ thread, s.stuck thread = some .library) ∨ s.Serves) := by
  obtain ⟨s, hs, hmain, hworker, hserving, hstuck⟩ := abandoned_client
  refine ⟨s, hmain, hserving, hstuck, standstill hs ?_ ?_⟩
  · rintro (hreturned | hterminated)
    · cases hmain.symm.trans hreturned
    · cases hmain.symm.trans hterminated
  · intro e s' hthread hstep
    cases hstep with
    | main _ hstep => cases hstep <;> simp_all
    | worker _ _ hstep => cases hstep <;> simp_all
    | interrupt _ _ _ _ _ | interruptHolder _ _ _ _ | interruptCall _ _ _ | peerCloses _
    | taskEnds _ => cases hthread

/-- The client is admitted, and the signal comes; when `main` has returned, the client worker
is over too. -/
theorem interrupt_stops_one_client : ∃ s' : ServerLife, s'.main = .returned ∧
    s'.acceptBio = false ∧ s'.connected 0 = false ∧ s'.serving = [] := by
  obtain ⟨s, hs, hmain, hworker, hopen, hserving, -, hstuck, hshutdown⟩ := one_client
  have hfree : ∀ thread, ¬ ({ s with main := .admitting 0, active := s.active ++ [0] } :
      ServerLife).Holds thread := by
    rintro (_ | _ | _) hholds
    · rcases hholds with ⟨c, hholds⟩ | ⟨c, hholds⟩
      · cases hholds
      · cases hholds
    · cases hworker.symm.trans hholds
    · exact hholds
  have hadmitted := hs.step LifeEvent.main trivial (.main (hstuck .main) (.register hmain))
  have hsignal := hadmitted.step (LifeEvent.interrupt .other true) ⟨rfl, id, hfree .other⟩
    (.interrupt .other true ⟨MainThread.noConfusion, MainThread.noConfusion⟩ (hstuck .other) hfree)
  have hempty : s.shutdown.tryAcquire = none := by
    rw [hshutdown]
    rfl
  have hserves : 0 ∈ s.serving ++ [0] := List.mem_append_right _ (List.mem_singleton_self 0)
  have hserved : (s.serving ++ [0]).erase 0 = [] := by rw [hserving]; rfl
  obtain ⟨hclosed, hconnected, -⟩ := interrupt_stops hsignal rfl
    (.cons (l := LifeEvent.main) trivial (.main (hstuck .main) (.detach rfl))
      (.cons (l := LifeEvent.main) trivial (.main (hstuck .main) (.leaveClosed rfl hempty rfl))
        (.cons (l := LifeEvent.worker) trivial
          (.worker MainThread.noConfusion (hstuck .worker) (.leave hworker rfl))
          (.cons (l := LifeEvent.main) trivial (.main (hstuck .main) (.join rfl rfl))
            (.cons (l := LifeEvent.taskEnds 0) trivial (.taskEnds hserves)
              (.cons (l := LifeEvent.main) trivial
                (.main (hstuck .main) (.destroyPool rfl hserved)) (.nil _)))))))
  exact ⟨_, rfl, hclosed, hconnected 0, hserved⟩

end Tavernmx.Server
